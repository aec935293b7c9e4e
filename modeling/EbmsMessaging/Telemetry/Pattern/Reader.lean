import EbmsMessaging.Telemetry.Pattern.Bracket
import EbmsMessaging.Text.Alphanumeric

/-!
# Reading patterns

A pattern is a choice between branches. A branch is a sequence of places, sets and groups, each of
which may be repeated. No pattern holds a closing brace outside a set, so a brace that would count
repetitions is never closed. Patterns are nested to a limited depth.
-/
namespace EbmsMessaging.Pattern

/-- A part of a branch. -/
structure Part where
  depth : Nat
  /-- A change of flags cannot be repeated. -/
  isRepeatable : Bool
deriving DecidableEq, Repr

/-- A group that is not closed yet, or the whole pattern. -/
structure Group where
  flags : Flags
  /-- The depths of the branches that are complete. -/
  branches : List Nat
  /-- The parts of the present branch, the last one first. -/
  parts : List Part
deriving DecidableEq, Repr

namespace Group

/-- A group without parts. -/
def new (f : Flags) : Group := ⟨f, [], []⟩

def add (g : Group) (p : Part) : Group := { g with parts := p :: g.parts }

/-- The depth of the present branch. -/
def branchDepth (g : Group) : Nat := nesting (g.parts.map Part.depth)

/-- The depth of the choice between the branches. -/
def depth (g : Group) : Nat := nesting (g.branchDepth :: g.branches)

/-- Begins another branch. -/
def branch (g : Group) : Group :=
  { g with branches := g.branchDepth :: g.branches, parts := [] }

/-- Repeats the last part. -/
def repeated? (g : Group) : Option Group :=
  match g.parts with
  | p :: ps =>
    if p.isRepeatable then some { g with parts := ⟨p.depth + 1, true⟩ :: ps } else none
  | [] => none

end Group

/-- Whether a group can have a name. -/
def isName (cs : List Char) : Bool :=
  match cs with
  | [] => false
  | c :: cs =>
    (c == '_' || Text.isAlphabetic c) &&
      cs.all fun c => c ∈ ['_', '.', '[', ']'] || Text.isAlphanumeric c

/-- A named group after its opening angle bracket: the name, and what follows it. -/
def name? (cs : List Char) : Option (List Char × List Char) :=
  let name := cs.takeWhile (· ≠ '>')
  match cs.dropWhile (· ≠ '>') with
  | _ :: rest => if isName name then some (name, rest) else none
  | [] => none

/-- What a parenthesis opens. -/
inductive Opening where
  | group (name : Option (List Char)) (letters : List Char)
  | change (letters : List Char)
deriving DecidableEq, Repr

/-- What a parenthesis opens, after it, and what follows. -/
def opening? (cs : List Char) : Option (Opening × List Char) :=
  let named (cs : List Char) := (name? cs).map fun (name, rest) => (Opening.group name [], rest)
  match cs with
  | '?' :: 'P' :: '<' :: rest => named rest
  | '?' :: '<' :: rest => named rest
  | '?' :: rest =>
    let letters := rest.takeWhile fun c => c ≠ ':' ∧ c ≠ ')'
    if !Flags.isChange letters then none
    else match rest.drop letters.length with
      | ':' :: rest => some (.group none letters, rest)
      | ')' :: rest => if letters.isEmpty then none else some (.change letters, rest)
      | _ => none
  | _ => some (.group none [], cs)

/-- A place outside of sets. -/
def place? (f : Flags) : List Char → Option (Place × List Char)
  | [] => none
  | '\\' :: rest => escape? f rest
  | '.' :: rest => some (.anyChar, rest)
  | '^' :: rest => some (.edge, rest)
  | '$' :: rest => some (.edge, rest)
  | '\x7b' :: _ => none
  | c :: rest => some (.char c false, rest)

/-- The depth of the pattern, read to its end from inside a group and the groups around it, where
some names are taken; at most `fuel` parts and marks. -/
def depth? : (fuel : Nat) → Group → (outer : List Group) → (names : List (List Char)) →
    List Char → Option Nat
  | 0, _, _, _, _ => none
  | fuel + 1, g, outer, names, cs =>
    match g.flags.skip cs with
    | [] => if outer.isEmpty then some g.depth else none
    | '(' :: rest => do
      match ← opening? (g.flags.skip rest) with
      | (.change letters, rest) =>
        let g := { g with flags := g.flags.change letters }
        depth? fuel (g.add ⟨0, false⟩) outer names rest
      | (.group name letters, rest) =>
        if name.any (· ∈ names) then none
        else
          let inner := Group.new (g.flags.change letters)
          depth? fuel inner (g :: outer) (name.toList ++ names) rest
    | ')' :: rest =>
      match outer with
      | [] => none
      | o :: outer => depth? fuel (o.add ⟨g.depth + 1, true⟩) outer names rest
    | '|' :: rest => depth? fuel g.branch outer names rest
    | '[' :: rest => do
      let (d, rest) ← bracket? g.flags rest
      depth? fuel (g.add ⟨d, true⟩) outer names rest
    | c :: rest =>
      if c = '?' ∨ c = '*' ∨ c = '+' then do
        let rest := match rest with
          | '?' :: rest => rest
          | _ => rest
        depth? fuel (← g.repeated?) outer names rest
      else do
        let (p, rest) ← place? g.flags (c :: rest)
        guard (p.isMatchable g.flags)
        depth? fuel (g.add ⟨0, true⟩) outer names rest

/-- How deep the parts of a pattern may be nested. -/
def maxDepth : Nat := 250

/-- Whether a text is a pattern. -/
def isPattern (cs : List Char) : Bool :=
  (depth? (cs.length + 1) (.new .standard) [] [] cs).any (· ≤ maxDepth)

example : isPattern ['a', '.', '*'] = true ∧ isPattern ['(', 'a', '|', 'b'] = false := by
  decide +kernel

end EbmsMessaging.Pattern
