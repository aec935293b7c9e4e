import EbmsMessaging.Telemetry.Pattern.Basic

/-!
# Sets of characters in patterns

A set of characters stands in brackets. It lists characters, ranges, named classes and other sets;
two lists can be intersected or subtracted. What counts of a set is how deep its parts are nested.
-/
namespace EbmsMessaging.Pattern

/-- How deep a list of parts is nested. A single part stands for itself. -/
def nesting : (depths : List Nat) → Nat
  | [] => 0
  | [d] => d
  | ds => ds.foldl max 0 + 1

/-- A set that is not closed yet. -/
structure Bracket where
  /-- The depth of what stands on the left of an operator. -/
  left : Option Nat
  /-- The depths of the members listed since. -/
  members : List Nat
deriving DecidableEq, Repr

namespace Bracket

def add (b : Bracket) (depth : Nat) : Bracket := { b with members := depth :: b.members }

/-- The depth of the parts so far. -/
def depth (b : Bracket) : Nat := nesting (b.left.toList ++ [nesting b.members])

/-- Goes on behind an operator. -/
def operate (b : Bracket) : Bracket := ⟨some b.depth, []⟩

end Bracket

/-- The named classes of ASCII characters. -/
def classNames : List String :=
  ["alnum", "alpha", "ascii", "blank", "cntrl", "digit", "graph", "lower", "print", "punct",
    "space", "upper", "word", "xdigit"]

/-- A named class after its bracket, and whether it is negated. -/
def namedClass? (cs : List Char) : Option (Bool × List Char) :=
  match cs with
  | ':' :: rest =>
    let (isNegated, rest) := match rest with
      | '^' :: rest => (true, rest)
      | _ => (false, rest)
    let name := rest.takeWhile (· ≠ ':')
    match rest.dropWhile (· ≠ ':') with
    | ':' :: ']' :: rest =>
      if String.ofList name ∈ classNames then some (isNegated, rest) else none
    | _ => none
  | _ => none

/-- Whether a named class can be a member of a set. -/
def isNamedMember (f : Flags) (isNegated : Bool) : Bool :=
  if f.unicode then !f.ignoresCase else !isNegated

/-- Hyphens that stand for themselves, at most `most`, and how many there are. -/
def hyphens (f : Flags) : (most : Nat) → List Char → Nat × List Char
  | 0, cs => (0, cs)
  | most + 1, '-' :: rest =>
    let (n, rest) := hyphens f most (f.skip rest)
    (n + 1, rest)
  | _, cs => (0, cs)

/-- A set begins, after its bracket. Hyphens in front stand for themselves, and so does a closing
bracket. The bytes outside a set are never those of ASCII only. -/
def openBracket? (f : Flags) (cs : List Char) : Option (Bracket × List Char) :=
  let cs := f.skip cs
  let (isNegated, cs) := match cs with
    | '^' :: rest => (true, f.skip rest)
    | _ => (false, cs)
  let (n, cs) := hyphens f cs.length cs
  let (n, cs) := match n, cs with
    | 0, ']' :: rest => (1, f.skip rest)
    | _, _ => (n, cs)
  if isNegated && !f.unicode || 0 < n && !(Place.char '-' false).isMember f then none
  else some (⟨none, List.replicate n 0⟩, cs)

/-- One end of a range, or a member by itself. -/
def member? (f : Flags) : List Char → Option (Place × List Char)
  | [] => none
  | '\\' :: rest => escape? f rest
  | c :: rest => some (.char c false, rest)

/-- Whether two places are the ends of a range. -/
def isRange : Place → Place → Bool
  | .char a _, .char b _ => a ≤ b
  | _, _ => false

/-- What follows a member or a range. -/
def passMember? (f : Flags) (cs : List Char) : Option (List Char) := do
  let (first, rest) ← member? f cs
  guard (first.isMember f)
  match f.skip rest with
  | '-' :: after =>
    if f.peek after = some ']' ∨ f.peek after = some '-' then return '-' :: after
    let (last, rest) ← member? f (f.skip after)
    guard (last.isMember f && isRange first last)
    return rest
  | rest => return rest

/-- The rest of a set inside of others, and its depth; at most `fuel` members and marks. -/
def closeBracket? (f : Flags) :
    (fuel : Nat) → Bracket → (outer : List Bracket) → List Char → Option (Nat × List Char)
  | 0, _, _, _ => none
  | fuel + 1, b, outer, cs =>
    match f.skip cs with
    | [] => none
    | '[' :: rest =>
      match namedClass? rest with
      | some (isNegated, rest) =>
        if isNamedMember f isNegated then closeBracket? f fuel (b.add 0) outer rest else none
      | none => do
        let (inner, rest) ← openBracket? f rest
        closeBracket? f fuel inner (b :: outer) rest
    | ']' :: rest =>
      match outer with
      | [] => some (b.depth + 1, rest)
      | o :: outer => closeBracket? f fuel (o.add (b.depth + 1)) outer rest
    | '&' :: '&' :: rest => closeBracket? f fuel b.operate outer rest
    | '-' :: '-' :: rest => closeBracket? f fuel b.operate outer rest
    | '~' :: '~' :: rest => closeBracket? f fuel b.operate outer rest
    | cs => do closeBracket? f fuel (b.add 0) outer (← passMember? f cs)

/-- A set after its bracket: its depth, and what follows it. -/
def bracket? (f : Flags) (cs : List Char) : Option (Nat × List Char) := do
  let (b, rest) ← openBracket? f cs
  closeBracket? f (rest.length + 1) b [] rest

end EbmsMessaging.Pattern
