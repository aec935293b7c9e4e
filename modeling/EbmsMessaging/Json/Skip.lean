import EbmsMessaging.Json.Number
import EbmsMessaging.Json.Quoted

/-!
# Passing over values

A value whose key is unknown is passed over to any depth. The open brackets are kept on a stack, so
that only their nesting and the form of each part are checked.
-/
namespace EbmsMessaging.Json

inductive Bracket where
  | array
  | object
deriving DecidableEq, Repr

namespace Bracket

def ofOctet? : UInt8 → Option Bracket
  | openBracket => some array
  | openBrace => some object
  | _ => none

def close : Bracket → UInt8
  | array => closeBracket
  | object => closeBrace

/-- What stands before a value inside these brackets: nothing in an array, a key in an object. -/
def key : Bracket → Bytes → Except Fault Bytes
  | array, input => .ok input
  | object, input =>
    match skipBlanks input with
    | [] => .error .truncated
    | b :: rest => if b = quote then do keyEnd (← skipQuoted rest) else .error .malformed

end Bracket

/-- A value without brackets that begins with `b`. -/
def skipScalar (b : UInt8) (rest : Bytes) : Except Fault Bytes :=
  if b = quote then skipQuoted rest
  else if b = minus ∨ isDigit b then skipNumber (b :: rest)
  else match wordTail? b with
    | some w => word w rest
    | none => .error .malformed

/-- Where the pass stands: before a value, after an opening bracket, or after a value. -/
inductive Progress where
  | value
  | opened
  | ended

/-- Passes over what is left of a value inside the brackets of `stack`. Every step but the last
takes up an octet, so the length of the text bounds the steps. -/
def skipFrom : Nat → Progress → List Bracket → Bytes → Except Fault Bytes
  | 0, _, _, _ => .error .truncated
  | _ + 1, .ended, [], input => .ok input
  | _ + 1, .opened, [], input => .ok input
  | fuel + 1, .value, stack, input =>
    match skipBlanks input with
    | [] => .error .truncated
    | b :: rest =>
      match Bracket.ofOctet? b with
      | some bracket => skipFrom fuel .opened (bracket :: stack) rest
      | none => do skipFrom fuel .ended stack (← skipScalar b rest)
  | fuel + 1, .opened, bracket :: outer, input =>
    match skipBlanks input with
    | [] => .error .truncated
    | b :: rest =>
      if b = bracket.close then skipFrom fuel .ended outer rest
      else do skipFrom fuel .value (bracket :: outer) (← bracket.key (b :: rest))
  | fuel + 1, .ended, bracket :: outer, input =>
    match skipBlanks input with
    | [] => .error .truncated
    | b :: rest =>
      if b = bracket.close then skipFrom fuel .ended outer rest
      else if b = comma then do skipFrom fuel .value (bracket :: outer) (← bracket.key rest)
      else .error .malformed

/-- What follows the value at the start of a text. -/
def skipValue (input : Bytes) : Except Fault Bytes :=
  skipFrom (2 * input.length + 2) .value [] input

end EbmsMessaging.Json
