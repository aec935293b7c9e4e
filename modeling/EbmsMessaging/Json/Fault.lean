/-!
# What is wrong with a JSON text

A reader stops at the first fault from left to right. The text is malformed, or it ends too soon,
or it is well formed so far and does not fit the shape that was expected.
-/
namespace EbmsMessaging.Json

inductive Mismatch where
  | missingField (name : String)
  | duplicateField (name : String)
  | wrongType
  | wrongLength
  | wrongValue
deriving DecidableEq, Repr

inductive Fault where
  | malformed
  | truncated
  | mismatch (cause : Mismatch)
deriving DecidableEq, Repr

namespace Mismatch

/-- The wording of a mismatch. -/
def text : Mismatch → String
  | missingField name => s!"missing field `{name}`"
  | duplicateField name => s!"duplicate field `{name}`"
  | wrongType => "invalid type"
  | wrongLength => "invalid length"
  | wrongValue => "invalid value"

end Mismatch

namespace Fault

/-- The class of a fault. -/
def category : Fault → String
  | malformed => "syntax"
  | truncated => "eof"
  | mismatch _ => "data"

/-- The wording of a mismatch; the other faults have none. -/
def detail? : Fault → Option String
  | mismatch cause => some cause.text
  | _ => none

end Fault
end EbmsMessaging.Json
