import EbmsMessaging.Schema
import EbmsMessaging.Text.Blank
import EbmsMessaging.Text.Split

/-!
# Identifiers

Participants, document types and processes are named by a scheme and a value in it, neither of them
blank. The URI form is `scheme::value`; it is cut at the first separator, so a value may hold more
of them.
-/
namespace EbmsMessaging

structure Identifier where
  scheme : String
  value : String
deriving DecidableEq, Repr

inductive IdentifierError where
  | emptyScheme (value : String)
  | emptyValue (scheme : String)
  | missingSeparator (text : String)
deriving DecidableEq, Repr

namespace IdentifierError

def message : IdentifierError → String
  | emptyScheme value => s!"Identifier scheme cannot be empty (value: {value})"
  | emptyValue scheme => s!"Identifier value cannot be empty (scheme: {scheme})"
  | missingSeparator text => s!"Identifier '{text}' is not in 'scheme::value' form"

end IdentifierError

namespace Identifier

/-- The identifier with these parts; a part that holds blanks only counts as empty. -/
def ofParts (scheme value : String) : Except IdentifierError Identifier :=
  if Text.allBlank scheme then .error (.emptyScheme value)
  else if Text.allBlank value then .error (.emptyValue scheme)
  else .ok ⟨scheme, value⟩

/-- What stands between scheme and value in the URI form. -/
def separator : List Char := [':', ':']

/-- The identifier that a URI form stands for. -/
def ofUri (s : String) : Except IdentifierError Identifier :=
  match Text.cut separator s.toList with
  | some (scheme, value) => ofParts (String.ofList scheme) (String.ofList value)
  | none => .error (.missingSeparator s)

/-- The URI form. -/
def uri (i : Identifier) : String := i.scheme ++ "::" ++ i.value

/-- Ordered by scheme, then by value. -/
def le (i j : Identifier) : Bool := i.scheme < j.scheme || i.scheme == j.scheme && i.value ≤ j.value

/-- Identifiers in ascending order. -/
def sort (is : List Identifier) : List Identifier := is.mergeSort le

instance : Schematic Identifier where
  shape := .record <| .cons "scheme" .required .text <| .cons "value" .required .text .nil
  ofValue := fun (scheme, value, _) => ⟨scheme, value⟩
  toValue i := (i.scheme, i.value, ())
  ofValue_toValue _ := rfl

/-- Only the parts that `ofParts` is given come out of it, and neither is blank. -/
theorem ofParts_eq_ok {scheme value : String} {i : Identifier} :
    ofParts scheme value = .ok i ↔
      i = ⟨scheme, value⟩ ∧ Text.allBlank scheme = false ∧ Text.allBlank value = false := by
  unfold ofParts
  split
  · simp_all
  · split
    · simp_all
    · simp_all only [Except.ok.injEq, Bool.not_eq_true, and_self, and_true]
      exact eq_comm

end Identifier
end EbmsMessaging
