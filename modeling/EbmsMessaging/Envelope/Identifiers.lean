import EbmsMessaging.Identifier
import EbmsMessaging.Properties

/-!
# Identifiers in properties

A property holds an identifier in one of two forms: the scheme as its type and the value as its
value, or no type and the whole URI form as its value. The second form is understood, but it is
reported, as no current sender should use it.
-/
namespace EbmsMessaging

/-- The form in which an identifier was found. -/
inductive IdentifierForm where
  /-- The scheme is the type of the property. -/
  | typed
  /-- The value is a URI form. -/
  | uri
deriving DecidableEq, Repr

def IdentifierForm.text : IdentifierForm → String
  | typed => "typed"
  | uri => "parsed"

structure FoundIdentifier where
  identifier : Identifier
  form : IdentifierForm
deriving DecidableEq, Repr

inductive LookupError where
  | missing
  | invalid (cause : IdentifierError)
deriving DecidableEq, Repr

namespace Properties

/-- The identifier that a property holds. -/
def identifier (ps : Properties) (name : String) : Except LookupError FoundIdentifier :=
  match ps.get? name with
  | none => .error .missing
  | some p =>
    let (read, form) := match p.type.filter fun type => type ≠ "" with
      | some scheme => (Identifier.ofParts scheme p.value, IdentifierForm.typed)
      | none => (Identifier.ofUri p.value, IdentifierForm.uri)
    match read with
    | .ok i => .ok ⟨i, form⟩
    | .error e => .error (.invalid e)

end Properties
end EbmsMessaging
