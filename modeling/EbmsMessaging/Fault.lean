import EbmsMessaging.Schema

/-!
# Faults

A fault travels in an envelope of its own, or comes back at once as a rejection. Its detail is the
part that is shown to a sender.
-/
namespace EbmsMessaging

structure Fault where
  category : Option String
  code : String
  severity : Option String
  shortDescription : Option String
  description : Option String
  refToMessageId : Option String
deriving DecidableEq, Repr

structure FaultDetail where
  code : String
  severity : Option String
  shortDescription : Option String
  description : Option String
deriving DecidableEq, Repr

namespace FaultDetail

/-- The detail that holds nothing. -/
def empty : FaultDetail := ⟨"", none, none, none⟩

/-- The code, and as far as they are known the severity in brackets, the short description and the
long one behind a colon. -/
def text (d : FaultDetail) : String :=
  d.code ++ d.severity.elim "" (fun s => s!" [{s}]") ++
    d.shortDescription.elim "" (fun s => s!" {s}") ++ d.description.elim "" (fun s => s!": {s}")

end FaultDetail

namespace Fault

def detail (f : Fault) : FaultDetail :=
  ⟨f.code, f.severity, f.shortDescription, f.description⟩

instance : Schematic Fault where
  shape := .record <| .cons "Category" .optional .text <| .cons "ErrorCode" .required .text <|
    .cons "Severity" .optional .text <| .cons "ShortDescription" .optional .text <|
    .cons "Description" .optional .text <| .cons "RefToMessageId" .optional .text .nil
  ofValue := fun (category, code, severity, shortDescription, description, refToMessageId, _) =>
    ⟨category, code, severity, shortDescription, description, refToMessageId⟩
  toValue f :=
    (f.category, f.code, f.severity, f.shortDescription, f.description, f.refToMessageId, ())
  ofValue_toValue _ := rfl

end Fault
end EbmsMessaging
