import EbmsMessaging.Fault

/-!
# Acknowledgements

A message travels over two hops, and each hop answers with an acknowledgement: the gateway that the
message was submitted to, and the remote gateway that it was relayed to. An acknowledgement is kept
under the identifier of the message that it refers to. The identifier of a submission
acknowledgement is what the relay acknowledgement will refer to.
-/
namespace EbmsMessaging

/-- The hop that an acknowledgement belongs to. -/
inductive Hop where
  | submission
  | relay
deriving DecidableEq, Repr

def Hop.text : Hop → String
  | submission => "submission"
  | relay => "relay"

/-- Whether an acknowledgement is positive. -/
inductive Verdict where
  | receipt
  | error
deriving DecidableEq, Repr

namespace Verdict

/-- The text of a verdict in an envelope. -/
def text : Verdict → String
  | receipt => "Receipt"
  | error => "Error"

def ofText? (s : String) : Option Verdict :=
  if s = "Receipt" then some receipt
  else if s = "Error" then some error
  else none

@[simp] theorem ofText?_text (v : Verdict) : ofText? v.text = some v := by cases v <;> rfl

end Verdict

structure Acknowledgement where
  hop : Hop
  /-- The identifier of the message that is acknowledged. -/
  key : String
  messageId : Option String
  verdict : Verdict
  /-- What went wrong, in a negative acknowledgement. -/
  detail : Option FaultDetail
deriving DecidableEq, Repr

namespace Acknowledgement

def positive (hop : Hop) (key : String) (messageId : Option String) : Acknowledgement :=
  ⟨hop, key, messageId, .receipt, none⟩

def negative (hop : Hop) (key : String) (messageId : Option String) (detail : FaultDetail) :
    Acknowledgement :=
  ⟨hop, key, messageId, .error, some detail⟩

def isPositive (a : Acknowledgement) : Bool := a.verdict = .receipt

def errorCode? (a : Acknowledgement) : Option String := a.detail.map (·.code)

end Acknowledgement
end EbmsMessaging
