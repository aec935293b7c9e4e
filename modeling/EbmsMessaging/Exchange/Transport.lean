import EbmsMessaging.Exchange.Failure
import EbmsMessaging.Task

/-!
# Transmissions

A transport takes an envelope with its attachments and reports at once whether it could deliver
them, and with which fault they came back if they did. Acknowledgements come later, on another way.
-/
namespace EbmsMessaging

/-- What was handed to the transport, and by which task. -/
structure Transmission where
  task : TaskId
  message : PreparedMessage
  endpoint : Endpoint
deriving DecidableEq

/-- What the transport reports: an error of its own, a fault, or neither. -/
abbrev TransportReport := Except TransportFailure (Option Fault)

/-- What happens during a transmission that no gateway answers. Acknowledgements arrive in this
order, and then the transport reports. Each may depend on the transmissions up to this one. -/
structure ArrangedReply where
  acknowledgements : List (List Transmission → Acknowledgement)
  report : List Transmission → TransportReport

/-- Nothing arrives and nothing goes wrong. -/
def ArrangedReply.silence : ArrangedReply := ⟨[], fun _ => .ok none⟩

end EbmsMessaging
