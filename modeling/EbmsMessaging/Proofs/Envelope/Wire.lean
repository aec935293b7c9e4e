import EbmsMessaging.Envelope.Reading
import EbmsMessaging.Envelope.Writing
import EbmsMessaging.Proofs.Json.RoundTrip

/-!
# Envelopes on the wire

No record inside an envelope has two fields of one name. So every envelope is read back from its
bytes, whatever it holds.
-/
namespace EbmsMessaging

namespace Envelope

theorem distinct_shape : (Schematic.shape Envelope).Distinct := by
  simp [Schematic.shape, Shape.Distinct, Fields.Distinct, Fields.names]

/-- An envelope is read back from its bytes. -/
theorem ofBytes_toBytes (e : Envelope) : ofBytes e.toBytes = .ok e :=
  Json.parse_render distinct_shape e

end Envelope

theorem Arrival.ofBytes_toBytes (e : Envelope) (as : List Attachment) :
    Arrival.ofBytes e.toBytes as = e.arrival as := by
  rw [Arrival.ofBytes, e.ofBytes_toBytes]

end EbmsMessaging
