import EbmsMessaging.Identifier

/-!
# Routes

What discovery found out about the way to a receiver. A message can be sent only if transport
profile, endpoint address and certificate are known; they are looked at in this order.
-/
namespace EbmsMessaging

structure Route where
  sender : Identifier
  receiver : Identifier
  documentType : Identifier
  process : Identifier
  transportProfile : String
  endpointUrl : Option String
  certificate : Option Bytes
deriving DecidableEq, Repr

inductive RouteError where
  | missingTransportProfile (receiver : String)
  | missingEndpoint (receiver : String)
  | missingCertificate (receiver : String)
deriving DecidableEq, Repr

def RouteError.message : RouteError → String
  | missingTransportProfile receiver =>
    s!"Routing information for {receiver} has no transport profile"
  | missingEndpoint receiver => s!"Routing information for {receiver} has no target endpoint URL"
  | missingCertificate receiver => s!"Routing information for {receiver} has no target certificate"

/-- Where a message is delivered. -/
structure Endpoint where
  url : String
  certificate : Bytes
deriving DecidableEq, Repr

namespace Route

/-- Where the route leads. A blank profile or address and an empty certificate count as unknown. -/
def endpoint (r : Route) : Except RouteError Endpoint :=
  if Text.allBlank r.transportProfile then .error (.missingTransportProfile r.receiver.uri)
  else match r.endpointUrl.filter fun url => !Text.allBlank url with
    | none => .error (.missingEndpoint r.receiver.uri)
    | some url =>
      match r.certificate.filter fun c => !c.isEmpty with
      | none => .error (.missingCertificate r.receiver.uri)
      | some certificate => .ok ⟨url, certificate⟩

end Route

instance : Schematic Route where
  shape := .record <| .cons "sender" .required (Schematic.shape Identifier) <|
    .cons "receiver" .required (Schematic.shape Identifier) <|
    .cons "document_type" .required (Schematic.shape Identifier) <|
    .cons "process" .required (Schematic.shape Identifier) <|
    .cons "transport_profile" .required .text <|
    .cons "endpoint_url" (.nullable false) .text <|
    .cons "certificate" (.nullable false) (.list .octet) .nil
  ofValue := fun (sender, receiver, documentType, process, transportProfile, endpointUrl,
      certificate, _) =>
    ⟨Schematic.ofValue sender, Schematic.ofValue receiver, Schematic.ofValue documentType,
      Schematic.ofValue process, transportProfile, endpointUrl, certificate⟩
  toValue r := (Schematic.toValue r.sender, Schematic.toValue r.receiver,
    Schematic.toValue r.documentType, Schematic.toValue r.process, r.transportProfile,
    r.endpointUrl, r.certificate, ())
  ofValue_toValue _ := by simp

end EbmsMessaging
