import EbmsMessaging.Envelope.Basic
import EbmsMessaging.Uuid
import EbmsMessaging.Vocabulary

/-!
# Agreements

A sender and its gateway agree on the parties that stand in every envelope between them, and on the
domain at the end of every message identifier. What is new in each envelope comes as a stamp.
-/
namespace EbmsMessaging

structure Agreement where
  /-- The sender of outbound messages. -/
  localParty : Party
  /-- The gateway that outbound messages are handed to. -/
  gatewayParty : Party
  domain : String
deriving DecidableEq, Repr

/-- What is drawn afresh for one envelope. -/
structure Stamp where
  message : Uuid
  conversation : Uuid
  timestamp : Timestamp

/-- The message identifier with a random part and a domain. -/
def messageIdOf (u : Uuid) (domain : String) : String := u.text ++ "@" ++ domain

namespace Agreement

def standardDomain : String := "as4.exchange"

def standard : Agreement where
  localParty := ⟨"as4-sender", none, Vocabulary.initiatorRole⟩
  gatewayParty := ⟨"as4-gateway", none, Vocabulary.responderRole⟩
  domain := standardDomain

/-- The identifier of a message that is stamped here. -/
def freshId (a : Agreement) (s : Stamp) : String := messageIdOf s.message a.domain

end Agreement
end EbmsMessaging
