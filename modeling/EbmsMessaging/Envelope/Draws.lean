import EbmsMessaging.Envelope.Agreement

/-!
# Drawing stamps

Random identifiers and the time of day come from outside. They are drawn one after the other, and
none is drawn twice.
-/
namespace EbmsMessaging

structure Draws where
  uuid : Nat → Uuid
  timestamp : Nat → Timestamp
  /-- How many were drawn so far. -/
  drawn : Nat

namespace Draws

/-- A random identifier. -/
def takeUuid (d : Draws) : Uuid × Draws := (d.uuid d.drawn, { d with drawn := d.drawn + 1 })

/-- A stamp for one envelope. -/
def takeStamp (d : Draws) : Stamp × Draws :=
  let (message, d) := d.takeUuid
  let (conversation, d) := d.takeUuid
  (⟨message, conversation, d.timestamp d.drawn⟩, d)

end Draws
end EbmsMessaging
