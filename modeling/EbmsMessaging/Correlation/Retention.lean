/-!
# How long things are kept

A sweep removes values that nobody fetched for too long and, where a limit is set for them, cells
that nobody uses. Times are in milliseconds.
-/
namespace EbmsMessaging.Correlation

structure Retention where
  /-- Values older than this are removed. -/
  valueLimit : Nat
  /-- Empty cells that nobody waits at are removed when they are older than this. -/
  emptyLimit : Option Nat
deriving DecidableEq, Repr

/-- Five minutes, and empty cells are kept. -/
def Retention.standard : Retention := ⟨300000, none⟩

/-- What one sweep removed. -/
structure Removals where
  expired : Nat
  unused : Nat
deriving DecidableEq, Repr

def Removals.total (r : Removals) : Nat := r.expired + r.unused

end EbmsMessaging.Correlation
