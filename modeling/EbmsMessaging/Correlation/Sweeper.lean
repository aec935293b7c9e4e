import EbmsMessaging.Correlation.Table

/-!
# Periodic sweeps

A sweeper sweeps once in a period, counted from its first turn. The first tick is that turn itself,
or it comes when the alarms of that instant have rung; it sweeps nothing. A turn that comes a little
late makes up for every tick whose alarm has rung. A turn that comes later than the tolerance makes
up for one of them. Either way the next tick is one of the same periods.
-/
namespace EbmsMessaging.Correlation

/-- A tick to come. -/
structure Tick where
  due : Nat
  /-- The first tick does not sweep. -/
  sweeps : Bool
deriving DecidableEq, Repr

structure Sweeper where
  period : Nat
  /-- The next tick; nothing before the first turn. -/
  next : Option Tick
deriving DecidableEq, Repr

namespace Sweeper

/-- How late a tick may come without the ones after it being left out. -/
def tolerance : Nat := 5

/-- The next tick, for a sweeper that has its turn now. -/
def nextAt (s : Sweeper) (now : Nat) : Tick := s.next.getD ⟨now, false⟩

/-- When a sweeper wants to be called next. -/
def alarm (s : Sweeper) (now : Nat) : Nat := (s.nextAt now).due

/-- How many ticks come at a turn that is not too early for the first of them, and when the one
after them is due. -/
def ticksFrom (period due : Nat) (clock : Clock) : Nat × Nat :=
  let late := clock.now - due
  if late ≤ tolerance then
    let ticks := (clock.rung - due) / period + 1
    (ticks, due + ticks * period)
  else (1, due + (late / period + 1) * period)

/-- How often a sweeper sweeps at its turn, and what becomes of it. -/
def tick (s : Sweeper) (clock : Clock) : Nat × Sweeper :=
  let next := s.nextAt clock.now
  if clock.rung < next.due then (0, { s with next := some next })
  else
    let (ticks, due) := ticksFrom s.period next.due clock
    (if next.sweeps then ticks else ticks - 1, { s with next := some ⟨due, true⟩ })

theorem lt_ticksFrom {period : Nat} (h : 0 < period) (due now : Nat) :
    now < (ticksFrom period due ⟨now, now⟩).2 := by
  have hlt : now - due < (now - due) / period * period + period := Nat.lt_div_mul_add h
  unfold ticksFrom
  by_cases hlate : now - due ≤ tolerance
  · simp only [if_pos hlate, Nat.add_mul, Nat.one_mul]
    omega
  · simp only [if_neg hlate, Nat.add_mul, Nat.one_mul]
    omega

/-- Once the alarms have rung the next tick lies ahead, as long as there is a period at all. -/
theorem lt_alarm_tick (s : Sweeper) (now : Nat) (h : 0 < s.period) :
    now < (s.tick ⟨now, now⟩).2.alarm now := by
  unfold tick
  by_cases hearly : now < (s.nextAt now).due
  · simp only [if_pos hearly]
    exact hearly
  · simp only [if_neg hearly]
    exact lt_ticksFrom h _ now

end Sweeper

namespace Table

variable {α : Type}

/-- Sweeps `n` times at one instant. -/
def sweepTimes (t : Table α) (now : Nat) : (n : Nat) → Table α × List Removals
  | 0 => (t, [])
  | n + 1 =>
    let (t, report) := t.sweep now
    let (t, reports) := t.sweepTimes now n
    (t, report :: reports)

end Table
end EbmsMessaging.Correlation
