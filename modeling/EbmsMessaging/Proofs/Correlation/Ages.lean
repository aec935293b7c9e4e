import EbmsMessaging.Correlation.Sweeper
import EbmsMessaging.Proofs.Correlation.Evolution

/-!
# The age of values

The oldest value in reach grows older only with time: every new value came at the present instant.
A sweep removes what came too long ago. What a sweeper does at its turn, and when it is due again,
is told here once for all turns.
-/
namespace EbmsMessaging.Correlation

variable {α : Type}

namespace Sweeper

/-- A sweeper waits on, or some ticks come and it is due again. All of them sweep but the first tick
of all. -/
inductive Ticks (s : Sweeper) (clock : Clock) : Nat → Sweeper → Prop where
  | waits (hrung : clock.rung < (s.nextAt clock.now).due) :
    Ticks s clock 0 { s with next := some (s.nextAt clock.now) }
  | comes {n due : Nat} (hrung : (s.nextAt clock.now).due ≤ clock.rung)
    (hn : (s.nextAt clock.now).sweeps = true → n ≠ 0) (hdue : due ≤ clock.now + s.period) :
    Ticks s clock n { s with next := some ⟨due, true⟩ }

/-- After the ticks that come there is another one within a period. -/
theorem ticksFrom_spec (period : Nat) {due : Nat} {clock : Clock} (hdue : due ≤ clock.rung)
    (hrung : clock.rung ≤ clock.now) :
    (ticksFrom period due clock).1 ≠ 0 ∧
      (ticksFrom period due clock).2 ≤ clock.now + period := by
  have hle (late : Nat) : late / period * period ≤ late := Nat.div_mul_le_self late period
  unfold ticksFrom
  by_cases hlate : clock.now - due ≤ tolerance
  · simp only [if_pos hlate, Nat.add_mul, Nat.one_mul]
    have := hle (clock.rung - due)
    exact ⟨Nat.succ_ne_zero _, by omega⟩
  · simp only [if_neg hlate, Nat.add_mul, Nat.one_mul]
    have := hle (clock.now - due)
    exact ⟨Nat.one_ne_zero, by omega⟩

theorem ticks (s : Sweeper) {clock : Clock} (hrung : clock.rung ≤ clock.now) :
    s.Ticks clock (s.tick clock).1 (s.tick clock).2 := by
  simp only [tick]
  by_cases hlt : clock.rung < (s.nextAt clock.now).due
  · rw [if_pos hlt]
    exact .waits hlt
  · rw [if_neg hlt]
    have hdue := Nat.not_lt.mp hlt
    obtain ⟨hticks, hnext⟩ := ticksFrom_spec s.period hdue hrung
    refine .comes hdue (fun hsweeps => ?_) hnext
    rwa [if_pos hsweeps]

/-- The next tick is never more than a period away. The first tick of all does not lie ahead; at
most the alarms have not rung yet. -/
def InStep (s : Sweeper) (now : Nat) : Prop :=
  ∀ tick, s.next = some tick → tick.due ≤ now + if tick.sweeps then s.period else 0

theorem InStep.mono {s : Sweeper} {now now' : Nat} (h : s.InStep now) (hle : now ≤ now') :
    s.InStep now' :=
  fun tick htick => Nat.le_trans (h tick htick) (Nat.add_le_add_right hle _)

theorem Ticks.inStep {s s' : Sweeper} {clock : Clock} {n : Nat} (h : s.Ticks clock n s')
    (hs : s.InStep clock.now) : s'.InStep clock.now := by
  cases h with
  | waits _ =>
    intro tick htick
    obtain rfl := Option.some.inj htick
    rw [nextAt]
    cases hnext : s.next with
    | none => exact Nat.le_refl _
    | some tick => exact hs tick hnext
  | comes _ _ hdue =>
    intro tick htick
    obtain rfl := Option.some.inj htick
    exact hdue

/-- A sweeper that has had a turn knows its next tick. -/
theorem Ticks.exists_next {s s' : Sweeper} {clock : Clock} {n : Nat} (h : s.Ticks clock n s') :
    ∃ tick, s'.next = some tick := by
  cases h <;> exact ⟨_, rfl⟩

theorem Ticks.period_eq {s s' : Sweeper} {clock : Clock} {n : Nat} (h : s.Ticks clock n s') :
    s'.period = s.period := by
  cases h <;> rfl

end Sweeper

namespace Table

/-- No value in reach came before an instant. -/
def Since (t : Table α) (instant : Nat) : Prop :=
  ∀ c ∈ t.cells, ∀ d, c.slot = some d → instant ≤ d.time

namespace Since

variable {t t' : Table α} {instant : Nat}

theorem mono (h : t.Since instant) {earlier : Nat} (hle : earlier ≤ instant) : t.Since earlier :=
  fun c hc d hd => Nat.le_trans hle (h c hc d hd)

theorem succeeds (h : t.Since instant) (ht : t'.Succeeds none t) : t'.Since instant := by
  intro c' hc' d hd
  obtain hnew | ⟨c, hc, -, -, hslot⟩ := ht.values c' hc' d hd
  · simp at hnew
  · exact h c hc d hslot

theorem deposit (h : t.Since instant) {now : Nat} (hnow : instant ≤ now) (key : String) (a : α) :
    (t.deposit now key a).1.Since instant := by
  have hw := h.succeeds (Succeeds.withCell t now key)
  rw [fst_deposit]
  intro c' hc' d hd
  obtain ⟨c, hc, rfl⟩ := List.mem_map.mp hc'
  split at hd
  · obtain rfl := Option.some.inj hd
    exact hnow
  · exact hw c hc d hd

theorem sweep (h : t.Since instant) (asOf : Int) : (t.sweep asOf).1.Since instant :=
  fun c hc => h c (List.mem_of_mem_filter hc)

theorem sweepTimes (h : t.Since instant) (now n : Nat) : (t.sweepTimes now n).1.Since instant := by
  induction n generalizing t with
  | zero => exact h
  | succ n ih => exact ih (h.sweep now)

end Since

/-- A sweep leaves no value that is older than the limit. -/
theorem since_sweep (t : Table α) (now : Nat) :
    (t.sweep now).1.Since (now - t.retention.valueLimit) := by
  intro c hc d hd
  have hfresh := (List.mem_filter.mp hc).2
  simp [Cell.isExpired, hd, Cell.age] at hfresh
  omega

theorem since_sweepTimes (t : Table α) (now n : Nat) :
    (t.sweepTimes now (n + 1)).1.Since (now - t.retention.valueLimit) :=
  (since_sweep t now).sweepTimes now n

end Table
end EbmsMessaging.Correlation
