import EbmsMessaging.Proofs.Service.Exchanges
import EbmsMessaging.Proofs.Service.Mailbox
import EbmsMessaging.Proofs.Service.Sweepers

/-!
# Values stay fresh

A tick removes every value that is too old, and the next one comes within a period. So no value in
reach grows older than the limit and one period, from one period after the sweeper took up its work.
It does so at its first turn, which comes before the service first settles after its start but not
at once.
-/
namespace EbmsMessaging

open Correlation

section Enacts

variable {clock : Clock} {t : Table Acknowledgement} {instant : Nat}

/-- No deed brings an old value. -/
theorem Deed.since_enact {d : Deed} (hfits : d.Fits clock t) (h : t.Since instant)
    (hnow : instant ≤ clock.now) : (d.enact clock t).Since instant := by
  by_cases harrived : ∃ a, d = .deposited a
  · obtain ⟨a, rfl⟩ := harrived
    exact h.deposit hnow a.key a
  · by_cases hswept : ∃ asOf, d = .swept asOf
    · obtain ⟨asOf, rfl⟩ := hswept
      exact h.sweep asOf
    · exact h.succeeds (succeeds_none hfits (not_exists.mp harrived) (not_exists.mp hswept))

theorem Deed.retention_enact {d : Deed} (hfits : d.Fits clock t) :
    (d.enact clock t).retention = t.retention := by
  by_cases harrived : ∃ a, d = .deposited a
  · obtain ⟨a, rfl⟩ := harrived
    exact (Table.Succeeds.withCell t clock.now a.key).retention_eq
  · by_cases hswept : ∃ asOf, d = .swept asOf
    · obtain ⟨asOf, rfl⟩ := hswept
      rfl
    · exact (succeeds_none hfits (not_exists.mp harrived) (not_exists.mp hswept)).retention_eq

theorem since_deeds {ds : List Deed} (hfit : Fit clock t ds) (h : t.Since instant)
    (hnow : instant ≤ clock.now) : (ds.foldl (Deed.enact clock) t).Since instant := by
  induction ds generalizing t with
  | nil => exact h
  | cons d ds ih => exact ih hfit.2 (Deed.since_enact hfit.1 h hnow)

theorem retention_deeds {ds : List Deed} (hfit : Fit clock t ds) :
    (ds.foldl (Deed.enact clock) t).retention = t.retention := by
  induction ds generalizing t with
  | nil => rfl
  | cons d ds ih => exact (ih hfit.2).trans (Deed.retention_enact hfit.1)

end Enacts

namespace Service

variable {s : Service}

theorem since_move {instant : Nat} (h : s.state.table.Since instant) (hnow : instant ≤ s.now)
    (m : Move) : (s.move m).state.table.Since instant := by
  obtain ⟨called, hmove⟩ := s.enacts_move m
  rw [hmove.table]
  exact since_deeds hmove.fit h hnow

theorem retention_move (m : Move) : (s.move m).state.table.retention = s.state.table.retention := by
  obtain ⟨called, hmove⟩ := s.enacts_move m
  rw [hmove.table]
  exact retention_deeds hmove.fit

/-! ## Values stay fresh -/

/-- The next tick is one of the first period after an instant, or it comes before any value in reach
is older than the limit and one period. -/
def TicksInTime (settings : ExchangeSettings) (instant : Nat) (t : Table Acknowledgement)
    (w : Sweeper) : Prop :=
  ∃ due, w.next = some ⟨due, true⟩ ∧ (due ≤ instant + settings.sweep.periodMs.toNat ∨
    t.Since (due - (settings.sweep.valueLimitMs.toNat + settings.sweep.periodMs.toNat)))

theorem TicksInTime.move {s : Service} {settings : ExchangeSettings} {instant : Nat} {id : TaskId}
    {w w' : Sweeper} (h : TicksInTime settings instant s.state.table w)
    (hw : Sweeps settings.sweep.periodMs.toNat s.scheduler id w) (hone : s.OneSweeper)
    (hp : settings.sweep.periodMs.toNat ≠ 0)
    (hretention : s.state.table.retention = settings.sweep.retention) (m : Move)
    (hw' : (id, .sweeping w') ∈ (s.move m).scheduler.tasks) :
    TicksInTime settings instant (s.move m).state.table w' := by
  obtain ⟨due, hdue, hfresh⟩ := h
  have hunique {w'' : Sweeper} (hw'' : (id, .sweeping w'') ∈ (s.move m).scheduler.tasks) :
      w'' = w' := by
    have hn := (hone.move m).numbered
    simpa using (hn.task?_eq_some_iff.mpr hw'').symm.trans (hn.task?_eq_some_iff.mpr hw')
  have hkept : TicksInTime settings instant (s.move m).state.table w := by
    refine ⟨due, hdue, hfresh.imp_right fun hsince => since_move hsince ?_ m⟩
    have hle : due ≤ s.now + settings.sweep.periodMs.toNat := hw.period_eq ▸ hw.inStep _ hdue
    omega
  by_cases hm : m = .turn id
  · subst hm
    obtain ⟨state, htable, hstate⟩ := hw.attend_eq hone.numbered hp
    obtain rfl := hunique (hw.turn_own hone.numbered hp).task
    have hswept : (s.move (.turn id)).state.table =
        (s.state.table.sweepTimes s.now (w.tick s.scheduler.clock).1).1 :=
      (congrArg (fun v => v.shared.table) hstate).trans htable
    have hticks := w.ticks hw.rung_le
    generalize w.tick s.scheduler.clock = ticked at hticks hswept
    obtain ⟨times, w'⟩ := ticked
    have hnext : w.nextAt s.scheduler.clock.now = ⟨due, true⟩ := by
      rw [Sweeper.nextAt, hdue, Option.getD_some]
    cases hticks with
    | waits _ =>
      obtain ⟨due', hdue', hfresh'⟩ := hkept
      obtain rfl : due = due' := by simpa using hdue.symm.trans hdue'
      exact ⟨due, congrArg some hnext, hfresh'⟩
    | @comes times next _ hn hle =>
      obtain ⟨n, rfl⟩ := Nat.exists_eq_succ_of_ne_zero (hn (by rw [hnext]))
      refine ⟨next, rfl, .inr ?_⟩
      rw [hswept]
      refine (Table.since_sweepTimes s.state.table s.now n).mono ?_
      rw [hretention]
      rw [hw.period_eq] at hle
      change next ≤ s.now + _ at hle
      change next - _ ≤ s.now - settings.sweep.valueLimitMs.toNat
      omega
  · obtain rfl := hunique ((spares_move hone.numbered hm).task _ hw.task)
    exact hkept

section Runs

variable {settings : ExchangeSettings} {gateway : Option Gateway} {draws : Draws} {id : TaskId}

theorem le_nextTask_move {s : Service} (h : Numbered s.scheduler) (m : Move) :
    s.scheduler.nextTask ≤ (s.move m).scheduler.nextTask := by
  by_cases hm : ∃ id, m = .turn id
  · obtain ⟨id, rfl⟩ := hm
    exact (OneSweeper.aborted_of_turned (h.turned id)).2.1
  · exact (passed_of_not_turn s (not_exists.mp hm)).le_nextTask

theorem le_nextTask_run {s : Service} (h : Numbered s.scheduler) (moves : List Move) :
    s.scheduler.nextTask ≤ (s.run moves).scheduler.nextTask := by
  induction moves generalizing s with
  | nil => exact Nat.le_refl _
  | cons m moves ih => exact Nat.le_trans (le_nextTask_move h m) (ih (numbered_move h m))

/-- Once it has stopped, a sweeper does not become the one of the service again. -/
theorem sweeper_of_move {s : Service} (hlt : id < s.scheduler.nextTask) {m : Move}
    (hs : (s.move m).sweeper = some id) : s.sweeper = some id := by
  rcases move_cases s m with ⟨b, rfl⟩ | rfl | ⟨j, rfl⟩ | ⟨j, rfl⟩ | ⟨hc, -⟩
  · rcases start_cases s b with heq | ⟨-, heq⟩
    · rwa [heq] at hs
    · rw [heq] at hs
      exact absurd hlt (Option.some.inj hs ▸ Nat.lt_irrefl _)
  · rcases stop_cases s with heq | ⟨j, -, heq⟩
    · rwa [move, heq] at hs
    · rw [move, heq] at hs
      simp at hs
  · exact hs
  · exact hs
  · exact hc.sweeper.symm.trans hs

theorem retention_run (settings : ExchangeSettings) (gateway : Option Gateway) (draws : Draws)
    (moves : List Move) : ((opened settings gateway draws).run moves).state.table.retention =
      settings.sweep.retention := by
  induction moves using List.reverseRecOn with
  | nil => rfl
  | append_singleton moves m ih =>
    rw [run_concat, retention_move]
    exact ih

/-- From a settled state on the sweeper of a service ticks in time. -/
theorem ticksInTime_run (hp : settings.sweep.periodMs.toNat ≠ 0) {before more : List Move}
    (hkept : .abort id ∉ before ++ more)
    (hsettled : ((opened settings gateway draws).run before).scheduler.IsSettled
      ServiceTask.behaviour)
    (hbefore : ((opened settings gateway draws).run before).sweeper = some id)
    (hs : ((opened settings gateway draws).run (before ++ more)).sweeper = some id) :
    ∃ w, Sweeps settings.sweep.periodMs.toNat
        ((opened settings gateway draws).run (before ++ more)).scheduler id w ∧
      TicksInTime settings ((opened settings gateway draws).run before).now
        ((opened settings gateway draws).run (before ++ more)).state.table w := by
  have hfirst : .abort id ∉ before := fun hmem => hkept (List.mem_append_left _ hmem)
  obtain ⟨w, hw⟩ := sweeps_run hp hfirst hbefore
  have hn := (oneSweeper_run settings gateway draws before).numbered
  have hlt (more : List Move) :
      id < ((opened settings gateway draws).run (before ++ more)).scheduler.nextTask := by
    rw [run_append]
    exact Nat.lt_of_lt_of_le (hn.task_lt _ hw.task) (le_nextTask_run hn more)
  induction more using List.reverseRecOn with
  | nil =>
    rw [List.append_nil]
    obtain ⟨due, hdue, -, hle⟩ := hw.due_of_settled hsettled
    exact ⟨w, hw, due, hdue, .inl hle⟩
  | append_singleton more m ih =>
    rw [← List.append_assoc] at hkept hs ⊢
    obtain ⟨w', hw'⟩ := sweeps_run hp hkept hs
    have hone := oneSweeper_run settings gateway draws (before ++ more)
    have hretention := retention_run settings gateway draws (before ++ more)
    rw [run_concat] at hs hw' ⊢
    have hnot : .abort id ∉ before ++ more := fun hmem => hkept (List.mem_append_left _ hmem)
    obtain ⟨w, hw, hticks⟩ := ih hnot (sweeper_of_move (hlt more) hs)
    exact ⟨w', hw', hticks.move hw hone hp hretention m hw'.task⟩

end Runs

/-- A service is not created without a period. -/
theorem period_of_create {settings : ExchangeSettings} {gateway : Option Gateway} {draws : Draws}
    {s : Service} (h : create settings gateway draws = .ok s) :
    settings.sweep.periodMs.toNat ≠ 0 ∧ s = opened settings gateway draws := by
  obtain ⟨_, hcheck, hs⟩ := bind_eq_ok.mp h
  obtain ⟨_, -, hcheck⟩ := bind_eq_ok.mp hcheck
  obtain ⟨_, -, hcheck⟩ := bind_eq_ok.mp hcheck
  obtain ⟨_, hsweep, -⟩ := bind_eq_ok.mp hcheck
  refine ⟨fun hzero => ?_, (Except.ok.inj hs).symm⟩
  have hperiod : settings.sweep.periodMs = 0 := UInt64.toNat_inj.mp hzero
  simp [SweepSettings.check, hperiod] at hsweep

/-- No more than one sweeper is at work in a service. Let the service have settled with its sweeper
running, and settle again one period later or more, with this sweeper neither stopped nor dropped.
Then no value in reach is as old as the limit and one period. -/
theorem swept_values_stay_fresh {settings : ExchangeSettings} {gateway : Option Gateway}
    {draws : Draws} {s : Service} (hcreate : create settings gateway draws = .ok s)
    (moves : List Move) :
    (∀ id w, (id, .sweeping w) ∈ (s.run moves).scheduler.tasks →
      id ∉ (s.run moves).scheduler.aborted → (s.run moves).sweeper = some id) ∧
    ∀ id before, before <+: moves →
      (s.run before).scheduler.IsSettled ServiceTask.behaviour →
      (s.run before).sweeper = some id →
      (s.run moves).scheduler.IsSettled ServiceTask.behaviour →
      (s.run moves).sweeper = some id → .abort id ∉ moves →
      (s.run before).now + settings.sweep.periodMs.toNat ≤ (s.run moves).now →
      ∀ c ∈ (s.run moves).state.table.cells, ∀ d, c.slot = some d → (s.run moves).now - d.time <
        settings.sweep.valueLimitMs.toNat + settings.sweep.periodMs.toNat := by
  obtain ⟨hp, rfl⟩ := period_of_create hcreate
  refine ⟨(oneSweeper_run settings gateway draws moves).eq_sweeper, ?_⟩
  rintro id before ⟨more, rfl⟩ hfirst hbefore hsettled hs hkept hlate c hc d hd
  obtain ⟨w, hw, due, hdue, hfresh⟩ := ticksInTime_run hp hkept hfirst hbefore hs
  obtain ⟨due', hdue', hahead, -⟩ := hw.due_of_settled hsettled
  obtain rfl : due = due' := by simpa using hdue.symm.trans hdue'
  change ((opened settings gateway draws).run (before ++ more)).now < due at hahead
  rcases hfresh with hsoon | hsince
  · omega
  · have hage := hsince c hc d hd
    omega

/-- Values are kept for as long as a period. -/
def briefSettings : ExchangeSettings := { ExchangeSettings.standard with sweep := ⟨10, 10, none⟩ }

/-- A service with these settings. -/
def briefService : Service := opened briefSettings none sampleDraws

theorem create_briefService : create briefSettings none sampleDraws = .ok briefService := by
  rw [create_eq]
  rfl

/-- A service starts and settles. A value comes, and then a tick. -/
def punctualMoves : List Move :=
  [.start true, .turn 0, .advance 5, .deposit (.positive .relay "k" none), .advance 7, .ring,
    .turn 0]

/-- The value is there after the tick, and it is not stale. -/
theorem punctual_value_is_fresh :
    (briefService.run punctualMoves).now = 12 ∧
      ∃ c ∈ (briefService.run punctualMoves).state.table.cells, ∃ d, c.slot = some d ∧
        (briefService.run punctualMoves).now - d.time < 10 + 10 := by
  have hfirst : (briefService.run (punctualMoves.take 2)).scheduler.IsSettled
      ServiceTask.behaviour := by
    have halarms : (briefService.run (punctualMoves.take 2)).scheduler.alarms = [(0, 10)] := by decide +kernel
    refine (Scheduler.isSettled_iff _ _).mpr ⟨by decide +kernel, by decide +kernel, ?_⟩
    rw [halarms]
    exact List.forall_mem_singleton.mpr (by decide)
  have hclock : (briefService.run punctualMoves).scheduler.clock = ⟨12, 12⟩ := by decide +kernel
  have hsettled : (briefService.run punctualMoves).scheduler.IsSettled ServiceTask.behaviour := by
    have halarms : (briefService.run punctualMoves).scheduler.alarms = [(0, 20)] := by decide +kernel
    refine (Scheduler.isSettled_iff _ _).mpr ⟨by decide +kernel, by rw [Scheduler.now, hclock], ?_⟩
    rw [halarms, Scheduler.now, hclock]
    exact List.forall_mem_singleton.mpr (by decide)
  have hcells : (briefService.run punctualMoves).state.table.cells =
      [⟨0, "k", some ⟨.positive .relay "k" none, 5⟩, 5, 0, []⟩] := by decide +kernel
  have hmem : ⟨0, "k", some ⟨.positive .relay "k" none, 5⟩, 5, 0, []⟩ ∈
      (briefService.run punctualMoves).state.table.cells := by
    rw [hcells]
    exact List.mem_cons_self
  have hnow : (briefService.run punctualMoves).now = 12 := congrArg Clock.now hclock
  have hlate : (briefService.run (punctualMoves.take 2)).now + 10 ≤
      (briefService.run punctualMoves).now := by
    rw [hnow]
    decide +kernel
  exact ⟨hnow, _, hmem, _, rfl, (swept_values_stay_fresh create_briefService punctualMoves).2 0
    (punctualMoves.take 2) (List.take_prefix _ _) hfirst (by decide +kernel) hsettled (by decide +kernel)
    (by simp [punctualMoves]) hlate _ hmem _ rfl⟩

/-- A service starts, but time moves on before its sweeper has its first turn. -/
def belatedMoves : List Move :=
  [.deposit (.positive .relay "k" none), .start true, .advance 100, .turn 0, .ring, .turn 0]

/-- Counted from the start of a service, and not from the first turn of its sweeper, a value can be
as old as one likes. Here it is five times as old as the limit and one period together, ten periods
after the start. -/
theorem stale_value_after_start :
    (briefService.run (belatedMoves.take 1)).sweeper = none ∧
      (briefService.run (belatedMoves.take 2)).sweeper = some 0 ∧
      (briefService.run belatedMoves).sweeper = some 0 ∧
      (briefService.run belatedMoves).scheduler.IsSettled ServiceTask.behaviour ∧
      (briefService.run (belatedMoves.take 2)).now + 10 ≤ (briefService.run belatedMoves).now ∧
      ∃ c ∈ (briefService.run belatedMoves).state.table.cells, ∃ d, c.slot = some d ∧
        ¬(briefService.run belatedMoves).now - d.time < 10 + 10 := by
  have hclock : (briefService.run belatedMoves).scheduler.clock = ⟨100, 100⟩ := by decide +kernel
  have hnow : (briefService.run belatedMoves).now = 100 := congrArg Clock.now hclock
  have hstart : (briefService.run (belatedMoves.take 2)).now = 0 := by decide +kernel
  have halarms : (briefService.run belatedMoves).scheduler.alarms = [(0, 110)] := by decide +kernel
  have hcells : (briefService.run belatedMoves).state.table.cells =
      [⟨0, "k", some ⟨.positive .relay "k" none, 0⟩, 0, 0, []⟩] := by decide +kernel
  refine ⟨by decide +kernel, by decide +kernel, by decide +kernel, ?_, by rw [hnow, hstart]; decide, ?_⟩
  · refine (Scheduler.isSettled_iff _ _).mpr ⟨by decide +kernel, by rw [Scheduler.now, hclock], ?_⟩
    rw [halarms, Scheduler.now, hclock]
    exact List.forall_mem_singleton.mpr (by decide)
  · rw [hcells, hnow]
    exact ⟨_, List.mem_cons_self, _, rfl, by decide⟩

end Service
end EbmsMessaging
