import EbmsMessaging.Proofs.Correlation.Ages
import EbmsMessaging.Proofs.Service.Trace

/-!
# The sweeper of a service

A service that runs has one sweeper, which is called or has its alarm set. Whenever the service is
settled the next tick lies ahead, and not more than a period.
-/
namespace EbmsMessaging

open Correlation

/-! ## Who sweeps -/

namespace ServiceState

variable (s : ServiceState) (now : Nat) (clock : Clock) (id : TaskId)

/-- A sender goes on as one that waits. -/
def Awaits (next : Next ServiceTask ServiceResult) : Prop :=
  ∀ task, next.task? = some task → ∃ x w, task = .awaiting x w

theorem awaits_conclude (startedAt : Nat) (r : Except ExchangeFailure Confirmation) :
    Awaits (s.conclude now startedAt r).2 := by
  intro task h
  simp [conclude, Next.task?] at h

theorem awaits_afterRelay (x : OpenExchange) (relay : String)
    (attempt : Table Acknowledgement × Attempt Acknowledgement) :
    Awaits (s.afterRelay now id x relay attempt).2 := by
  obtain ⟨t, attempt⟩ := attempt
  cases attempt with
  | entered w => exact fun task h => ⟨_, w, (Option.some.inj h).symm⟩
  | waiting w => exact fun task h => ⟨_, w, (Option.some.inj h).symm⟩
  | ended o => exact awaits_conclude _ now _ _

theorem awaits_afterSubmission (x : OpenExchange)
    (attempt : Table Acknowledgement × Attempt Acknowledgement) :
    Awaits (s.afterSubmission now id x attempt).2 := by
  obtain ⟨t, attempt⟩ := attempt
  cases attempt with
  | entered w => exact fun task h => ⟨x, w, (Option.some.inj h).symm⟩
  | waiting w => exact fun task h => ⟨x, w, (Option.some.inj h).symm⟩
  | ended o =>
    simp only [afterSubmission_ended]
    split
    · exact awaits_conclude _ now _ _
    · exact awaits_afterRelay _ now id _ _ _

theorem awaits_afterHandover (x : OpenExchange) (h : Handover) :
    Awaits (afterHandover now id x h).next := by
  simp only [afterHandover]
  split
  · exact awaits_conclude _ now _ _
  · exact awaits_conclude _ now _ _
  · exact awaits_afterSubmission _ now id _ _

theorem awaits_beginExchange (r : SendRequest) : Awaits (s.beginExchange now id r).next := by
  simp only [beginExchange]
  split
  · exact s.countStart.awaits_conclude now now _
  · split
    · exact s.countStart.takeStamp.2.awaits_conclude now now _
    · exact awaits_afterHandover now id _ _

theorem awaits_resumeExchange (x : OpenExchange) (w : Wait) :
    Awaits (s.resumeExchange clock id x w).next := by
  simp only [resumeExchange]
  split
  · exact awaits_afterSubmission s clock.now id x _
  · exact awaits_afterRelay s clock.now id x _ _

/-- Only a sweeper becomes a sweeper at its turn. -/
theorem sweeping_of_next {task : ServiceTask} {w : Sweeper}
    (h : (ServiceTask.behaviour.turn clock id task s).next.task? = some (.sweeping w)) :
    ∃ w', task = .sweeping w' := by
  have hsender {next : Next ServiceTask ServiceResult} (hawaits : Awaits next)
      (h : next.task? = some (.sweeping w)) : False := by
    obtain ⟨x, w', heq⟩ := hawaits _ h
    simp at heq
  cases task with
  | sending r => exact (hsender (s.awaits_beginExchange clock.now id r) h).elim
  | awaiting x w => exact (hsender (s.awaits_resumeExchange clock id x w) h).elim
  | transmitting r =>
    simp only [ServiceTask.behaviour, transmitTo] at h
    split at h <;> simp [Next.task?] at h
  | fetching key limit =>
    simp only [ServiceTask.behaviour, afterAttempt] at h
    split at h <;> simp [Next.task?] at h
  | waiting w =>
    simp only [ServiceTask.behaviour, afterAttempt] at h
    split at h <;> simp [Next.task?] at h
  | sweeping w' => exact ⟨w', rfl⟩
  | answering a =>
    simp only [ServiceTask.behaviour, continueAnswer] at h
    split at h
    · simp [Next.task?] at h
    · split at h
      · simp [Next.task?] at h
      · split at h <;> simp [Next.task?] at h

end ServiceState

namespace Service

/-! ## One sweeper at most -/

/-- Whoever sweeps and is not dropped is the sweeper of the service. -/
structure OneSweeper (s : Service) : Prop where
  numbered : Numbered s.scheduler
  rung_le : s.scheduler.clock.rung ≤ s.now
  aborted_lt : ∀ j ∈ s.scheduler.aborted, j < s.scheduler.nextTask
  eq_sweeper : ∀ j w, (j, .sweeping w) ∈ s.scheduler.tasks → j ∉ s.scheduler.aborted →
    s.sweeper = some j

/-- Only a sweeper becomes a sweeper at its turn, and nobody starts one. -/
theorem sweeping_of_turned {s v : Scheduling} {id : TaskId} (h : Turned s id v) {j : TaskId}
    {w : Sweeper} (hmem : (j, .sweeping w) ∈ v.tasks) : ∃ w', (j, .sweeping w') ∈ s.tasks := by
  cases h with
  | nobody _ => exact ⟨w, hmem⟩
  | dropped _ _ _ => exact ⟨w, List.mem_of_mem_filter hmem⟩
  | attended task htask ha hv =>
    rcases (Numbered.mem_tasks_attended hv).mp hmem with hnew | ⟨rfl, hnext⟩ | ⟨hold, -⟩
    · obtain ⟨a, ha⟩ := started_of_turn _ _ _ _ _ (Scheduler.mem_numberedFrom hnew).2.2
      simp at ha
    · obtain ⟨w', rfl⟩ := ServiceState.sweeping_of_next _ _ _ hnext
      exact ⟨w', Scheduler.mem_of_lookup htask⟩
    · exact ⟨w, hold⟩

/-- What goes on when nobody has a turn, is dropped or begins to sweep. -/
structure Continues (s v : Service) : Prop where
  sweeper : v.sweeper = s.sweeper
  aborted : v.scheduler.aborted = s.scheduler.aborted
  now_le : s.now ≤ v.now
  rung : v.scheduler.clock.rung = s.scheduler.clock.rung ∨ v.scheduler.clock.rung = v.now
  /-- An alarm is still set, or it has rung. -/
  alarms : ∀ a ∈ s.scheduler.alarms, a ∈ v.scheduler.alarms ∨
    (a.1 ∈ v.scheduler.queue ∧ a.2 ≤ v.scheduler.clock.rung)

theorem Continues.rung_le {s v : Service} (h : s.Continues v)
    (hs : s.scheduler.clock.rung ≤ s.now) : v.scheduler.clock.rung ≤ v.now := by
  rcases h.rung with heq | heq
  · rw [heq]
    exact Nat.le_trans hs h.now_le
  · exact Nat.le_of_eq heq

theorem continues_spawn (s : Service) (t : ServiceTask) : s.Continues (s.spawn t).2 :=
  ⟨rfl, rfl, Nat.le_refl _, .inl rfl, fun _ ha => .inl ha⟩

theorem continues_change (s : Service) (f : ServiceState → ServiceState × List TaskId) :
    s.Continues (s.change f) := by
  simp only [change, Scheduler.change, Scheduler.callAll_eq]
  exact ⟨rfl, rfl, Nat.le_refl _, .inl rfl, fun _ ha => .inl ha⟩

theorem continues_ring (s : Service) : s.Continues (s.move .ring) := by
  simp only [move, Scheduler.ring, Scheduler.callAll_eq]
  refine ⟨rfl, rfl, Nat.le_refl _, .inr rfl, fun a ha => ?_⟩
  by_cases hdue : s.now < a.2
  · exact .inl (List.mem_filter.mpr ⟨ha, decide_eq_true hdue⟩)
  · refine .inr ⟨Scheduler.mem_enqueue.mpr (.inr (List.mem_map_of_mem ?_)), Nat.not_lt.mp hdue⟩
    rw [Scheduler.dueAlarms, List.mem_mergeSort, List.mem_filter]
    exact ⟨ha, decide_eq_true (Nat.not_lt.mp hdue)⟩

/-- What a move from outside starts, if it starts a sweeper. -/
theorem start_cases (s : Service) (hasScheduler : Bool) :
    s.move (.start hasScheduler) = s ∨ (s.sweeper = none ∧ s.move (.start hasScheduler) =
      { s with
        scheduler := s.scheduler.spawn (.sweeping ⟨s.state.settings.sweep.periodMs.toNat, none⟩)
        sweeper := some s.scheduler.nextTask }) := by
  rw [move, start, isRunning]
  cases hsweeper : s.sweeper with
  | some id => exact .inl rfl
  | none =>
    cases hasScheduler with
    | true => exact .inr ⟨rfl, rfl⟩
    | false => exact .inl rfl

theorem stop_cases (s : Service) : s.stop = s ∨ ∃ id, s.sweeper = some id ∧
    s.stop = { scheduler := s.scheduler.abort id, sweeper := none } := by
  rw [stop]
  cases s.sweeper with
  | some id => exact .inr ⟨id, rfl, rfl⟩
  | none => exact .inl rfl

/-- A move that starts no sweeper and gives nobody a turn, or one of the other four kinds. -/
theorem move_cases (s : Service) (m : Move) : (∃ b, m = .start b) ∨ m = .stop ∨
    (∃ id, m = .abort id) ∨ (∃ id, m = .turn id) ∨ (s.Continues (s.move m) ∧
      ∃ new, Passed s.scheduler (s.move m).scheduler new ∧ ∀ w, new ≠ some (.sweeping w)) := by
  have hother (hm : ∀ id, m ≠ .turn id) (hc : s.Continues (s.move m))
      (hnew : ∀ w, s.started? m ≠ some (.sweeping w)) : s.Continues (s.move m) ∧
        ∃ new, Passed s.scheduler (s.move m).scheduler new ∧ ∀ w, new ≠ some (.sweeping w) :=
    ⟨hc, _, passed_of_not_turn s hm, hnew⟩
  cases m with
  | start b => exact .inl ⟨b, rfl⟩
  | stop => exact .inr (.inl rfl)
  | abort id => exact .inr (.inr (.inl ⟨id, rfl⟩))
  | turn id => exact .inr (.inr (.inr (.inl ⟨id, rfl⟩)))
  | _ =>
    refine .inr (.inr (.inr (.inr (hother (by simp) ?_ (by simp [started?])))))
    first
      | exact continues_spawn s _
      | exact continues_change s _
      | exact continues_ring s
      | exact ⟨rfl, rfl, Nat.le_add_right _ _, .inl rfl, fun _ ha => .inl ha⟩

namespace OneSweeper

variable {s : Service}

theorem opened (settings : ExchangeSettings) (gateway : Option Gateway) (draws : Draws) :
    (opened settings gateway draws).OneSweeper where
  numbered := numbered_run settings gateway draws []
  rung_le := Nat.le_refl _
  aborted_lt := fun j hj => by simp [Service.opened, Scheduler.start] at hj
  eq_sweeper := fun j w hmem => by simp [Service.opened, Scheduler.start] at hmem

theorem outside {v : Service} (h : s.OneSweeper) {new : Option ServiceTask}
    (hp : Passed s.scheduler v.scheduler new) (hc : s.Continues v)
    (hnew : ∀ w, new ≠ some (.sweeping w)) : v.OneSweeper where
  numbered := h.numbered.passed hp
  rung_le := hc.rung_le h.rung_le
  aborted_lt j hj := by
    rw [hc.aborted] at hj
    exact Nat.lt_of_lt_of_le (h.aborted_lt j hj) hp.le_nextTask
  eq_sweeper j w hmem hj := by
    rw [hc.aborted] at hj
    rw [hp.tasks] at hmem
    rcases List.mem_append.mp hmem with hmem | hmem
    · rw [hc.sweeper]
      exact h.eq_sweeper j w hmem hj
    · obtain ⟨t, ht, heq⟩ := List.mem_map.mp hmem
      obtain ⟨-, rfl⟩ := Prod.mk.inj heq
      exact absurd (Option.mem_toList.mp ht) (hnew w)

/-- Whoever is dropped sweeps no more. -/
theorem abort (h : s.OneSweeper) (id : TaskId) {sweeper : Option TaskId}
    (hsweeper : sweeper = s.sweeper ∨ s.sweeper = some id) :
    OneSweeper ⟨s.scheduler.abort id, sweeper⟩ := by
  have hp := passed_abort s.scheduler id
  have htasks : (s.scheduler.abort id).tasks = s.scheduler.tasks :=
    hp.tasks.trans (List.append_nil _)
  constructor
  case numbered => exact h.numbered.passed hp
  case rung_le =>
    rcases Scheduler.abort_cases s.scheduler id with heq | heq
    all_goals
      simp only [heq]
      exact h.rung_le
  case aborted_lt =>
    intro j hj
    refine Nat.lt_of_lt_of_le ?_ hp.le_nextTask
    rcases Scheduler.mem_aborted_abort.mp hj with hj | ⟨rfl, t, ht⟩
    · exact h.aborted_lt j hj
    · exact h.numbered.task_lt _ (Scheduler.mem_of_lookup ht)
  case eq_sweeper =>
    intro j w hmem hj
    rw [Scheduler.mem_aborted_abort, not_or] at hj
    have hthere : (j, .sweeping w) ∈ s.scheduler.tasks := htasks ▸ hmem
    have hold := h.eq_sweeper j w hthere hj.1
    rcases hsweeper with rfl | hid
    · exact hold
    · obtain rfl := Option.some.inj (hold.symm.trans hid)
      exact absurd ⟨rfl, _, h.numbered.task?_eq_some_iff.mpr hthere⟩ hj.2

/-- A sweeper is started where there is none. -/
theorem start (h : s.OneSweeper) (hnone : s.sweeper = none) (w : Sweeper) :
    OneSweeper ⟨s.scheduler.spawn (.sweeping w), some s.scheduler.nextTask⟩ where
  numbered := h.numbered.passed (passed_spawn s.scheduler _)
  rung_le := h.rung_le
  aborted_lt j hj := Nat.lt_succ_of_lt (h.aborted_lt j hj)
  eq_sweeper j w' hmem hj := by
    rcases List.mem_append.mp hmem with hmem | hmem
    · have := h.eq_sweeper j w' hmem hj
      simp [hnone] at this
    · exact congrArg some (Prod.mk.inj (List.mem_singleton.mp hmem)).1.symm

/-- Whoever is dropped is gone after its turn. -/
theorem aborted_of_turned {s v : Scheduling} {id : TaskId} (h : Turned s id v) :
    v.clock = s.clock ∧ s.nextTask ≤ v.nextTask ∧ (∀ j ∈ v.aborted, j ∈ s.aborted) ∧
      (id ∈ s.aborted → ∀ t, (id, t) ∉ v.tasks) := by
  cases h with
  | nobody htask =>
    refine ⟨rfl, Nat.le_refl _, fun j hj => hj, fun _ t hmem => ?_⟩
    simpa using List.lookup_eq_none_iff.mp htask _ hmem
  | dropped task _ _ =>
    exact ⟨rfl, Nat.le_refl _, fun j hj => List.mem_of_mem_filter hj,
      fun _ t hmem => by simp at hmem⟩
  | attended task _ ha hv =>
    refine ⟨hv.clock, ?_, hv.aborted, fun h => absurd h ha⟩
    rw [hv.nextTask]
    exact Nat.le_add_right _ _

theorem turn (h : s.OneSweeper) (id : TaskId) : (s.move (.turn id)).OneSweeper := by
  have hv := h.numbered.turned id
  obtain ⟨hclock, hnext, hsub, hgone⟩ := aborted_of_turned hv
  constructor
  case numbered => exact h.numbered.turn hv
  case rung_le =>
    change (s.scheduler.attend ServiceTask.behaviour id).clock.rung ≤
      (s.scheduler.attend ServiceTask.behaviour id).clock.now
    rw [hclock]
    exact h.rung_le
  case aborted_lt => exact fun j hj => Nat.lt_of_lt_of_le (h.aborted_lt j (hsub j hj)) hnext
  case eq_sweeper =>
    intro j w hmem hj
    obtain ⟨w', hold⟩ := sweeping_of_turned hv hmem
    refine h.eq_sweeper j w' hold fun ha => ?_
    by_cases hid : j = id
    · subst hid
      exact hgone ha _ hmem
    · have hleaves := Scheduler.leaves_attend ServiceTask.behaviour s.scheduler hid
      exact hj (hleaves.aborted.mpr ha)

theorem move (h : s.OneSweeper) (m : Move) : (s.move m).OneSweeper := by
  rcases move_cases s m with ⟨b, rfl⟩ | rfl | ⟨id, rfl⟩ | ⟨id, rfl⟩ | ⟨hc, new, hp, hnew⟩
  · rcases start_cases s b with heq | ⟨hnone, heq⟩
    · rwa [heq]
    · rw [heq]
      exact h.start hnone _
  · rcases stop_cases s with heq | ⟨id, hid, heq⟩
    · rw [Service.move, heq]
      exact h
    · rw [Service.move, heq]
      exact h.abort id (.inr hid)
  · exact h.abort id (.inl rfl)
  · exact h.turn id
  · exact h.outside hp hc hnew

end OneSweeper

/-! ## The sweeper at work -/

/-- A sweeper is called, or its alarm is set for the next tick or for an instant that has come. -/
structure Sweeps (period : Nat) (s : Scheduling) (id : TaskId) (w : Sweeper) : Prop where
  task : (id, .sweeping w) ∈ s.tasks
  kept : id ∉ s.aborted
  period_eq : w.period = period
  rung_le : s.clock.rung ≤ s.now
  awake : id ∈ s.queue ∨
    ∃ time, (id, time) ∈ s.alarms ∧ (time ≤ s.now ∨ w.next = some ⟨time, true⟩)
  inStep : w.InStep s.now

namespace Sweeps

variable {period : Nat} {s v : Scheduling} {id : TaskId} {w : Sweeper}

/-- In a settled service the next tick lies ahead. -/
theorem due_of_settled (h : Sweeps period s id w) (hs : s.IsSettled ServiceTask.behaviour) :
    ∃ due, w.next = some ⟨due, true⟩ ∧ s.now < due ∧ due ≤ s.now + period := by
  obtain ⟨hqueue, -, hahead⟩ := (Scheduler.isSettled_iff _ _).mp hs
  obtain hcalled | ⟨time, halarm, hdue⟩ := h.awake
  · simp [hqueue] at hcalled
  · have hlt : s.now < time := hahead _ halarm
    have hnext := hdue.resolve_left (Nat.not_le.mpr hlt)
    exact ⟨time, hnext, hlt, h.period_eq ▸ h.inStep _ hnext⟩

/-- While others have their turns the sweeper stays called, or its alarm set. -/
theorem stays (h : Sweeps period s id w) (htask : (id, .sweeping w) ∈ v.tasks)
    (hkept : id ∉ v.aborted) (hnow : s.now ≤ v.now) (hrung : v.clock.rung ≤ v.now)
    (hqueue : id ∈ s.queue → id ∈ v.queue)
    (halarms : ∀ time, (id, time) ∈ s.alarms → (id, time) ∈ v.alarms ∨ id ∈ v.queue) :
    Sweeps period v id w where
  task := htask
  kept := hkept
  period_eq := h.period_eq
  rung_le := hrung
  awake := by
    obtain hcalled | ⟨time, halarm, hdue⟩ := h.awake
    · exact .inl (hqueue hcalled)
    · rcases halarms time halarm with halarm | hcalled
      · exact .inr ⟨time, halarm, hdue.imp_left fun hle => Nat.le_trans hle hnow⟩
      · exact .inl hcalled
  inStep := h.inStep.mono hnow

/-- A new sweeper is called. -/
theorem start {s : Service} (h : s.OneSweeper) {n : Nat} (hn : n = period) :
    Sweeps period (s.scheduler.spawn (.sweeping ⟨n, none⟩)) s.scheduler.nextTask ⟨n, none⟩ where
  task := List.mem_append_right _ List.mem_cons_self
  kept hmem := Nat.lt_irrefl _ (h.aborted_lt _ hmem)
  period_eq := hn
  rung_le := h.rung_le
  awake := .inl (List.mem_append_right _ List.mem_cons_self)
  inStep tick htick := by simp at htick

theorem outside {s v : Service} (h : Sweeps period s.scheduler id w) {new : Option ServiceTask}
    (hp : Passed s.scheduler v.scheduler new) (hc : s.Continues v) :
    Sweeps period v.scheduler id w := by
  refine h.stays ?_ ?_ hc.now_le (hc.rung_le h.rung_le) (fun hq => hp.queue id (.inl hq))
    fun time halarm => (hc.alarms (id, time) halarm).imp_right And.left
  · rw [hp.tasks]
    exact List.mem_append_left _ h.task
  · rw [hc.aborted]
    exact h.kept

theorem abort (h : Sweeps period s id w) {j : TaskId} (hj : j ≠ id) :
    Sweeps period (s.abort j) id w := by
  have hp := passed_abort s j
  have hsame : (s.abort j).clock = s.clock ∧ (s.abort j).alarms = s.alarms := by
    rcases Scheduler.abort_cases s j with heq | heq
    all_goals
      rw [heq]
      exact ⟨rfl, rfl⟩
  have hnow : (s.abort j).now = s.now := congrArg Clock.now hsame.1
  refine h.stays ?_ ?_ (Nat.le_of_eq hnow.symm) ?_ (fun hq => hp.queue id (.inl hq)) ?_
  · rw [hp.tasks]
    exact List.mem_append_left _ h.task
  · rw [Scheduler.mem_aborted_abort, not_or]
    exact ⟨h.kept, fun heq => hj heq.1.symm⟩
  · rw [hnow, hsame.1]
    exact h.rung_le
  · rw [hsame.2]
    exact fun time halarm => .inl halarm

theorem turn_other (h : Sweeps period s id w) (hn : Numbered s) {j : TaskId} (hj : id ≠ j) :
    Sweeps period (s.attend ServiceTask.behaviour j) id w := by
  have hleaves := Scheduler.leaves_attend ServiceTask.behaviour s hj
  have hnow : (s.attend ServiceTask.behaviour j).now = s.now := congrArg Clock.now hleaves.clock
  refine h.stays ((hn.turned j).spares hj |>.task _ h.task) ?_ (Nat.le_of_eq hnow.symm) ?_
    hleaves.queue fun time halarm => .inl (hleaves.alarms time halarm)
  · rw [hleaves.aborted]
    exact h.kept
  · rw [hnow, hleaves.clock]
    exact h.rung_le

/-- The turn of the sweeper. -/
theorem attend_eq (h : Sweeps period s id w) (hn : Numbered s) (hp : period ≠ 0) :
    ∃ state, state.table = (s.shared.table.sweepTimes s.now (w.tick s.clock).1).1 ∧
      s.attend ServiceTask.behaviour id = { s with
        tasks := s.tasks.map fun e =>
          if e.1 = id then (id, .sweeping (w.tick s.clock).2) else e
        queue := s.queue.erase id
        alarms := s.alarms.filter (fun a => a.1 ≠ id) ++
          [(id, (w.tick s.clock).2.alarm s.now)]
        shared := state } := by
  have htask := hn.task?_eq_some_iff.mpr h.task
  obtain ⟨state, htable, hturn⟩ : ∃ state : ServiceState,
      state.table = (s.shared.table.sweepTimes s.now (w.tick s.clock).1).1 ∧
      ServiceTask.behaviour.turn s.clock id (.sweeping w) s.shared =
        ⟨state, [], [], .sleeping (.sweeping (w.tick s.clock).2)
          (some ((w.tick s.clock).2.alarm s.now))⟩ := by
    rw [← h.period_eq] at hp
    simp only [ServiceTask.behaviour, ServiceState.afterTick, if_neg hp]
    exact ⟨_, rfl, rfl⟩
  refine ⟨state, htable, ?_⟩
  rw [Scheduler.attend_sleeping htask h.kept hturn]
  rfl

theorem turn_own (h : Sweeps period s id w) (hn : Numbered s) (hp : period ≠ 0) :
    Sweeps period (s.attend ServiceTask.behaviour id) id (w.tick s.clock).2 := by
  obtain ⟨state, -, heq⟩ := h.attend_eq hn hp
  have hticks := w.ticks h.rung_le
  have hstep := hticks.inStep h.inStep
  rw [heq]
  constructor
  case task => exact List.mem_map.mpr ⟨_, h.task, if_pos rfl⟩
  case kept => exact h.kept
  case period_eq => exact hticks.period_eq.trans h.period_eq
  case rung_le => exact h.rung_le
  case awake =>
    refine .inr ⟨_, List.mem_append_right _ List.mem_cons_self, ?_⟩
    obtain ⟨⟨due, sweeps⟩, hnext⟩ := hticks.exists_next
    rw [Sweeper.alarm, Sweeper.nextAt, hnext]
    cases sweeps with
    | false => exact .inl (hstep _ hnext)
    | true => exact .inr rfl
  case inStep => exact hstep

end Sweeps

section Runs

variable {settings : ExchangeSettings} {gateway : Option Gateway} {draws : Draws}
  {moves : List Move} {id : TaskId}

theorem oneSweeper_run (settings : ExchangeSettings) (gateway : Option Gateway) (draws : Draws)
    (moves : List Move) : ((opened settings gateway draws).run moves).OneSweeper := by
  induction moves using List.reverseRecOn with
  | nil => exact .opened settings gateway draws
  | append_singleton moves m ih =>
    rw [run_concat]
    exact ih.move m

/-- A sweeper that is neither stopped nor dropped goes on, and a new one is at work at once. -/
theorem sweeps_move {s : Service} (hone : s.OneSweeper) {period : Nat}
    (hperiod : s.state.settings.sweep.periodMs.toNat = period) (hp : period ≠ 0) {m : Move}
    (hm : m ≠ .abort id) (h : s.sweeper = some id → ∃ w, Sweeps period s.scheduler id w)
    (hs : (s.move m).sweeper = some id) : ∃ w, Sweeps period (s.move m).scheduler id w := by
  rcases move_cases s m with ⟨b, rfl⟩ | rfl | ⟨j, rfl⟩ | ⟨j, rfl⟩ | ⟨hc, new, hpassed, -⟩
  · rcases start_cases s b with heq | ⟨-, heq⟩
    · rw [heq] at hs ⊢
      exact h hs
    · rw [heq] at hs ⊢
      obtain rfl := Option.some.inj hs
      exact ⟨_, .start hone hperiod⟩
  · rcases stop_cases s with heq | ⟨j, -, heq⟩
    · rw [move, heq] at hs ⊢
      exact h hs
    · rw [move, heq] at hs
      simp at hs
  · obtain ⟨w, hw⟩ := h hs
    exact ⟨w, hw.abort fun heq => hm (heq ▸ rfl)⟩
  · obtain ⟨w, hw⟩ := h hs
    by_cases hj : id = j
    · subst hj
      exact ⟨_, hw.turn_own hone.numbered hp⟩
    · exact ⟨w, hw.turn_other hone.numbered hj⟩
  · obtain ⟨w, hw⟩ := h (hc.sweeper.symm.trans hs)
    exact ⟨w, hw.outside hpassed hc⟩

/-- While a service is running, its sweeper is at work. -/
theorem sweeps_run (hp : settings.sweep.periodMs.toNat ≠ 0) (hkept : .abort id ∉ moves)
    (hs : ((opened settings gateway draws).run moves).sweeper = some id) :
    ∃ w, Sweeps settings.sweep.periodMs.toNat ((opened settings gateway draws).run moves).scheduler
      id w := by
  induction moves using List.reverseRecOn with
  | nil => simp [opened] at hs
  | append_singleton moves m ih =>
    rw [List.mem_append, List.mem_singleton, not_or] at hkept
    have hsettings := ((opened settings gateway draws).accounts_run moves).settings
    rw [run_concat] at hs ⊢
    refine sweeps_move (oneSweeper_run settings gateway draws moves) ?_ hp (Ne.symm hkept.2)
      (ih hkept.1) hs
    rw [hsettings]
    rfl

end Runs

end Service
end EbmsMessaging
