import EbmsMessaging.Proofs.Service.Inbox

/-!
# What others leave to a task

A task that has no turn keeps its alarm, or it has been called because the alarm has rung, and only
a move that names it has it dropped. Only the advance of time moves the clock, and nobody sweeps as
of an instant to come.
-/
namespace EbmsMessaging.Service

open Correlation

/-- The time that passes with a move. -/
def Move.elapsed : Move → Nat
  | .advance ms => ms
  | _ => 0

theorem now_move (s : Service) (m : Move) : (s.move m).now = s.now + m.elapsed := by
  have hchange (f : ServiceState → ServiceState × List TaskId) : (s.change f).now = s.now := by
    simp only [change, Scheduler.change, Scheduler.callAll_eq]
    rfl
  have habort (id : TaskId) : (s.scheduler.abort id).now = s.now := by
    rcases Scheduler.abort_cases s.scheduler id with heq | heq
    all_goals
      rw [heq]
      rfl
  cases m with
  | start b =>
    rcases start_cases s b with heq | ⟨-, heq⟩
    all_goals
      rw [heq]
      rfl
  | stop =>
    rcases stop_cases s with heq | ⟨id, -, heq⟩
    · rw [move, heq]
      rfl
    · rw [move, heq]
      exact habort id
  | abort id => exact habort id
  | turn id =>
    refine congrArg Clock.now (?_ : (s.scheduler.attend ServiceTask.behaviour id).clock = _)
    exact (Scheduler.leaves_attend ServiceTask.behaviour s.scheduler (Nat.succ_ne_self id)).clock
  | ring =>
    simp only [move, Scheduler.ring, Scheduler.callAll_eq]
    rfl
  | receive i => exact hchange _
  | deposit a => exact hchange _
  | sweep offset => exact hchange _
  | changeHandlers f => exact hchange _
  | changeGateway f => exact hchange _
  | redraw draws => exact hchange _
  | _ => rfl

/-- The alarm of a task is set, or it has rung and the task is called. -/
def HasAlarm (s : Scheduling) (id : TaskId) (time : Nat) : Prop :=
  (id, time) ∈ s.alarms ∨ (id ∈ s.queue ∧ time ≤ s.clock.rung)

section Moves

variable {s : Service} {m : Move} {id : TaskId}

theorem hasAlarm_move {time : Nat} (h : HasAlarm s.scheduler id time)
    (hrung : s.scheduler.clock.rung ≤ s.now) (hm : m ≠ .turn id) :
    HasAlarm (s.move m).scheduler id time := by
  have hsame {v : Scheduling} (halarms : v.alarms = s.scheduler.alarms)
      (hclock : v.clock = s.scheduler.clock) (hq : id ∈ s.scheduler.queue → id ∈ v.queue) :
      HasAlarm v id time := by
    rw [HasAlarm, halarms, hclock]
    exact h.imp_right fun hcalled => ⟨hq hcalled.1, hcalled.2⟩
  have habort (j : TaskId) : HasAlarm (s.scheduler.abort j) id time := by
    have hq := (passed_abort s.scheduler j).queue id
    rcases Scheduler.abort_cases s.scheduler j with heq | heq
    all_goals
      rw [heq] at hq ⊢
      exact hsame rfl rfl fun hmem => hq (.inl hmem)
  rcases move_cases s m with ⟨b, rfl⟩ | rfl | ⟨j, rfl⟩ | ⟨j, rfl⟩ | ⟨hc, new, hp, -⟩
  · rcases start_cases s b with heq | ⟨-, heq⟩
    · rw [heq]
      exact h
    · rw [heq]
      exact hsame rfl rfl fun hmem => List.mem_append_left _ hmem
  · rcases stop_cases s with heq | ⟨j, -, heq⟩
    · rw [move, heq]
      exact h
    · rw [move, heq]
      exact habort j
  · exact habort j
  · have hj : id ≠ j := fun heq => hm (heq ▸ rfl)
    have hleaves := Scheduler.leaves_attend ServiceTask.behaviour s.scheduler hj
    change HasAlarm (s.scheduler.attend ServiceTask.behaviour j) id time
    rw [HasAlarm, hleaves.clock]
    exact h.imp (hleaves.alarms time) fun hcalled => ⟨hleaves.queue hcalled.1, hcalled.2⟩
  · have hle : s.scheduler.clock.rung ≤ (s.move m).scheduler.clock.rung := by
      rcases hc.rung with heq | heq
      · exact Nat.le_of_eq heq.symm
      · rw [heq]
        exact Nat.le_trans hrung hc.now_le
    rcases h with halarm | ⟨hmem, htime⟩
    · exact hc.alarms (id, time) halarm
    · exact .inr ⟨hp.queue id (.inl hmem), Nat.le_trans htime hle⟩

theorem not_mem_aborted_move (h : id ∉ s.scheduler.aborted) (hm : m ≠ .turn id)
    (hkept : m ≠ .abort id) (hsweeper : s.sweeper ≠ some id) :
    id ∉ (s.move m).scheduler.aborted := by
  have habort (j : TaskId) (hj : id ≠ j) : id ∉ (s.scheduler.abort j).aborted := by
    rw [Scheduler.mem_aborted_abort, not_or]
    exact ⟨h, fun heq => hj heq.1⟩
  rcases move_cases s m with ⟨b, rfl⟩ | rfl | ⟨j, rfl⟩ | ⟨j, rfl⟩ | ⟨hc, -⟩
  · rcases start_cases s b with heq | ⟨-, heq⟩
    all_goals
      rw [heq]
      exact h
  · rcases stop_cases s with heq | ⟨j, hj, heq⟩
    · rw [move, heq]
      exact h
    · rw [move, heq]
      exact habort j fun heq => hsweeper (heq ▸ hj)
  · exact habort j fun heq => hkept (heq ▸ rfl)
  · have hj : id ≠ j := fun heq => hm (heq ▸ rfl)
    have hleaves := Scheduler.leaves_attend ServiceTask.behaviour s.scheduler hj
    change id ∉ (s.scheduler.attend ServiceTask.behaviour j).aborted
    rwa [hleaves.aborted]
  · rwa [hc.aborted]

/-- Nobody else gives a task a result or takes it away. -/
theorem mem_results_move (hn : Numbered s.scheduler) (hm : m ≠ .turn id) {r : ServiceResult} :
    (id, r) ∈ (s.move m).scheduler.results ↔ (id, r) ∈ s.scheduler.results := by
  by_cases hturn : ∃ j, m = .turn j
  · obtain ⟨j, rfl⟩ := hturn
    have hturned : Turned s.scheduler j (s.move (.turn j)).scheduler := hn.turned j
    generalize (s.move (.turn j)).scheduler = v at hturned
    cases hturned with
    | nobody _ => exact Iff.rfl
    | dropped _ _ _ => exact Iff.rfl
    | attended _ _ _ hv =>
      rw [Numbered.mem_results_attended hv]
      exact or_iff_left fun hown => hm (congrArg Move.turn hown.1.symm)
  · rw [(passed_of_not_turn s (not_exists.mp hturn)).results]

end Moves

/-! ## Who the sweeper is -/

theorem sweeping_of_tick {s : ServiceState} {clock : Clock} {id : TaskId} {w : Sweeper}
    {task : ServiceTask}
    (h : (ServiceTask.behaviour.turn clock id (.sweeping w) s).next.task? = some task) :
    ∃ w', task = .sweeping w' := by
  simp only [ServiceTask.behaviour, ServiceState.afterTick] at h
  split at h
  · simp [Next.task?] at h
  · exact ⟨_, (Option.some.inj h).symm⟩

section Moves

variable {s : Service} {m : Move} {id : TaskId}

/-- A task that sweeps goes on sweeping, whatever happens. -/
theorem sweeping_move (hn : Numbered s.scheduler) (hlt : id < s.scheduler.nextTask)
    (htasks : ∀ task, (id, task) ∈ s.scheduler.tasks → ∃ w, task = .sweeping w) (m : Move) :
    ∀ task, (id, task) ∈ (s.move m).scheduler.tasks → ∃ w, task = .sweeping w := by
  intro task hmem
  by_cases hturn : ∃ j, m = .turn j
  · obtain ⟨j, rfl⟩ := hturn
    have hturned : Turned s.scheduler j (s.move (.turn j)).scheduler := hn.turned j
    generalize (s.move (.turn j)).scheduler = v at hturned hmem
    cases hturned with
    | nobody _ => exact htasks task hmem
    | dropped _ _ _ => exact htasks task (List.mem_of_mem_filter hmem)
    | attended _ htask _ hv =>
      rcases (Numbered.mem_tasks_attended hv).mp hmem with hnew | ⟨rfl, hnext⟩ | ⟨hold, -⟩
      · exact absurd (Scheduler.mem_numberedFrom hnew).1 (Nat.not_le.mpr hlt)
      · obtain ⟨w, rfl⟩ := htasks _ (Scheduler.mem_of_lookup htask)
        exact sweeping_of_tick hnext
      · exact htasks task hold
  · have hp := passed_of_not_turn s fun j heq => hturn ⟨j, heq⟩
    rw [hp.tasks] at hmem
    rcases List.mem_append.mp hmem with hold | hnew
    · exact htasks task hold
    · obtain ⟨t, -, heq⟩ := List.mem_map.mp hnew
      exact absurd (congrArg Prod.fst heq).symm (Nat.ne_of_lt hlt)

/-- Only a start gives a service another sweeper, which is a new task. -/
theorem sweeping_of_started (hn : Numbered s.scheduler) (hnot : s.sweeper ≠ some id)
    (hs : (s.move m).sweeper = some id) : id < (s.move m).scheduler.nextTask ∧
      ∀ task, (id, task) ∈ (s.move m).scheduler.tasks → ∃ w, task = .sweeping w := by
  rcases move_cases s m with ⟨b, rfl⟩ | rfl | ⟨j, rfl⟩ | ⟨j, rfl⟩ | ⟨hc, -⟩
  · rcases start_cases s b with heq | ⟨-, heq⟩
    · exact absurd (heq ▸ hs) hnot
    · rw [heq] at hs ⊢
      obtain rfl := Option.some.inj hs
      refine ⟨Nat.lt_succ_self _, fun task hmem => ?_⟩
      rcases List.mem_append.mp hmem with hold | hnew
      · exact absurd (hn.task_lt _ hold) (Nat.lt_irrefl _)
      · exact ⟨_, (Prod.mk.inj (List.mem_singleton.mp hnew)).2⟩
  · rcases stop_cases s with heq | ⟨j, -, heq⟩
    · rw [move, heq] at hs
      exact absurd hs hnot
    · rw [move, heq] at hs
      simp at hs
  · exact absurd hs hnot
  · exact absurd hs hnot
  · exact absurd (hc.sweeper.symm.trans hs) hnot

end Moves

/-- The sweeper of a service sweeps as long as it is there. -/
theorem sweeping_of_sweeper (settings : ExchangeSettings) (gateway : Option Gateway)
    (draws : Draws) (moves : List Move) {id : TaskId}
    (hs : ((opened settings gateway draws).run moves).sweeper = some id) :
    id < ((opened settings gateway draws).run moves).scheduler.nextTask ∧
      ∀ task, (id, task) ∈ ((opened settings gateway draws).run moves).scheduler.tasks →
        ∃ w, task = .sweeping w := by
  induction moves using List.reverseRecOn with
  | nil => simp [opened] at hs
  | append_singleton moves m ih =>
    have hn := numbered_run settings gateway draws moves
    rw [run_concat] at hs ⊢
    generalize (opened settings gateway draws).run moves = s at hs ih hn ⊢
    by_cases hlt : id < s.scheduler.nextTask
    · obtain ⟨-, htasks⟩ := ih (sweeper_of_move hlt hs)
      exact ⟨Nat.lt_of_lt_of_le hlt (le_nextTask_move hn m), sweeping_move hn hlt htasks m⟩
    · exact sweeping_of_started hn (fun heq => hlt (ih heq).1) hs

/-! ## Nobody sweeps as of an instant to come -/

theorem not_swept_of_arrivalDeeds (i : Except ArrivalError Arrival) (asOf : Int) :
    .swept asOf ∉ ServiceState.arrivalDeeds i := by
  rcases i with cause | m | a <;> simp [ServiceState.arrivalDeeds]

theorem not_swept_of_answerDeeds (s : ServiceState) (a : GatewayAnswer) (asOf : Int) :
    .swept asOf ∉ s.answerDeeds a := by
  unfold ServiceState.answerDeeds
  split
  · exact List.not_mem_nil
  · exact not_swept_of_arrivalDeeds _ asOf

theorem not_swept_of_handOverDeeds (s : ServiceState) (now : Nat) (t : Transmission)
    (reply : ArrangedReply) (asOf : Int) : .swept asOf ∉ s.handOverDeeds now t reply := by
  obtain ⟨as, heq⟩ := s.handOverDeeds_eq now t reply
  simp [heq]

/-- A task that sweeps at its turn sweeps as of this instant. -/
theorem eq_now_of_swept (s : ServiceState) (clock : Clock) (id : TaskId) (task : ServiceTask)
    {asOf : Int} (h : .swept asOf ∈ s.deeds clock id task) : asOf = clock.now := by
  have hown {ds : List Deed} (hds : ∀ d ∈ ds, d.task? = some id) : .swept asOf ∉ ds := fun hmem =>
    Option.some_ne_none _ (hds _ hmem).symm
  cases task with
  | sending r =>
    rw [ServiceState.deeds] at h
    rcases s.sendingDeeds_cases clock.now id r with heq | ⟨v, t, x, -, heq⟩
    · exact absurd (heq ▸ h) List.not_mem_nil
    · rw [heq] at h
      rcases List.mem_append.mp h with h | h
      · exact absurd h (not_swept_of_handOverDeeds v _ t _ asOf)
      · exact absurd h (hown (ServiceState.task?_of_mem_reportDeeds clock.now id x _))
  | awaiting x w => exact absurd h (hown (s.task?_of_mem_resumeDeeds clock id x w))
  | transmitting r =>
    rw [ServiceState.deeds] at h
    rcases s.transmittingDeeds_cases clock.now id r with heq | ⟨v, t, -, heq⟩
    · exact absurd (heq ▸ h) List.not_mem_nil
    · exact absurd (heq ▸ h) (not_swept_of_handOverDeeds v _ t _ asOf)
  | fetching key limit => simp [ServiceState.deeds, ServiceState.fetchDeed] at h
  | waiting w => simp [ServiceState.deeds] at h
  | sweeping w =>
    simp only [ServiceState.deeds, ServiceState.tickDeeds] at h
    split at h
    · exact absurd h List.not_mem_nil
    · exact Deed.swept.inj (List.eq_of_mem_replicate h)
  | answering a =>
    obtain ⟨v, b, h⟩ := s.mem_answeringDeeds clock h
    exact absurd h (not_swept_of_answerDeeds v b asOf)

theorem asOf_le_of_swept (s : Service) {m : Move} (hm : ∀ offset, m = .sweep offset → offset ≤ 0)
    {asOf : Int} (h : .swept asOf ∈ s.deeds m) : asOf ≤ s.now := by
  cases m with
  | receive i => exact absurd h (not_swept_of_arrivalDeeds i asOf)
  | deposit a => simp [deeds] at h
  | sweep offset =>
    have heq : asOf = s.now + offset := by simpa [deeds] using h
    have hle := hm offset rfl
    omega
  | turn id =>
    cases htask : s.scheduler.task? id with
    | none =>
      rw [deeds_nobody htask] at h
      exact absurd h List.not_mem_nil
    | some task =>
      by_cases ha : id ∈ s.scheduler.aborted
      · rw [deeds_dropped htask ha] at h
        have hown := ServiceState.task?_of_mem_dropDeeds id task _ h
        simp [Deed.task?] at hown
      · rw [deeds_attended htask ha] at h
        exact Int.le_of_eq (eq_now_of_swept _ _ _ _ h)
  | _ => simp [deeds] at h

end EbmsMessaging.Service
