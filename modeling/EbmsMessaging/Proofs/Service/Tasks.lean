import EbmsMessaging.Proofs.Scheduler.Turns
import EbmsMessaging.Proofs.Service.Moves
import Mathlib.Data.List.Induction

/-!
# The tasks of a service in a run

Tasks are numbered in the order in which they start. Only its own turn changes a task or ends it,
and a task that has ended is gone for good.
-/
namespace EbmsMessaging

open Correlation

namespace Service

abbrev Scheduling := Scheduler ServiceState ServiceTask ServiceResult

/-- The task that a move starts. -/
def started? (s : Service) : Move → Option ServiceTask
  | .send r => some (.sending r)
  | .transmit r => some (.transmitting r)
  | .fetch key limit => some (.fetching key limit)
  | .start hasScheduler =>
    if s.isRunning = false ∧ hasScheduler = true then
      some (.sweeping ⟨s.state.settings.sweep.periodMs.toNat, none⟩)
    else none
  | _ => none

/-- What a move that is not a turn does to the tasks. -/
structure Passed (s v : Scheduling) (new : Option ServiceTask) : Prop where
  nextTask : v.nextTask = s.nextTask + new.toList.length
  tasks : v.tasks = s.tasks ++ new.toList.map fun t => (s.nextTask, t)
  results : v.results = s.results
  queue : ∀ j, j ∈ s.queue ∨ (new.isSome ∧ j = s.nextTask) → j ∈ v.queue

theorem passed_spawn (s : Scheduling) (t : ServiceTask) : Passed s (s.spawn t) (some t) where
  nextTask := rfl
  tasks := rfl
  results := rfl
  queue j hj := by
    rcases hj with hj | ⟨-, rfl⟩
    · exact List.mem_append_left _ hj
    · exact List.mem_append_right _ List.mem_cons_self

/-- No task is started, ended or changed; some may be called. -/
theorem passed_same {s v : Scheduling} (hnext : v.nextTask = s.nextTask)
    (htasks : v.tasks = s.tasks) (hresults : v.results = s.results)
    (hqueue : ∀ j ∈ s.queue, j ∈ v.queue) : Passed s v none where
  nextTask := hnext
  tasks := htasks.trans (List.append_nil _).symm
  results := hresults
  queue j hj := hqueue j (hj.resolve_right fun h => Bool.false_ne_true h.1)

theorem passed_change (s : Scheduling) (f : ServiceState → ServiceState × List TaskId) :
    Passed s (s.change f) none := by
  simp only [Scheduler.change, Scheduler.callAll_eq]
  exact passed_same rfl rfl rfl fun j hj => Scheduler.mem_enqueue.mpr (.inl hj)

theorem passed_abort (s : Scheduling) (id : TaskId) : Passed s (s.abort id) none := by
  rcases Scheduler.abort_cases s id with heq | heq
  all_goals rw [heq]
  · exact passed_same rfl rfl rfl fun _ hj => hj
  · exact passed_same rfl rfl rfl fun j hj => Scheduler.mem_enqueue.mpr (.inl hj)

theorem passed_of_not_turn (s : Service) {m : Move} (hm : ∀ id, m ≠ .turn id) :
    Passed s.scheduler (s.move m).scheduler (s.started? m) := by
  cases m with
  | send r => exact passed_spawn _ _
  | transmit r => exact passed_spawn _ _
  | fetch key limit => exact passed_spawn _ _
  | receive i =>
    exact passed_change _ fun _ => ((s.state.receive s.now i).1, (s.state.receive s.now i).2.2)
  | deposit a =>
    exact passed_change _ fun _ => ((s.state.deposit s.now a).1, (s.state.deposit s.now a).2.2)
  | sweep offset =>
    exact passed_change _ fun t => (t.withTable (s.state.table.sweep (s.now + offset)).1, [])
  | changeHandlers f =>
    exact passed_change _ fun t =>
      ({ t with intake := { t.intake with handlers := f t.intake.handlers } }, [])
  | changeGateway f =>
    exact passed_change _ fun t => ({ t with gateway := t.gateway.map f }, [])
  | redraw draws => exact passed_change _ fun t => ({ t with draws := draws }, [])
  | start hasScheduler =>
    rw [move, start, started?]
    cases s.isRunning with
    | true => exact passed_same rfl rfl rfl fun _ hj => hj
    | false =>
      cases hasScheduler with
      | true => exact passed_spawn _ _
      | false => exact passed_same rfl rfl rfl fun _ hj => hj
  | stop =>
    rw [move, stop]
    cases s.sweeper with
    | none => exact passed_same rfl rfl rfl fun _ hj => hj
    | some id => exact passed_abort _ id
  | advance ms => exact passed_same rfl rfl rfl fun _ hj => hj
  | abort id => exact passed_abort _ id
  | turn id => exact absurd rfl (hm id)
  | ring =>
    simp only [move, Scheduler.ring, Scheduler.callAll_eq]
    exact passed_same rfl rfl rfl fun j hj => Scheduler.mem_enqueue.mpr (.inl hj)

/-- What the turn of a task does. -/
inductive Turned (s : Scheduling) (id : TaskId) : Scheduling → Prop where
  | nobody (h : s.task? id = none) : Turned s id { s with queue := s.queue.erase id }
  | dropped (task : ServiceTask) (h : s.task? id = some task) (ha : id ∈ s.aborted) :
    Turned s id { s with
      tasks := s.tasks.filter fun e => e.1 ≠ id
      queue := s.queue.erase id
      alarms := s.alarms.filter fun a => a.1 ≠ id
      aborted := s.aborted.filter (· ≠ id)
      shared := s.shared.drop s.now id task }
  | attended (task : ServiceTask) (h : s.task? id = some task) (ha : id ∉ s.aborted)
      {v : Scheduling}
      (hv : Scheduler.Attended s id (ServiceTask.behaviour.turn s.clock id task s.shared) v) :
    Turned s id v

theorem Turned.mem_results {s v : Scheduling} {id : TaskId} (h : Turned s id v)
    {e : TaskId × ServiceResult} (he : e ∈ s.results) : e ∈ v.results := by
  cases h with
  | nobody _ => exact he
  | dropped _ _ _ => exact he
  | attended _ _ _ hv =>
    rw [hv.results]
    exact List.mem_append_left _ he

/-- The gateway's answers are all that other tasks start. -/
theorem started_of_turn (clock : Clock) (id : TaskId) (task : ServiceTask) (v : ServiceState) :
    ∀ t ∈ (ServiceTask.behaviour.turn clock id task v).started, ∃ a, t = .answering a := by
  have hanswers (answer : Option GatewayAnswer) :
      ∀ t ∈ answer.toList.map ServiceTask.answering, ∃ a, t = .answering a := by
    intro t ht
    obtain ⟨a, -, rfl⟩ := List.mem_map.mp ht
    exact ⟨a, rfl⟩
  cases task with
  | sending r =>
    simp only [ServiceTask.behaviour, ServiceState.beginExchange]
    split
    · exact List.forall_mem_nil _
    · split
      · exact List.forall_mem_nil _
      · exact hanswers _
  | awaiting x w => exact List.forall_mem_nil _
  | transmitting r =>
    simp only [ServiceTask.behaviour, ServiceState.transmitTo]
    split
    · exact List.forall_mem_nil _
    · exact hanswers _
  | fetching key limit =>
    simp only [ServiceTask.behaviour, ServiceState.afterAttempt]
    split <;> exact List.forall_mem_nil _
  | waiting w =>
    simp only [ServiceTask.behaviour, ServiceState.afterAttempt]
    split <;> exact List.forall_mem_nil _
  | sweeping w =>
    simp only [ServiceTask.behaviour, ServiceState.afterTick]
    split <;> exact List.forall_mem_nil _
  | answering a =>
    simp only [ServiceTask.behaviour, ServiceState.continueAnswer]
    split
    · exact List.forall_mem_nil _
    · split
      · exact List.forall_mem_nil _
      · split <;> exact List.forall_mem_nil _

/-- Every task has a number of its own, and a task that has ended is gone. -/
structure Numbered (s : Scheduling) : Prop where
  nodup : (s.tasks.map Prod.fst).Nodup
  task_lt : ∀ e ∈ s.tasks, e.1 < s.nextTask
  result_lt : ∀ e ∈ s.results, e.1 < s.nextTask
  ended : ∀ e ∈ s.results, e.1 ∉ s.tasks.map Prod.fst

namespace Numbered

variable {s v : Scheduling} {id : TaskId} {task : ServiceTask}

theorem task?_eq_some_iff (h : Numbered s) : s.task? id = some task ↔ (id, task) ∈ s.tasks :=
  ⟨Scheduler.mem_of_lookup, Scheduler.lookup_of_mem h.nodup⟩

theorem turned (h : Numbered s) (id : TaskId) :
    Turned s id (s.attend ServiceTask.behaviour id) := by
  cases htask : s.task? id with
  | none =>
    rw [Scheduler.attend_nobody htask]
    exact .nobody htask
  | some task =>
    by_cases ha : id ∈ s.aborted
    · rw [Scheduler.attend_of_mem_aborted htask ha]
      exact .dropped task htask ha
    · exact .attended task htask ha (Scheduler.attended h.nodup h.task_lt htask ha)

theorem passed (h : Numbered s) {new : Option ServiceTask} (hv : Passed s v new) :
    Numbered v := by
  cases new with
  | none =>
    have htasks : v.tasks = s.tasks := hv.tasks.trans (List.append_nil _)
    have hnext : v.nextTask = s.nextTask := hv.nextTask
    constructor
    all_goals simp only [htasks, hv.results, hnext]
    · exact h.nodup
    · exact h.task_lt
    · exact h.result_lt
    · exact h.ended
  | some t =>
    have htasks : v.tasks = s.tasks ++ [(s.nextTask, t)] := hv.tasks
    have hnext : v.nextTask = s.nextTask + 1 := hv.nextTask
    have hfresh : s.nextTask ∉ s.tasks.map Prod.fst := by
      intro hmem
      obtain ⟨e, he, heq⟩ := List.mem_map.mp hmem
      exact Nat.ne_of_lt (h.task_lt e he) heq
    constructor
    all_goals simp only [htasks, hv.results, hnext, List.map_append, List.map_cons, List.map_nil]
    · exact List.Nodup.append h.nodup (List.nodup_singleton _) (by simpa using hfresh)
    · intro e he
      rcases List.mem_append.mp he with he | he
      · exact Nat.lt_succ_of_lt (h.task_lt e he)
      · rw [List.mem_singleton.mp he]
        exact Nat.lt_succ_self _
    · exact fun e he => Nat.lt_succ_of_lt (h.result_lt e he)
    · intro e he hmem
      rcases List.mem_append.mp hmem with hmem | hmem
      · exact h.ended e he hmem
      · exact Nat.ne_of_lt (h.result_lt e he) (List.mem_singleton.mp hmem)

/-- The task that had its turn, the tasks that it started, and the others. -/
theorem mem_tasks_attended {turn : ServiceTurn} (hv : Scheduler.Attended s id turn v)
    {e : TaskId × ServiceTask} : e ∈ v.tasks ↔
      e ∈ Scheduler.numberedFrom s.nextTask turn.started ∨
      (e.1 = id ∧ turn.next.task? = some e.2) ∨ (e ∈ s.tasks ∧ e.1 ≠ id) := by
  rw [hv.tasks.mem_iff, List.mem_append, List.mem_append, List.mem_filter, List.mem_map]
  refine or_congr_right (or_congr ?_ (by simp))
  constructor
  · rintro ⟨t, ht, rfl⟩
    exact ⟨rfl, Option.mem_toList.mp ht⟩
  · rintro ⟨rfl, ht⟩
    exact ⟨e.2, Option.mem_toList.mpr ht, rfl⟩

theorem mem_results_attended {turn : ServiceTurn} (hv : Scheduler.Attended s id turn v)
    {e : TaskId × ServiceResult} : e ∈ v.results ↔
      e ∈ s.results ∨ (e.1 = id ∧ turn.next.result? = some e.2) := by
  rw [hv.results, List.mem_append, List.mem_map]
  refine or_congr_right ?_
  constructor
  · rintro ⟨r, hr, rfl⟩
    exact ⟨rfl, Option.mem_toList.mp hr⟩
  · rintro ⟨rfl, hr⟩
    exact ⟨e.2, Option.mem_toList.mpr hr, rfl⟩

/-- The numbers of the tasks after a turn are those of the new tasks, of the one that had its turn
unless it has ended, and of the others. -/
theorem nodup_attended (h : Numbered s) (hid : id < s.nextTask) {turn : ServiceTurn}
    (hv : Scheduler.Attended s id turn v) : (v.tasks.map Prod.fst).Nodup := by
  have hothers : (s.tasks.filter fun e => e.1 ≠ id).map Prod.fst =
      (s.tasks.map Prod.fst).filter (· ≠ id) := by
    rw [List.filter_map]
    rfl
  have hown : ((turn.next.task?.toList.map fun t => (id, t)).map Prod.fst).Sublist [id] := by
    cases turn.next.task? <;> simp
  have hrest : ([id] ++ (s.tasks.map Prod.fst).filter (· ≠ id)).Nodup := by
    rw [List.singleton_append, List.nodup_cons]
    exact ⟨by simp, h.nodup.filter _⟩
  rw [(hv.tasks.map Prod.fst).nodup_iff, List.map_append, List.map_append,
    Scheduler.map_fst_numberedFrom, hothers]
  refine List.Nodup.append List.nodup_range' (hrest.sublist (hown.append_right _)) ?_
  intro j hj hold
  have hle := (List.mem_range'_1.mp hj).1
  rcases List.mem_append.mp hold with hold | hold
  · rw [List.mem_singleton.mp (hown.subset hold)] at hle
    exact Nat.not_lt.mpr hle hid
  · obtain ⟨e, he, rfl⟩ := List.mem_map.mp (List.mem_of_mem_filter hold)
    exact Nat.not_lt.mpr hle (h.task_lt e he)

/-- A turn does not bring back a task that has ended, and one that it ends is gone. -/
theorem ended_attended (h : Numbered s) (hmem : (id, task) ∈ s.tasks) {turn : ServiceTurn}
    (hv : Scheduler.Attended s id turn v) : ∀ e ∈ v.results, e.1 ∉ v.tasks.map Prod.fst := by
  intro e he hgone
  obtain ⟨e', he', heq⟩ := List.mem_map.mp hgone
  rcases (mem_results_attended hv).mp he with he | ⟨hown, hresult⟩
  · rcases (mem_tasks_attended hv).mp he' with he' | ⟨hid', -⟩ | ⟨he', -⟩
    · exact Scheduler.ne_of_mem_numberedFrom (h.result_lt e he) he' heq
    · exact h.ended e he (List.mem_map.mpr ⟨_, hmem, hid'.symm.trans heq⟩)
    · exact h.ended e he (List.mem_map.mpr ⟨e', he', heq⟩)
  · rcases (mem_tasks_attended hv).mp he' with he' | ⟨-, hgoes⟩ | ⟨-, hne⟩
    · exact Scheduler.ne_of_mem_numberedFrom (h.task_lt _ hmem) he' (heq.trans hown)
    · cases hnext : turn.next with
      | ended r => simp [hnext, Next.task?] at hgoes
      | sleeping t alarm => simp [hnext, Next.result?] at hresult
      | resting t => simp [hnext, Next.result?] at hresult
    · exact hne (heq.trans hown)

theorem attended (h : Numbered s) (htask : s.task? id = some task) {turn : ServiceTurn}
    (hv : Scheduler.Attended s id turn v) : Numbered v := by
  have hmem := Scheduler.mem_of_lookup htask
  have hid : id < s.nextTask := h.task_lt _ hmem
  have hnext : s.nextTask ≤ v.nextTask := by
    rw [hv.nextTask]
    exact Nat.le_add_right _ _
  refine ⟨h.nodup_attended hid hv, fun e he => ?_, fun e he => ?_, h.ended_attended hmem hv⟩
  · rcases (mem_tasks_attended hv).mp he with he | ⟨heq, -⟩ | ⟨he, -⟩
    · rw [hv.nextTask]
      exact (Scheduler.mem_numberedFrom he).2.1
    · rw [heq]
      exact Nat.lt_of_lt_of_le hid hnext
    · exact Nat.lt_of_lt_of_le (h.task_lt e he) hnext
  · rcases (mem_results_attended hv).mp he with he | ⟨heq, -⟩
    · exact Nat.lt_of_lt_of_le (h.result_lt e he) hnext
    · rw [heq]
      exact Nat.lt_of_lt_of_le hid hnext

theorem turn (h : Numbered s) (hv : Turned s id v) : Numbered v := by
  cases hv with
  | nobody _ => exact ⟨h.nodup, h.task_lt, h.result_lt, h.ended⟩
  | dropped task _ _ =>
    exact ⟨h.nodup.sublist (List.filter_sublist.map _),
      fun e he => h.task_lt e (List.mem_of_mem_filter he), h.result_lt,
      fun e he hmem => h.ended e he ((List.filter_sublist.map _).subset hmem)⟩
  | attended task htask _ hv => exact h.attended htask hv

end Numbered

theorem numbered_move {s : Service} (h : Numbered s.scheduler) (m : Move) :
    Numbered (s.move m).scheduler := by
  by_cases hm : ∃ id, m = .turn id
  · obtain ⟨id, rfl⟩ := hm
    exact h.turn (h.turned id)
  · exact h.passed (passed_of_not_turn s fun id heq => hm ⟨id, heq⟩)

theorem numbered_run (settings : ExchangeSettings) (gateway : Option Gateway) (draws : Draws)
    (moves : List Move) : Numbered ((opened settings gateway draws).run moves).scheduler := by
  induction moves using List.reverseRecOn with
  | nil => constructor <;> simp [opened, Scheduler.start]
  | append_singleton moves m ih =>
    rw [run_concat]
    exact numbered_move ih m

/-- What happens to a task and its result while others have their turns. -/
structure Spares (id : TaskId) (s v : Scheduling) : Prop where
  task : ∀ task, (id, task) ∈ s.tasks → (id, task) ∈ v.tasks
  result : ∀ result, (id, result) ∈ s.results → (id, result) ∈ v.results
  /-- A task that is gone does not come back. -/
  gone : id < s.nextTask → id ∉ s.tasks.map Prod.fst → id ∉ v.tasks.map Prod.fst
  nextTask : s.nextTask ≤ v.nextTask

theorem Passed.le_nextTask {s v : Scheduling} {new : Option ServiceTask} (h : Passed s v new) :
    s.nextTask ≤ v.nextTask := by
  rw [h.nextTask]
  exact Nat.le_add_right _ _

theorem Passed.spares {s v : Scheduling} {new : Option ServiceTask} (h : Passed s v new)
    (id : TaskId) : Spares id s v where
  task t ht := by
    rw [h.tasks]
    exact List.mem_append_left _ ht
  result r hr := by
    rw [h.results]
    exact hr
  gone hlt hgone := by
    rw [h.tasks, List.map_append, List.mem_append, not_or]
    refine ⟨hgone, fun hnew => ?_⟩
    obtain ⟨e, he, rfl⟩ := List.mem_map.mp hnew
    obtain ⟨t, -, rfl⟩ := List.mem_map.mp he
    exact Nat.lt_irrefl _ hlt
  nextTask := h.le_nextTask

theorem Turned.spares {s v : Scheduling} {j : TaskId} (h : Turned s j v) {id : TaskId}
    (hj : id ≠ j) : Spares id s v := by
  cases h with
  | nobody _ => exact ⟨fun _ ht => ht, fun _ hr => hr, fun _ hgone => hgone, Nat.le_refl _⟩
  | dropped task _ _ =>
    refine ⟨fun _ ht => List.mem_filter.mpr ⟨ht, decide_eq_true hj⟩, fun _ hr => hr,
      fun _ hgone hmem => hgone ?_, Nat.le_refl _⟩
    exact (List.filter_sublist.map _).subset hmem
  | attended task _ _ hv =>
    constructor
    case task => exact fun t ht => (Numbered.mem_tasks_attended hv).mpr (.inr (.inr ⟨ht, hj⟩))
    case result => exact fun r hr => (Numbered.mem_results_attended hv).mpr (.inl hr)
    case nextTask =>
      rw [hv.nextTask]
      exact Nat.le_add_right _ _
    case gone =>
      intro hlt hgone hmem
      obtain ⟨e, he, rfl⟩ := List.mem_map.mp hmem
      rcases (Numbered.mem_tasks_attended hv).mp he with he | ⟨heq, -⟩ | ⟨he, -⟩
      · exact Nat.not_lt.mpr (Scheduler.mem_numberedFrom he).1 hlt
      · exact hj heq
      · exact hgone (List.mem_map_of_mem he)

/-- Only its own turn changes a task or ends it. -/
theorem spares_move {s : Service} (h : Numbered s.scheduler) {m : Move} {id : TaskId}
    (hm : m ≠ .turn id) : Spares id s.scheduler (s.move m).scheduler := by
  by_cases hturn : ∃ j, m = .turn j
  · obtain ⟨j, rfl⟩ := hturn
    exact Turned.spares (h.turned j) fun heq => hm (heq ▸ rfl)
  · exact (passed_of_not_turn s fun j heq => hturn ⟨j, heq⟩).spares id

end Service
end EbmsMessaging
