import EbmsMessaging.Proofs.Correlation.Hosting
import EbmsMessaging.Proofs.Correlation.Moves
import Mathlib.Data.List.Induction

/-!
# A waiting room in order

In every state of every run the table hosts exactly the tasks that wait, and each task is what it
was started as. One lemma for each kind of move, and the induction over the run, show it.
-/
namespace EbmsMessaging.Correlation

variable {α : Type}

/-- The tasks that wait, among all. -/
def crowdOf (tasks : List (TaskId × RoomTask)) : Crowd :=
  tasks.filterMap fun e => match e.2 with
    | .waiting wait => some (e.1, wait)
    | _ => none

theorem mem_crowdOf {tasks : List (TaskId × RoomTask)} {id : TaskId} {wait : Wait} :
    (id, wait) ∈ crowdOf tasks ↔ (id, .waiting wait) ∈ tasks := by
  simp only [crowdOf, List.mem_filterMap]
  constructor
  · rintro ⟨⟨i, task⟩, hmem, heq⟩
    cases task <;> simp_all
  · intro h
    exact ⟨_, h, rfl⟩

theorem crowdOf_perm {tasks tasks' : List (TaskId × RoomTask)} (h : tasks.Perm tasks') :
    (crowdOf tasks).Perm (crowdOf tasks') := h.filterMap _

theorem crowdOf_cons_of_ne {task : RoomTask} (h : ∀ wait, task ≠ .waiting wait) (id : TaskId)
    (tasks : List (TaskId × RoomTask)) : crowdOf ((id, task) :: tasks) = crowdOf tasks := by
  cases task with
  | waiting wait => exact absurd rfl (h wait)
  | fetching key limit => rfl
  | sweeping sweeper => rfl

theorem ne_of_mem_crowdOf_filter {tasks : List (TaskId × RoomTask)} {id : TaskId}
    {e : TaskId × Wait} (h : e ∈ crowdOf (tasks.filter fun e => e.1 ≠ id)) : e.1 ≠ id := by
  have := (List.mem_filter.mp (mem_crowdOf.mp h)).2
  simpa using this

/-- When an attempt to fetch a value is given up that began at an instant. -/
def deadlineOf (startedAt limit : Nat) : Option Nat :=
  if limit = 0 then none else some (startedAt + limit)

/-- A task is what it was started as, or what became of that. -/
def StemsFrom (order : RoomTask) : RoomTask → Prop
  | .fetching key limit => order = .fetching key limit
  | .waiting wait => ∃ limit, order = .fetching wait.key limit ∧
      wait.deadline = deadlineOf wait.startedAt limit
  | .sweeping _ => ∃ sweeper, order = .sweeping sweeper

namespace WaitingRoom

def crowd (w : WaitingRoom α) : Crowd := crowdOf w.tasks

structure Orderly (orders : List RoomTask) (w : WaitingRoom α) : Prop where
  nextTask_eq : w.nextTask = orders.length
  tasks_nodup : (w.tasks.map Prod.fst).Nodup
  hosts : w.shared.table.Hosts w.crowd w.queue
  /-- A task that has not begun is called. -/
  unbegun : ∀ id key limit, (id, .fetching key limit) ∈ w.tasks → id ∈ w.queue
  stems : ∀ e ∈ w.tasks, ∃ order, orders[e.1]? = some order ∧ StemsFrom order e.2

namespace Orderly

variable {orders : List RoomTask} {w : WaitingRoom α} {id : TaskId} {task : RoomTask}

theorem task?_eq_some_iff (h : w.Orderly orders) :
    w.task? id = some task ↔ (id, task) ∈ w.tasks :=
  ⟨Scheduler.mem_of_lookup, Scheduler.lookup_of_mem h.tasks_nodup⟩

theorem task_lt (h : w.Orderly orders) {e : TaskId × RoomTask} (he : e ∈ w.tasks) :
    e.1 < w.nextTask := by
  obtain ⟨order, horder, -⟩ := h.stems e he
  rw [h.nextTask_eq]
  exact (List.getElem?_eq_some_iff.mp horder).1

theorem start (p : Retention) : (start p : WaitingRoom α).Orderly [] where
  nextTask_eq := rfl
  tasks_nodup := List.nodup_nil
  hosts := Table.hosts_empty p
  unbegun := by simp [WaitingRoom.start, Scheduler.start]
  stems := by simp [WaitingRoom.start, Scheduler.start]

/-- A task is started. -/
theorem spawn (h : w.Orderly orders) (hw : ∀ wait, task ≠ .waiting wait)
    (hstem : StemsFrom task task) : Orderly (orders ++ [task]) (w.spawn task) where
  nextTask_eq := by simp [Scheduler.spawn, h.nextTask_eq]
  tasks_nodup := by
    have hfresh : w.nextTask ∉ w.tasks.map Prod.fst := by
      intro hmem
      obtain ⟨e, he, heq⟩ := List.mem_map.mp hmem
      exact Nat.ne_of_lt (h.task_lt he) heq
    simp only [Scheduler.spawn, List.map_append, List.map_cons, List.map_nil]
    exact List.Nodup.append h.tasks_nodup (List.nodup_singleton _) (by simpa using hfresh)
  hosts := by
    refine h.hosts.mono ?_ fun e _ he => List.mem_append_left _ he
    have hperm : (w.tasks ++ [(w.nextTask, task)]).Perm ((w.nextTask, task) :: w.tasks) :=
      List.perm_append_singleton _ _
    have hcrowd := crowdOf_perm hperm
    rw [crowdOf_cons_of_ne hw] at hcrowd
    exact hcrowd.symm
  unbegun id key limit he := by
    simp only [Scheduler.spawn, List.mem_append, List.mem_singleton, Prod.mk.injEq] at he ⊢
    exact he.imp (h.unbegun id key limit) And.left
  stems e he := by
    simp only [Scheduler.spawn, List.mem_append, List.mem_singleton] at he
    rcases he with he | rfl
    · obtain ⟨order, horder, hs⟩ := h.stems e he
      exact ⟨order, by rw [List.getElem?_append_left (List.getElem?_eq_some_iff.mp horder).1]
                       exact horder, hs⟩
    · exact ⟨task, by simp [h.nextTask_eq], hstem⟩

/-- The table changes from outside, tasks are called, alarms ring, time passes. -/
theorem touch (h : w.Orderly orders) {v : WaitingRoom α} (hnext : v.nextTask = w.nextTask)
    (htasks : v.tasks = w.tasks) (hqueue : ∀ j ∈ w.queue, j ∈ v.queue)
    (hhosts : v.shared.table.Hosts w.crowd v.queue) : v.Orderly orders where
  nextTask_eq := hnext.trans h.nextTask_eq
  tasks_nodup := htasks ▸ h.tasks_nodup
  hosts := by
    rw [crowd, htasks]
    exact hhosts
  unbegun id key limit he := hqueue _ (h.unbegun id key limit (htasks ▸ he))
  stems e he := h.stems e (htasks ▸ he)

/-- The other tasks keep what they have in the queue at a turn. -/
theorem mem_erase {j : TaskId} {queue : List TaskId} (hj : j ≠ id) (h : j ∈ queue) :
    j ∈ queue.erase id := (List.mem_erase_of_ne hj).mpr h

/-- A task has its last turn. -/
theorem close (h : w.Orderly orders) {t : Table α} (results : List (Option (Outcome α)))
    (ht : t.Hosts (crowdOf (w.tasks.filter fun e => e.1 ≠ id)) (w.queue.erase id)) :
    (w.close id t results).Orderly orders where
  nextTask_eq := h.nextTask_eq
  tasks_nodup := h.tasks_nodup.sublist (List.filter_sublist.map _)
  hosts := ht
  unbegun i key limit he := by
    obtain ⟨he, hne⟩ := mem_tasks_close he
    exact mem_erase hne (h.unbegun i key limit he)
  stems e he := h.stems e (mem_tasks_close he).1

/-- A task goes to sleep after its turn. -/
theorem rest (h : w.Orderly orders) (htask : w.task? id = some task) {task' : RoomTask}
    (alarms : List (TaskId × Nat)) {room : Room α}
    (hstem : ∀ order, StemsFrom order task → StemsFrom order task')
    (hnew : ∀ key limit, task' ≠ .fetching key limit)
    (ht : room.table.Hosts (crowdOf ((id, task') :: w.tasks.filter fun e => e.1 ≠ id))
      (w.queue.erase id)) : (w.rest id task' alarms room).Orderly orders := by
  have hperm := Scheduler.perm_replaced h.tasks_nodup htask task'
  refine ⟨h.nextTask_eq, ?_, ?_, ?_, ?_⟩
  · simp only [WaitingRoom.rest, Scheduler.map_fst_replaced]
    exact h.tasks_nodup
  · exact ht.mono (crowdOf_perm hperm).symm fun _ _ hq => hq
  · intro i key limit he
    rcases mem_tasks_rest he with heq | ⟨he, hne⟩
    · simp only [Prod.mk.injEq] at heq
      exact absurd heq.2.symm (hnew key limit)
    · exact mem_erase hne (h.unbegun i key limit he)
  · intro e he
    rcases mem_tasks_rest he with rfl | ⟨he, -⟩
    · obtain ⟨order, horder, hs⟩ := h.stems _ (Scheduler.mem_of_lookup htask)
      exact ⟨order, horder, hstem order hs⟩
    · exact h.stems e he

/-- The crowd with a waiting task in front. -/
theorem hosts_waiting (h : w.Orderly orders) {wait : Wait}
    (htask : w.task? id = some (.waiting wait)) :
    w.shared.table.Hosts ((id, wait) :: crowdOf (w.tasks.filter fun e => e.1 ≠ id)) w.queue :=
  h.hosts.mono (crowdOf_perm (Scheduler.perm_of_lookup h.tasks_nodup htask)) fun _ _ hq => hq

/-- The crowd without a task that does not wait. -/
theorem hosts_others (h : w.Orderly orders) (htask : w.task? id = some task)
    (hw : ∀ wait, task ≠ .waiting wait) :
    w.shared.table.Hosts (crowdOf (w.tasks.filter fun e => e.1 ≠ id)) (w.queue.erase id) := by
  have hperm := crowdOf_perm (Scheduler.perm_of_lookup h.tasks_nodup htask)
  rw [crowdOf_cons_of_ne hw] at hperm
  exact h.hosts.mono hperm fun e he hq => mem_erase (ne_of_mem_crowdOf_filter he) hq

theorem not_mem_others (w : WaitingRoom α) (id : TaskId) :
    id ∉ (crowdOf (w.tasks.filter fun e => e.1 ≠ id)).map Prod.fst := by
  intro hmem
  obtain ⟨e, he, heq⟩ := List.mem_map.mp hmem
  exact ne_of_mem_crowdOf_filter he heq

/-- A turn keeps the room in order. -/
theorem turned (h : w.Orderly orders) {v : WaitingRoom α} (hv : Turned w id v) :
    v.Orderly orders := by
  have herase (j : TaskId) (hj : j ≠ id) (hq : j ∈ w.queue) : j ∈ w.queue.erase id :=
    mem_erase hj hq
  cases hv with
  | nobody htask =>
    have hall : (w.tasks.filter fun e => e.1 ≠ id) = w.tasks := by
      refine Scheduler.filter_ne_of_not_mem fun hmem => ?_
      obtain ⟨e, he, rfl⟩ := List.mem_map.mp hmem
      have := h.task?_eq_some_iff.mpr he
      simp [htask] at this
    have hne {j : TaskId} {task : RoomTask} (hj : (j, task) ∈ w.tasks) : j ≠ id := by
      rw [← hall] at hj
      simpa using (List.mem_filter.mp hj).2
    exact ⟨h.nextTask_eq, h.tasks_nodup,
      h.hosts.mono (List.Perm.refl _) fun e he hq => mem_erase (hne (mem_crowdOf.mp he)) hq,
      fun j key limit hj => mem_erase (hne hj) (h.unbegun j key limit hj), h.stems⟩
  | withdrawn wait htask ha => exact h.close _ ((h.hosts_waiting htask).leave herase)
  | dropped task htask ha hw => exact h.close _ (h.hosts_others htask hw)
  | fetched key limit a t htask ha ht =>
    exact h.close _ (((h.hosts_others htask (by simp)).takeReady ht).countStats _)
  | entered key limit htask ha ht =>
    refine h.rest htask _ ?_ (by simp) ?_
    · rintro order rfl
      exact ⟨limit, rfl, rfl⟩
    have hw := (h.hosts_others htask (by simp)).withCell w.now key
    obtain ⟨hmem, hkey⟩ := Table.find?_eq_some (w.shared.table.find?_withCell w.now key)
    exact hw.enter (not_mem_others w id) (Table.mem_known_of_mem_cells hmem)
      (Table.slot_withCell ht w.now) rfl hkey.symm
  | received wait a t htask ha ht =>
    exact h.close _ (((h.hosts_waiting htask).takeAwaited herase ht).countStats _)
  | timedOut wait htask ha ht hd =>
    exact h.close _ (((h.hosts_waiting htask).leave herase).countStats _)
  | stayed wait htask ha ht hd =>
    exact h.rest htask _ (fun order hs => hs) (by simp) ((h.hosts_waiting htask).sleep herase ht)
  | idled sweeper htask ha hp => exact h.close _ (h.hosts_others htask (by simp))
  | ticked sweeper htask ha hp =>
    exact h.rest htask _ (fun order hs => hs) (by simp)
      ((h.hosts_others htask (by simp)).sweepTimes _ _)

/-- Every move keeps the room in order. -/
theorem move (h : w.Orderly orders) (m : Move α) :
    Orderly (orders ++ m.started?.toList) (w.move m) := by
  have hq {ids : List TaskId} (j : TaskId) (hj : j ∈ w.queue) :
      j ∈ Scheduler.enqueue w.queue ids := Scheduler.mem_enqueue.mpr (.inl hj)
  cases m with
  | fetch key limit => exact h.spawn (by simp) rfl
  | startSweeper period => exact h.spawn (by simp) ⟨_, rfl⟩
  | deposit key a =>
    simp only [WaitingRoom.move, WaitingRoom.deposit, Scheduler.change, Scheduler.callAll_eq,
      Move.started?, Option.toList_none, List.append_nil]
    exact h.touch rfl rfl hq
      (h.hosts.deposit w.now key a hq fun j hj => Scheduler.mem_enqueue.mpr (.inr hj))
  | sweep offset =>
    simp only [WaitingRoom.move, WaitingRoom.sweep, Scheduler.change, Scheduler.callAll_eq,
      Move.started?, Option.toList_none, List.append_nil]
    exact h.touch rfl rfl hq (h.hosts.sweep _)
  | advance ms =>
    simp only [WaitingRoom.move, Scheduler.advance, Move.started?, Option.toList_none,
      List.append_nil]
    exact h.touch rfl rfl (fun j hj => hj) h.hosts
  | abort id =>
    simp only [WaitingRoom.move, Move.started?, Option.toList_none, List.append_nil]
    rcases Scheduler.abort_cases w id with heq | heq
    · rw [heq]
      exact h
    · rw [heq]
      exact h.touch rfl rfl hq (h.hosts.mono (List.Perm.refl _) fun e _ => hq e.1)
  | turn id =>
    simp only [Move.started?, Option.toList_none, List.append_nil]
    exact h.turned (WaitingRoom.turned w id)
  | ring =>
    simp only [WaitingRoom.move, Scheduler.ring, Scheduler.callAll_eq, Move.started?,
      Option.toList_none, List.append_nil]
    exact h.touch rfl rfl hq (h.hosts.mono (List.Perm.refl _) fun e _ => hq e.1)

end Orderly

theorem orderly_after (p : Retention) (moves : List (Move α)) :
    (after p moves).Orderly (started moves) := by
  induction moves using List.reverseRecOn with
  | nil => exact .start p
  | append_singleton moves m ih =>
    rw [after_append, started_append]
    exact ih.move m

end WaitingRoom
end EbmsMessaging.Correlation
