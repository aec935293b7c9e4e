import EbmsMessaging.Proofs.Scheduler

/-!
# Turns of all kinds

What a turn leaves behind, whatever it does: the task itself in its new state or its result, the
tasks that it started behind all others, and the tasks that it called in the queue. Other tasks stay
where they are, with their alarms.
-/
namespace EbmsMessaging

namespace Next

variable {τ ρ : Type}

/-- The task as it goes on, unless it ends. -/
def task? : Next τ ρ → Option τ
  | sleeping t _ => some t
  | resting t => some t
  | ended _ => none

def result? : Next τ ρ → Option ρ
  | ended r => some r
  | _ => none

end Next

namespace Scheduler

variable {σ τ ρ : Type}

/-- New tasks with their numbers. -/
def numberedFrom (n : TaskId) (ts : List τ) : List (TaskId × τ) :=
  (List.range' n ts.length).zip ts

theorem mem_numberedFrom {n : TaskId} {ts : List τ} {e : TaskId × τ} (h : e ∈ numberedFrom n ts) :
    n ≤ e.1 ∧ e.1 < n + ts.length ∧ e.2 ∈ ts := by
  obtain ⟨hid, ht⟩ := List.of_mem_zip (show (e.1, e.2) ∈ _ from h)
  obtain ⟨hle, hlt⟩ := List.mem_range'_1.mp hid
  exact ⟨hle, hlt, ht⟩

theorem map_fst_numberedFrom (n : TaskId) (ts : List τ) :
    (numberedFrom n ts).map Prod.fst = List.range' n ts.length :=
  List.map_fst_zip (by simp)

theorem foldl_spawn (s : Scheduler σ τ ρ) (ts : List τ) : ts.foldl spawn s = { s with
    nextTask := s.nextTask + ts.length
    tasks := s.tasks ++ numberedFrom s.nextTask ts
    queue := s.queue ++ List.range' s.nextTask ts.length } := by
  induction ts generalizing s with
  | nil => simp [numberedFrom]
  | cons t ts ih =>
    rw [List.foldl_cons, ih]
    simp [spawn, numberedFrom, List.range'_succ, Nat.add_assoc, Nat.add_comm 1]

/-! ## The state after a turn -/

section Attend

variable {b : Behaviour σ τ ρ} {s : Scheduler σ τ ρ} {id : TaskId} {t : τ}

theorem attend_of_sleeping {t' : τ} {alarm : Option Nat} (h : s.task? id = some t)
    (ha : id ∉ s.aborted) (hnext : (b.turn s.clock id t s.shared).next = .sleeping t' alarm) :
    s.attend b id = { s with
      nextTask := s.nextTask + (b.turn s.clock id t s.shared).started.length
      tasks := (s.tasks ++ numberedFrom s.nextTask (b.turn s.clock id t s.shared).started).map
        fun e => if e.1 = id then (id, t') else e
      queue := enqueue (s.queue.erase id) (b.turn s.clock id t s.shared).called ++
        List.range' s.nextTask (b.turn s.clock id t s.shared).started.length
      alarms := s.alarms.filter (fun a => a.1 ≠ id) ++ alarm.toList.map fun time => (id, time)
      shared := (b.turn s.clock id t s.shared).shared } := by
  simp only [task?] at h
  simp [attend, task?, h, takeTurn, ha, hnext, callAll_eq, foldl_spawn, putToSleep, setAlarm]

theorem attend_of_resting {t' : τ} (h : s.task? id = some t) (ha : id ∉ s.aborted)
    (hnext : (b.turn s.clock id t s.shared).next = .resting t') :
    s.attend b id = { s with
      nextTask := s.nextTask + (b.turn s.clock id t s.shared).started.length
      tasks := (s.tasks ++ numberedFrom s.nextTask (b.turn s.clock id t s.shared).started).map
        fun e => if e.1 = id then (id, t') else e
      queue := enqueue (s.queue.erase id) (b.turn s.clock id t s.shared).called ++
        List.range' s.nextTask (b.turn s.clock id t s.shared).started.length
      shared := (b.turn s.clock id t s.shared).shared } := by
  simp only [task?] at h
  simp [attend, task?, h, takeTurn, ha, hnext, callAll_eq, foldl_spawn, putToSleep]

theorem attend_of_ended {r : ρ} (h : s.task? id = some t) (ha : id ∉ s.aborted)
    (hnext : (b.turn s.clock id t s.shared).next = .ended r) :
    s.attend b id = { s with
      nextTask := s.nextTask + (b.turn s.clock id t s.shared).started.length
      tasks := (s.tasks ++ numberedFrom s.nextTask (b.turn s.clock id t s.shared).started).filter
        fun e => e.1 ≠ id
      queue := enqueue (s.queue.erase id) (b.turn s.clock id t s.shared).called ++
        List.range' s.nextTask (b.turn s.clock id t s.shared).started.length
      alarms := s.alarms.filter fun a => a.1 ≠ id
      aborted := s.aborted.filter (· ≠ id)
      results := s.results ++ [(id, r)]
      shared := (b.turn s.clock id t s.shared).shared } := by
  simp only [task?] at h
  simp [attend, task?, h, takeTurn, ha, hnext, callAll_eq, foldl_spawn, setAlarm, forget]

end Attend

/-- What a turn of a task leaves behind. -/
structure Attended (s : Scheduler σ τ ρ) (id : TaskId) (turn : Turn σ τ ρ)
    (v : Scheduler σ τ ρ) : Prop where
  clock : v.clock = s.clock
  nextTask : v.nextTask = s.nextTask + turn.started.length
  tasks : v.tasks.Perm (numberedFrom s.nextTask turn.started ++
    (turn.next.task?.toList.map (fun t => (id, t)) ++ s.tasks.filter fun e => e.1 ≠ id))
  queue : v.queue = enqueue (s.queue.erase id) turn.called ++
    List.range' s.nextTask turn.started.length
  aborted : ∀ j ∈ v.aborted, j ∈ s.aborted
  results : v.results = s.results ++ turn.next.result?.toList.map fun r => (id, r)
  shared : v.shared = turn.shared

theorem ne_of_mem_numberedFrom {n id : TaskId} (hid : id < n) {ts : List τ} {e : TaskId × τ}
    (he : e ∈ numberedFrom n ts) : e.1 ≠ id :=
  Nat.ne_of_gt (Nat.lt_of_lt_of_le hid (mem_numberedFrom he).1)

/-- New tasks stand beside the task in its new state and the others. -/
theorem perm_replaced_append {tasks : List (TaskId × τ)} {id n : TaskId} {t : τ}
    (hn : (tasks.map Prod.fst).Nodup) (h : tasks.lookup id = some t) (hid : id < n) (t' : τ)
    (started : List τ) :
    ((tasks ++ numberedFrom n started).map fun e => if e.1 = id then (id, t') else e).Perm
      (numberedFrom n started ++ ((id, t') :: tasks.filter fun e => e.1 ≠ id)) := by
  have hkept : ((numberedFrom n started).map fun e => if e.1 = id then (id, t') else e) =
      numberedFrom n started := by
    conv_rhs => rw [← List.map_id (numberedFrom n started)]
    exact List.map_congr_left fun e he => if_neg (ne_of_mem_numberedFrom hid he)
  rw [List.map_append, hkept]
  exact ((perm_replaced hn h t').append_right _).trans List.perm_append_comm

/-- New tasks stand beside the others when a task is gone. -/
theorem perm_filter_append {id n : TaskId} (hid : id < n) (tasks : List (TaskId × τ))
    (started : List τ) : ((tasks ++ numberedFrom n started).filter fun e => e.1 ≠ id).Perm
      (numberedFrom n started ++ tasks.filter fun e => e.1 ≠ id) := by
  have hkept : ((numberedFrom n started).filter fun e => e.1 ≠ id) = numberedFrom n started :=
    List.filter_eq_self.mpr fun e he => by simpa using ne_of_mem_numberedFrom hid he
  rw [List.filter_append, hkept]
  exact List.perm_append_comm

theorem attended {b : Behaviour σ τ ρ} {s : Scheduler σ τ ρ} {id : TaskId} {t : τ}
    (hn : (s.tasks.map Prod.fst).Nodup) (hlt : ∀ e ∈ s.tasks, e.1 < s.nextTask)
    (h : s.task? id = some t) (ha : id ∉ s.aborted) :
    Attended s id (b.turn s.clock id t s.shared) (s.attend b id) := by
  have hid : id < s.nextTask := hlt _ (mem_of_lookup h)
  cases hnext : (b.turn s.clock id t s.shared).next with
  | sleeping t' alarm =>
    rw [attend_of_sleeping h ha hnext]
    refine ⟨rfl, rfl, ?_, rfl, fun _ hj => hj, ?_, rfl⟩
    · rw [hnext]
      exact perm_replaced_append hn h hid t' _
    · simp [hnext, Next.result?]
  | resting t' =>
    rw [attend_of_resting h ha hnext]
    refine ⟨rfl, rfl, ?_, rfl, fun _ hj => hj, ?_, rfl⟩
    · rw [hnext]
      exact perm_replaced_append hn h hid t' _
    · simp [hnext, Next.result?]
  | ended r =>
    rw [attend_of_ended h ha hnext]
    refine ⟨rfl, rfl, ?_, rfl, fun _ hj => List.mem_of_mem_filter hj, ?_, rfl⟩
    · rw [hnext]
      exact perm_filter_append hid _ _
    · simp [hnext, Next.result?]

/-- What a turn leaves as it was for another task. -/
structure Leaves (j : TaskId) (s v : Scheduler σ τ ρ) : Prop where
  clock : v.clock = s.clock
  queue : j ∈ s.queue → j ∈ v.queue
  alarms : ∀ time, (j, time) ∈ s.alarms → (j, time) ∈ v.alarms
  aborted : j ∈ v.aborted ↔ j ∈ s.aborted

theorem leaves_attend (b : Behaviour σ τ ρ) (s : Scheduler σ τ ρ) {id j : TaskId} (hj : j ≠ id) :
    Leaves j s (s.attend b id) := by
  have hqueue (h : j ∈ s.queue) : j ∈ s.queue.erase id := (List.mem_erase_of_ne hj).mpr h
  have hcalled (called : List TaskId) (n m : Nat) (h : j ∈ s.queue) :
      j ∈ enqueue (s.queue.erase id) called ++ List.range' n m :=
    List.mem_append_left _ (mem_enqueue.mpr (.inl (hqueue h)))
  have halarms (time : Nat) (h : (j, time) ∈ s.alarms) :
      (j, time) ∈ s.alarms.filter fun a => a.1 ≠ id := List.mem_filter.mpr ⟨h, by simpa using hj⟩
  have haborted : j ∈ s.aborted.filter (· ≠ id) ↔ j ∈ s.aborted := by simp [hj]
  cases htask : s.task? id with
  | none =>
    rw [attend_nobody htask]
    exact ⟨rfl, hqueue, fun _ h => h, Iff.rfl⟩
  | some t =>
    by_cases ha : id ∈ s.aborted
    · rw [attend_of_mem_aborted htask ha]
      exact ⟨rfl, hqueue, halarms, haborted⟩
    · cases hnext : (b.turn s.clock id t s.shared).next with
      | sleeping t' alarm =>
        rw [attend_of_sleeping htask ha hnext]
        exact ⟨rfl, hcalled _ _ _, fun time h => List.mem_append_left _ (halarms time h), Iff.rfl⟩
      | resting t' =>
        rw [attend_of_resting htask ha hnext]
        exact ⟨rfl, hcalled _ _ _, fun _ h => h, Iff.rfl⟩
      | ended r =>
        rw [attend_of_ended htask ha hnext]
        exact ⟨rfl, hcalled _ _ _, halarms, haborted⟩

end Scheduler
end EbmsMessaging
