import EbmsMessaging.Scheduler
import Mathlib.Data.List.Nodup

/-!
# Turns in any order

The scheduler takes tasks from the head of its queue and rings alarms when the queue is empty. What
is proved of its tasks does not depend on that order. `attend` gives any task its turn, and
everything the scheduler does by itself is a sequence of such turns and of ringings.
-/
namespace EbmsMessaging.Scheduler

variable {σ τ ρ : Type}

/-- A task has its turn, wherever it stands in the queue. -/
def attend (b : Behaviour σ τ ρ) (s : Scheduler σ τ ρ) (id : TaskId) : Scheduler σ τ ρ :=
  let s : Scheduler σ τ ρ := { s with queue := s.queue.erase id }
  match s.task? id with
  | some t => s.takeTurn b id t
  | none => s

theorem step?_of_queue (b : Behaviour σ τ ρ) (s : Scheduler σ τ ρ) {id : TaskId}
    {rest : List TaskId} (h : s.queue = id :: rest) : s.step? b = some (s.attend b id) := by
  have herase : s.queue.erase id = rest := by rw [h, List.erase_cons_head]
  unfold step? attend
  rw [herase]
  split
  · next heq =>
    obtain ⟨rfl, rfl⟩ := List.cons.inj (h.symm.trans heq)
    rfl
  · next heq => exact absurd (h.symm.trans heq) (List.cons_ne_nil id rest)

/-- What happens while time stands still is the turn of the first task in the queue, or with nobody
there the ringing of alarms. -/
theorem step?_cases {b : Behaviour σ τ ρ} {s v : Scheduler σ τ ρ} (h : s.step? b = some v) :
    (∃ id rest, s.queue = id :: rest ∧ v = s.attend b id) ∨ (s.queue = [] ∧ v = s.ring) := by
  cases hqueue : s.queue with
  | cons id rest =>
    rw [step?_of_queue b s hqueue, Option.some.injEq] at h
    exact .inl ⟨id, rest, rfl, h.symm⟩
  | nil =>
    simp only [step?, hqueue] at h
    split at h
    · simp at h
    · exact .inr ⟨rfl, (Option.some.inj h).symm⟩

/-- What every step keeps up holds however far a scheduler is run. -/
theorem run_keeps {b : Behaviour σ τ ρ} {P : Scheduler σ τ ρ → Prop}
    (hstep : ∀ s v, P s → s.step? b = some v → P v) {s : Scheduler σ τ ρ} (hs : P s) (n : Nat) :
    P (s.run b n) := by
  induction n generalizing s with
  | zero => exact hs
  | succ n ih =>
    rw [run]
    cases h : s.step? b with
    | none => exact hs
    | some v => exact ih (hstep s v hs h)

/-- A settled scheduler has nobody in its queue and no alarm that is due. -/
theorem isSettled_iff (b : Behaviour σ τ ρ) (s : Scheduler σ τ ρ) :
    s.IsSettled b ↔ s.queue = [] ∧ s.clock.rung = s.now ∧ ∀ a ∈ s.alarms, s.now < a.2 := by
  have hdue : s.dueAlarms.isEmpty ↔ ∀ a ∈ s.alarms, s.now < a.2 := by
    rw [List.isEmpty_iff_length_eq_zero, dueAlarms, List.length_mergeSort, List.length_eq_zero_iff,
      List.filter_eq_nil_iff]
    simp
  unfold IsSettled step?
  cases hq : s.queue with
  | nil => simp [hdue]
  | cons id rest => simp

/-- A scheduler that does less and less comes to rest. -/
theorem isSettled_run {b : Behaviour σ τ ρ} {P : Scheduler σ τ ρ → Prop}
    {effort : Scheduler σ τ ρ → Nat}
    (hstep : ∀ s v, P s → s.step? b = some v → P v ∧ effort v < effort s) {n : Nat}
    {s : Scheduler σ τ ρ} (hs : P s) (hn : effort s ≤ n) : (s.run b n).IsSettled b := by
  induction n generalizing s with
  | zero =>
    rw [run, IsSettled]
    cases h : s.step? b with
    | none => rfl
    | some v =>
      have := (hstep s v hs h).2
      omega
  | succ n ih =>
    rw [run]
    cases h : s.step? b with
    | none => exact h
    | some v =>
      obtain ⟨hv, hlt⟩ := hstep s v hs h
      exact ih hv (by omega)

/-- However far it is run, a scheduler comes to rest in one state only. -/
theorem run_eq_of_isSettled {b : Behaviour σ τ ρ} {m n : Nat} {s : Scheduler σ τ ρ}
    (hm : (s.run b m).IsSettled b) (hn : (s.run b n).IsSettled b) : s.run b m = s.run b n := by
  induction m generalizing n s with
  | zero =>
    cases n with
    | zero => rfl
    | succ n =>
      have hnone : s.step? b = none := hm
      rw [run, run, hnone]
  | succ m ih =>
    rw [run] at hm ⊢
    cases h : s.step? b with
    | none =>
      cases n with
      | zero => rfl
      | succ n => rw [run, h]
    | some v =>
      rw [h] at hm
      cases n with
      | zero =>
        rw [run, IsSettled, h] at hn
        simp at hn
      | succ n =>
        rw [run, h] at hn ⊢
        exact ih hm hn

/-- The queue after tasks were called one after the other. -/
def enqueue (queue ids : List TaskId) : List TaskId :=
  ids.foldl (fun q id => if id ∈ q then q else q ++ [id]) queue

theorem callAll_eq (s : Scheduler σ τ ρ) (ids : List TaskId) :
    s.callAll ids = { s with queue := enqueue s.queue ids } := by
  unfold callAll enqueue
  induction ids generalizing s with
  | nil => rfl
  | cons id ids ih =>
    rw [List.foldl_cons, List.foldl_cons, ih]
    unfold call
    split <;> rfl

theorem mem_enqueue {queue ids : List TaskId} {id : TaskId} :
    id ∈ enqueue queue ids ↔ id ∈ queue ∨ id ∈ ids := by
  unfold enqueue
  induction ids generalizing queue with
  | nil => simp
  | cons i ids ih =>
    rw [List.foldl_cons, ih]
    split
    · next h =>
      constructor
      · rintro (hq | hi)
        · exact .inl hq
        · exact .inr (List.mem_cons_of_mem _ hi)
      · rintro (hq | hi)
        · exact .inl hq
        · rcases List.mem_cons.mp hi with rfl | hi
          · exact .inl h
          · exact .inr hi
    · simp [or_assoc]

/-- A task that there is none of is not dropped; any other is called. -/
theorem abort_cases (s : Scheduler σ τ ρ) (id : TaskId) : s.abort id = s ∨
    s.abort id = { s with queue := enqueue s.queue [id], aborted := id :: s.aborted } := by
  unfold abort
  split
  · exact .inr (callAll_eq _ [id])
  · exact .inl rfl

/-- Only a task that is there is dropped. -/
theorem mem_aborted_abort {s : Scheduler σ τ ρ} {id j : TaskId} :
    j ∈ (s.abort id).aborted ↔ j ∈ s.aborted ∨ (j = id ∧ ∃ t, s.task? id = some t) := by
  unfold abort
  cases h : s.task? id with
  | none => simp
  | some t =>
    have haborted : (({ s with aborted := id :: s.aborted } : Scheduler σ τ ρ).call id).aborted =
        id :: s.aborted := by
      unfold call
      split <;> rfl
    rw [Option.isSome_some, if_pos rfl, haborted, List.mem_cons, or_comm]
    simp

theorem shared_attend (b : Behaviour σ τ ρ) (s : Scheduler σ τ ρ) (id : TaskId) :
    (s.attend b id).shared = match s.task? id with
      | none => s.shared
      | some t => if id ∈ s.aborted then b.drop s.now id t s.shared
          else (b.turn s.clock id t s.shared).shared := by
  have hspawned (ts : List τ) (s : Scheduler σ τ ρ) : (ts.foldl spawn s).shared = s.shared := by
    induction ts generalizing s with
    | nil => rfl
    | cons t ts ih => exact ih (s.spawn t)
  cases h : s.task? id with
  | none =>
    simp only [task?] at h
    simp [attend, task?, h]
  | some t =>
    simp only [task?] at h
    by_cases ha : id ∈ s.aborted
    · simp [attend, task?, h, takeTurn, ha, setAlarm, forget, now]
    · simp only [attend, task?, h, takeTurn, ha, if_false]
      split <;> simp [setAlarm, putToSleep, forget, hspawned, callAll_eq]

/-! ## Turns that call nobody and start nothing -/

section Quiet

variable {b : Behaviour σ τ ρ} {s : Scheduler σ τ ρ} {id : TaskId} {t : τ}

theorem attend_nobody (h : s.task? id = none) :
    s.attend b id = { s with queue := s.queue.erase id } := by
  simp only [task?] at h
  simp [attend, task?, h]

theorem attend_of_mem_aborted (h : s.task? id = some t) (ha : id ∈ s.aborted) :
    s.attend b id = { s with
      tasks := s.tasks.filter fun e => e.1 ≠ id
      queue := s.queue.erase id
      alarms := s.alarms.filter fun a => a.1 ≠ id
      aborted := s.aborted.filter (· ≠ id)
      shared := b.drop s.now id t s.shared } := by
  simp only [task?] at h
  simp [attend, task?, h, takeTurn, ha, setAlarm, forget, now]

theorem attend_ended {shared : σ} {r : ρ} (h : s.task? id = some t) (ha : id ∉ s.aborted)
    (hturn : b.turn s.clock id t s.shared = ⟨shared, [], [], .ended r⟩) :
    s.attend b id = { s with
      tasks := s.tasks.filter fun e => e.1 ≠ id
      queue := s.queue.erase id
      alarms := s.alarms.filter fun a => a.1 ≠ id
      aborted := s.aborted.filter (· ≠ id)
      results := s.results ++ [(id, r)]
      shared := shared } := by
  simp only [task?] at h
  simp [attend, task?, h, takeTurn, ha, hturn, setAlarm, forget, callAll]

theorem attend_sleeping {shared : σ} {t' : τ} {alarm : Option Nat} (h : s.task? id = some t)
    (ha : id ∉ s.aborted)
    (hturn : b.turn s.clock id t s.shared = ⟨shared, [], [], .sleeping t' alarm⟩) :
    s.attend b id = { s with
      tasks := s.tasks.map fun e => if e.1 = id then (id, t') else e
      queue := s.queue.erase id
      alarms := s.alarms.filter (fun a => a.1 ≠ id) ++ alarm.toList.map fun time => (id, time)
      shared := shared } := by
  simp only [task?] at h
  simp [attend, task?, h, takeTurn, ha, hturn, setAlarm, putToSleep, callAll]

theorem attend_resting {shared : σ} {t' : τ} (h : s.task? id = some t) (ha : id ∉ s.aborted)
    (hturn : b.turn s.clock id t s.shared = ⟨shared, [], [], .resting t'⟩) :
    s.attend b id = { s with
      tasks := s.tasks.map fun e => if e.1 = id then (id, t') else e
      queue := s.queue.erase id
      shared := shared } := by
  simp only [task?] at h
  simp [attend, task?, h, takeTurn, ha, hturn, putToSleep, callAll]

end Quiet

/-! ## Tasks by number -/

section Tasks

variable {tasks : List (TaskId × τ)} {id : TaskId} {t : τ}

theorem mem_of_lookup (h : tasks.lookup id = some t) : (id, t) ∈ tasks := by
  obtain ⟨before, rest, rfl, -⟩ := List.lookup_eq_some_iff.mp h
  simp

theorem lookup_of_mem (hn : (tasks.map Prod.fst).Nodup) (h : (id, t) ∈ tasks) :
    tasks.lookup id = some t := by
  induction tasks with
  | nil => simp at h
  | cons e tasks ih =>
    rw [List.map_cons, List.nodup_cons] at hn
    rcases List.mem_cons.mp h with rfl | h
    · simp
    · have hne : id ≠ e.1 := by
        rintro rfl
        exact hn.1 (List.mem_map.mpr ⟨_, h, rfl⟩)
      rw [List.lookup_cons, beq_false_of_ne hne]
      exact ih hn.2 h

theorem lookup_eq_none_iff : tasks.lookup id = none ↔ id ∉ tasks.map Prod.fst := by
  rw [List.lookup_eq_none_iff, List.mem_map, not_exists]
  refine forall_congr' fun e => ?_
  rw [bne_iff_ne, not_and, ne_comm]

theorem filter_ne_of_not_mem (h : id ∉ tasks.map Prod.fst) :
    tasks.filter (fun e => e.1 ≠ id) = tasks := by
  refine List.filter_eq_self.mpr fun e he => ?_
  have hne : e.1 ≠ id := fun heq => h (heq ▸ List.mem_map_of_mem he)
  simpa using hne

/-- A task and the others. -/
theorem perm_of_lookup (hn : (tasks.map Prod.fst).Nodup) (h : tasks.lookup id = some t) :
    tasks.Perm ((id, t) :: tasks.filter fun e => e.1 ≠ id) := by
  induction tasks with
  | nil => simp at h
  | cons e tasks ih =>
    rw [List.map_cons, List.nodup_cons] at hn
    rw [List.lookup_cons] at h
    by_cases he : id = e.1
    · subst he
      simp only [beq_self_eq_true, Option.some.injEq] at h
      subst h
      rw [List.filter_cons_of_neg (by simp), filter_ne_of_not_mem hn.1]
    · rw [beq_false_of_ne he] at h
      rw [List.filter_cons_of_pos (by simpa using Ne.symm he)]
      exact ((ih hn.2 h).cons e).trans (List.Perm.swap _ _ _)

/-- A task in its new state and the others. -/
theorem perm_replaced (hn : (tasks.map Prod.fst).Nodup) (h : tasks.lookup id = some t) (t' : τ) :
    (tasks.map fun e => if e.1 = id then (id, t') else e).Perm
      ((id, t') :: tasks.filter fun e => e.1 ≠ id) := by
  induction tasks with
  | nil => simp at h
  | cons e tasks ih =>
    rw [List.map_cons, List.nodup_cons] at hn
    rw [List.lookup_cons] at h
    by_cases he : id = e.1
    · subst he
      have hsame : (tasks.map fun e' => if e'.1 = e.1 then (e.1, t') else e') = tasks := by
        conv_rhs => rw [← List.map_id tasks]
        refine List.map_congr_left fun e' he' => ?_
        have hne : e'.1 ≠ e.1 := fun heq => hn.1 (heq ▸ List.mem_map_of_mem he')
        simp [hne]
      rw [List.filter_cons_of_neg (by simp), filter_ne_of_not_mem hn.1, List.map_cons, if_pos rfl,
        hsame]
    · rw [beq_false_of_ne he] at h
      rw [List.filter_cons_of_pos (by simpa using Ne.symm he), List.map_cons,
        if_neg (Ne.symm he)]
      exact ((ih hn.2 h).cons e).trans (List.Perm.swap _ _ _)

theorem map_fst_replaced (tasks : List (TaskId × τ)) (id : TaskId) (t : τ) :
    (tasks.map fun e => if e.1 = id then (id, t) else e).map Prod.fst = tasks.map Prod.fst := by
  rw [List.map_map]
  refine List.map_congr_left fun e _ => ?_
  by_cases he : e.1 = id <;> simp [he]

end Tasks
end EbmsMessaging.Scheduler
