import EbmsMessaging.Proofs.Correlation.Moves
import Mathlib.Data.List.Induction
import Mathlib.Data.List.Perm.Subperm

/-!
# A waiting room comes to rest

No task of a waiting room calls another, so every turn shortens the queue. Once the alarms have rung
no task sets one that is due at once. So after the queue, one ringing and the turns of those who
were called by it, nothing is left to be done before time moves on.
-/
namespace EbmsMessaging.Correlation.WaitingRoom

variable {α : Type}

/-- Every alarm belongs to a task of its own. -/
structure Alarmed (w : WaitingRoom α) : Prop where
  nodup : (w.alarms.map Prod.fst).Nodup
  owned : ∀ a ∈ w.alarms, a.1 ∈ w.tasks.map Prod.fst

/-- The alarms have rung, and the next ones lie ahead. -/
def IsQuiet (w : WaitingRoom α) : Prop := w.clock.rung = w.now ∧ ∀ a ∈ w.alarms, w.now < a.2

instance (w : WaitingRoom α) : Decidable w.IsQuiet :=
  inferInstanceAs (Decidable (w.clock.rung = w.now ∧ ∀ a ∈ w.alarms, w.now < a.2))

/-- A bound on what is left to be done before time moves on. -/
def effort (w : WaitingRoom α) : Nat :=
  w.queue.length + if w.IsQuiet then 0 else w.tasks.length + 1

namespace Alarmed

variable {w v : WaitingRoom α} {id : TaskId}

theorem start (p : Retention) : (start p : WaitingRoom α).Alarmed where
  nodup := List.nodup_nil
  owned := by simp [WaitingRoom.start, Scheduler.start]

/-- No alarm is set and no task ends. -/
theorem touch (h : w.Alarmed) (halarms : v.alarms.Sublist w.alarms)
    (htasks : ∀ e ∈ w.tasks, e.1 ∈ v.tasks.map Prod.fst) : v.Alarmed where
  nodup := h.nodup.sublist (halarms.map _)
  owned a ha := by
    obtain ⟨e, he, heq⟩ := List.mem_map.mp (h.owned a (halarms.subset ha))
    exact heq ▸ htasks e he

theorem close (h : w.Alarmed) (t : Table α) (results : List (Option (Outcome α))) :
    (w.close id t results).Alarmed where
  nodup := h.nodup.sublist (List.filter_sublist.map _)
  owned a ha := by
    obtain ⟨ha, hne⟩ := List.mem_filter.mp ha
    obtain ⟨e, he, heq⟩ := List.mem_map.mp (h.owned a ha)
    exact List.mem_map.mpr ⟨e, List.mem_filter.mpr ⟨he, by simpa [heq] using hne⟩, heq⟩

theorem map_fst_tasks_rest (w : WaitingRoom α) (id : TaskId) (task : RoomTask)
    (alarms : List (TaskId × Nat)) (room : Room α) :
    (w.rest id task alarms room).tasks.map Prod.fst = w.tasks.map Prod.fst :=
  Scheduler.map_fst_replaced _ _ _

theorem rest_same (h : w.Alarmed) (task : RoomTask) (room : Room α) :
    (w.rest id task w.alarms room).Alarmed where
  nodup := h.nodup
  owned a ha := by
    rw [map_fst_tasks_rest]
    exact h.owned a ha

theorem rest (h : w.Alarmed) {task : RoomTask} (htask : w.task? id = some task)
    (task' : RoomTask) (alarm : Option Nat) (room : Room α) :
    (w.rest id task' (w.alarmsWith id alarm) room).Alarmed where
  nodup := by
    simp only [WaitingRoom.rest, alarmsWith, List.map_append]
    cases alarm with
    | none => simpa using h.nodup.sublist (List.filter_sublist.map _)
    | some time =>
      refine List.Nodup.append (h.nodup.sublist (List.filter_sublist.map _)) (by simp) ?_
      intro j hj hid
      obtain ⟨a, ha, rfl⟩ := List.mem_map.mp hj
      have hne := (List.mem_filter.mp ha).2
      simp at hid hne
      exact hne hid
  owned a ha := by
    rw [map_fst_tasks_rest]
    rcases List.mem_append.mp ha with ha | ha
    · exact h.owned a (List.mem_filter.mp ha).1
    · obtain ⟨time, -, rfl⟩ := List.mem_map.mp ha
      exact List.mem_map.mpr ⟨_, Scheduler.mem_of_lookup htask, rfl⟩

theorem turned (h : w.Alarmed) (hv : Turned w id v) : v.Alarmed := by
  cases hv with
  | nobody _ => exact ⟨h.nodup, h.owned⟩
  | withdrawn _ _ _ => exact h.close _ _
  | dropped _ _ _ _ => exact h.close _ _
  | fetched _ _ _ _ _ _ _ => exact h.close _ _
  | entered _ _ htask _ _ => exact h.rest htask _ _ _
  | received _ _ _ _ _ _ => exact h.close _ _
  | timedOut _ _ _ _ _ => exact h.close _ _
  | stayed _ _ _ _ _ => exact h.rest_same _ _
  | idled _ _ _ _ => exact h.close _ _
  | ticked _ htask _ _ => exact h.rest htask _ _ _

/-- Only a turn sets alarms. -/
theorem alarms_of_not_turn (w : WaitingRoom α) {m : Move α} (hm : ∀ id, m ≠ .turn id) :
    (w.move m).alarms.Sublist w.alarms := by
  cases m with
  | turn id => exact absurd rfl (hm id)
  | deposit key a =>
    simp only [WaitingRoom.move, deposit, Scheduler.change, Scheduler.callAll_eq]
    exact List.Sublist.refl _
  | sweep offset =>
    simp only [WaitingRoom.move, sweep, Scheduler.change, Scheduler.callAll_eq]
    exact List.Sublist.refl _
  | abort id =>
    rw [WaitingRoom.move]
    rcases Scheduler.abort_cases w id with heq | heq
    all_goals
      rw [heq]
  | ring =>
    simp only [WaitingRoom.move, Scheduler.ring, Scheduler.callAll_eq]
    exact List.filter_sublist
  | fetch key limit => exact List.Sublist.refl _
  | startSweeper period => exact List.Sublist.refl _
  | advance ms => exact List.Sublist.refl _

theorem move (h : w.Alarmed) (m : Move α) : (w.move m).Alarmed := by
  by_cases hm : ∃ id, m = .turn id
  · obtain ⟨id, rfl⟩ := hm
    exact h.turned (WaitingRoom.turned w id)
  · have hturn : ∀ id, m ≠ .turn id := fun id heq => hm ⟨id, heq⟩
    refine h.touch (alarms_of_not_turn w hturn) fun e he => ?_
    rw [(tasks_and_results_of_not_turn w hturn).2, List.map_append]
    exact List.mem_append_left _ (List.mem_map_of_mem he)

end Alarmed

theorem alarmed_after (p : Retention) (moves : List (Move α)) : (after p moves).Alarmed := by
  induction moves using List.reverseRecOn with
  | nil => exact .start p
  | append_singleton moves m ih =>
    rw [after_append]
    exact ih.move m

/-! ## Less and less is left to be done -/

section Effort

variable {w v : WaitingRoom α} {id : TaskId}

/-- A task that goes to sleep while all is quiet has its alarm ahead. -/
theorem isQuiet_turned (h : w.IsQuiet) (hv : Turned w id v) : v.IsQuiet := by
  obtain ⟨hrung, hahead⟩ := h
  have hothers : ∀ a ∈ w.alarms.filter (fun a => a.1 ≠ id), w.now < a.2 := fun a ha =>
    hahead a (List.mem_of_mem_filter ha)
  have hset : ∀ alarm : Option Nat, (∀ time ∈ alarm, w.now < time) →
      ∀ a ∈ w.alarmsWith id alarm, w.now < a.2 := by
    intro alarm halarm a ha
    rcases List.mem_append.mp ha with ha | ha
    · exact hothers a ha
    · obtain ⟨time, htime, rfl⟩ := List.mem_map.mp ha
      exact halarm time (by simpa using htime)
  cases hv with
  | nobody _ => exact ⟨hrung, hahead⟩
  | withdrawn _ _ _ => exact ⟨hrung, hothers⟩
  | dropped _ _ _ _ => exact ⟨hrung, hothers⟩
  | fetched _ _ _ _ _ _ _ => exact ⟨hrung, hothers⟩
  | entered key limit _ _ _ =>
    refine ⟨hrung, hset _ fun time htime => ?_⟩
    simp only [waitAt] at htime
    split at htime
    · simp at htime
    · simp at htime
      omega
  | received _ _ _ _ _ _ => exact ⟨hrung, hothers⟩
  | timedOut _ _ _ _ _ => exact ⟨hrung, hothers⟩
  | stayed _ _ _ _ _ => exact ⟨hrung, hahead⟩
  | idled _ _ _ _ => exact ⟨hrung, hothers⟩
  | ticked sweeper _ _ hp =>
    refine ⟨hrung, hset _ fun time htime => ?_⟩
    have hclock : w.clock = ⟨w.now, w.now⟩ := by
      have hfields : w.clock = ⟨w.now, w.clock.rung⟩ := rfl
      rw [hfields, hrung]
    obtain rfl := Option.some.inj htime
    have hlt := sweeper.lt_alarm_tick w.now (Nat.pos_of_ne_zero hp)
    rwa [← hclock] at hlt

theorem tasks_and_queue_turned (hv : Turned w id v) :
    v.queue = w.queue.erase id ∧ v.tasks.length ≤ w.tasks.length := by
  rcases hv.closed_or_rested with rfl | ⟨-, -, ⟨t, results, rfl⟩ | ⟨task, alarms, room, rfl⟩⟩
  · exact ⟨rfl, Nat.le_refl _⟩
  · exact ⟨rfl, List.length_filter_le _ _⟩
  · exact ⟨rfl, Nat.le_of_eq (List.length_map _)⟩

theorem effort_turned (hv : Turned w id v) (hid : id ∈ w.queue) : v.effort < w.effort := by
  obtain ⟨hqueue, htasks⟩ := tasks_and_queue_turned hv
  have hlength := List.length_erase_of_mem hid
  have hpos := List.length_pos_of_mem hid
  unfold effort
  rw [hqueue, hlength]
  by_cases hquiet : w.IsQuiet
  · rw [if_pos hquiet, if_pos (isQuiet_turned hquiet hv)]
    omega
  · rw [if_neg hquiet]
    split <;> omega

theorem length_enqueue_le (queue ids : List TaskId) :
    (Scheduler.enqueue queue ids).length ≤ queue.length + ids.length := by
  unfold Scheduler.enqueue
  induction ids generalizing queue with
  | nil => exact Nat.le_refl _
  | cons id ids ih =>
    rw [List.foldl_cons, List.length_cons]
    split
    · have := ih queue
      omega
    · have := ih (queue ++ [id])
      rw [List.length_append, List.length_singleton] at this
      omega

/-- At most one alarm rings for each task, and then all is quiet. -/
theorem effort_ring (h : w.Alarmed) (hqueue : w.queue = []) (hquiet : ¬w.IsQuiet) :
    effort (Scheduler.ring w) < w.effort := by
  have hrung : IsQuiet (Scheduler.ring w) := by
    rw [Scheduler.ring, Scheduler.callAll_eq]
    refine ⟨rfl, fun a ha => ?_⟩
    exact of_decide_eq_true (List.mem_filter.mp ha).2
  have hcalled : (Scheduler.ring w).queue.length ≤ w.dueAlarms.length := by
    rw [Scheduler.ring, Scheduler.callAll_eq]
    have := length_enqueue_le w.queue (w.dueAlarms.map Prod.fst)
    rwa [hqueue, List.length_map, List.length_nil, Nat.zero_add, ← hqueue] at this
  have hdue : w.dueAlarms.length ≤ w.alarms.length := by
    rw [Scheduler.dueAlarms, List.length_mergeSort]
    exact List.length_filter_le _ _
  have hsub : w.alarms.map Prod.fst ⊆ w.tasks.map Prod.fst := fun j hj => by
    obtain ⟨a, ha, rfl⟩ := List.mem_map.mp hj
    exact h.owned a ha
  have howners := (List.subperm_of_subset h.nodup hsub).length_le
  rw [List.length_map, List.length_map] at howners
  unfold effort
  rw [if_pos hrung, if_neg hquiet]
  omega

theorem effort_step (h : w.Alarmed) (hstep : w.step? Room.behaviour = some v) :
    Alarmed v ∧ effort v < w.effort := by
  rcases Scheduler.step?_cases hstep with ⟨id, rest, hqueue, rfl⟩ | ⟨hqueue, rfl⟩
  · have hv := WaitingRoom.turned w id
    exact ⟨h.turned hv, effort_turned hv (by simp [hqueue])⟩
  · have hquiet : ¬w.IsQuiet := by
      intro hquiet
      have hsettled := (Scheduler.isSettled_iff Room.behaviour w).mpr ⟨hqueue, hquiet⟩
      rw [Scheduler.IsSettled, hstep] at hsettled
      simp at hsettled
    exact ⟨h.move .ring, effort_ring h hqueue hquiet⟩

end Effort

/-- Where a room is settled, nothing happens any more until time moves on. -/
theorem isSettled_settle {w : WaitingRoom α} (h : w.Alarmed) :
    w.settle.IsSettled Room.behaviour := by
  have hwork : w.tasks.foldr (fun t n => Room.behaviour.work (σ := Room α) t.2 + n) 0 = 0 := by
    induction w.tasks with
    | nil => rfl
    | cons t ts ih => rw [List.foldr_cons, ih]; rfl
  have hbound : w.effort ≤ w.stepBound Room.behaviour := by
    have : w.effort ≤ w.queue.length + (w.tasks.length + 1) := by
      unfold effort
      split <;> omega
    rw [Scheduler.stepBound]
    simp only [hwork]
    omega
  exact Scheduler.isSettled_run (fun s v hs hv => effort_step hs hv) h hbound

end EbmsMessaging.Correlation.WaitingRoom
