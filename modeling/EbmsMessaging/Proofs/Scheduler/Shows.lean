import EbmsMessaging.Proofs.Scheduler.Selection

/-!
# A scheduler with some of the tasks

A scheduler that shows the selected tasks of another one has each of them in the same place, under
its new number. Calling tasks, dropping them, ringing alarms and letting a task have its turn all
keep it that way, and a turn of any other task changes nothing that is shown.
-/
namespace EbmsMessaging

/-- The same with the task under another name. -/
def Next.rename {τ ρ : Type} (f : τ → τ) : Next τ ρ → Next τ ρ
  | .sleeping t alarm => .sleeping (f t) alarm
  | .resting t => .resting (f t)
  | .ended r => .ended r

namespace Scheduler

variable {σ τ ρ : Type}

/-- One scheduler shows the selected tasks of another, which it may know by other names. Of what the
tasks share nothing is said. -/
structure Shows (keep : TaskId → Bool) (f : τ → τ) (s v : Scheduler σ τ ρ) : Prop where
  clock : v.clock = s.clock
  nextTask : v.nextTask = rank keep s.nextTask
  tasks : v.tasks = pickWith keep f s.tasks
  queue : v.queue = pick keep s.queue
  alarms : v.alarms = pickWith keep id s.alarms
  aborted : v.aborted = pick keep s.aborted
  results : v.results = pickWith keep id s.results

namespace Shows

variable {keep : TaskId → Bool} {f : τ → τ} {s v : Scheduler σ τ ρ} {n : TaskId}

theorem start (a b : σ) : Shows keep f (start a : Scheduler σ τ ρ) (start b) := by
  constructor <;> simp [Scheduler.start, rank, pick, pickWith]

theorem now (h : Shows keep f s v) : v.now = s.now := by rw [Scheduler.now, h.clock]; rfl

theorem task? (h : Shows keep f s v) (hn : keep n = true) :
    v.task? (rank keep n) = (s.task? n).map f := by
  rw [Scheduler.task?, h.tasks, lookup_pickWith hn]
  rfl

theorem spawn_of_pos (h : Shows keep f s v) (hn : keep s.nextTask = true) (t : τ) :
    Shows keep f (s.spawn t) (v.spawn (f t)) where
  clock := h.clock
  nextTask := by simp only [spawn, h.nextTask, rank_succ, hn, if_true]
  tasks := by
    simp only [spawn, h.tasks, h.nextTask, pickWith_append, pickWith_cons_of_pos hn]
    rfl
  queue := by simp only [spawn, h.queue, h.nextTask, pick_append, pick_singleton_of_pos hn]
  alarms := h.alarms
  aborted := h.aborted
  results := h.results

theorem spawn_of_neg (h : Shows keep f s v) (hn : keep s.nextTask = false) (t : τ) :
    Shows keep f (s.spawn t) v where
  clock := h.clock
  nextTask := by simp [spawn, h.nextTask, rank_succ, hn]
  tasks := by
    have hnone : pickWith keep f [(s.nextTask, t)] = [] := pickWith_cons_of_neg hn
    simp only [spawn, h.tasks, pickWith_append, hnone, List.append_nil]
  queue := by simp [spawn, h.queue, pick_append, pick_singleton_of_neg hn]
  alarms := h.alarms
  aborted := h.aborted
  results := h.results

/-- Tasks are called and the shared state changes. -/
theorem change (h : Shows keep f s v) (a b : σ) (ids : List TaskId) :
    Shows keep f (({ s with shared := a } : Scheduler σ τ ρ).callAll ids)
      (({ v with shared := b } : Scheduler σ τ ρ).callAll (pick keep ids)) := by
  rw [callAll_eq, callAll_eq]
  exact ⟨h.clock, h.nextTask, h.tasks, by simp only [h.queue, pick_enqueue], h.alarms, h.aborted,
    h.results⟩

/-- The same where none of those is selected. -/
theorem change_of_neg (h : Shows keep f s v) (a : σ) {ids : List TaskId}
    (hids : ∀ i ∈ ids, keep i = false) :
    Shows keep f (({ s with shared := a } : Scheduler σ τ ρ).callAll ids) v := by
  rw [callAll_eq]
  refine ⟨h.clock, h.nextTask, h.tasks, ?_, h.alarms, h.aborted, h.results⟩
  rw [h.queue, pick_enqueue, pick_eq_nil hids]
  rfl

theorem abort_of_pos (h : Shows keep f s v) (hn : keep n = true) :
    Shows keep f (s.abort n) (v.abort (rank keep n)) := by
  unfold abort
  rw [h.task? hn, Option.isSome_map]
  split
  · have hshown : Shows keep f { s with aborted := n :: s.aborted }
        { v with aborted := rank keep n :: v.aborted } :=
      ⟨h.clock, h.nextTask, h.tasks, h.queue, h.alarms, by rw [pick_cons_of_pos hn, h.aborted],
        h.results⟩
    have hcalled := hshown.change s.shared v.shared [n]
    rw [pick_singleton_of_pos hn] at hcalled
    exact hcalled
  · exact h

theorem abort_of_neg (h : Shows keep f s v) (hn : keep n = false) :
    Shows keep f (s.abort n) v := by
  unfold abort
  split
  · have hshown : Shows keep f { s with aborted := n :: s.aborted } v :=
      ⟨h.clock, h.nextTask, h.tasks, h.queue, h.alarms, by rw [pick_cons_of_neg hn, h.aborted],
        h.results⟩
    have hnone : ∀ i ∈ [n], keep i = false := by simpa using hn
    exact hshown.change_of_neg s.shared hnone
  · exact h

theorem advance (h : Shows keep f s v) (ms : Nat) : Shows keep f (s.advance ms) (v.advance ms) where
  clock := by simp only [Scheduler.advance, h.clock, h.now]
  nextTask := h.nextTask
  tasks := h.tasks
  queue := h.queue
  alarms := h.alarms
  aborted := h.aborted
  results := h.results

theorem filter_alarms (h : Shows keep f s v) (p : Nat → Bool) :
    v.alarms.filter (fun a => p a.2) = pickWith keep id (s.alarms.filter fun a => p a.2) := by
  rw [h.alarms, pickWith, pickWith, List.filter_map, List.filter_filter, List.filter_filter]
  congr 1
  exact List.filter_congr fun a _ => Bool.and_comm _ _

theorem dueAlarms (h : Shows keep f s v) : v.dueAlarms = pickWith keep id s.dueAlarms := by
  have hfilter := h.filter_alarms fun time => time ≤ s.now
  rw [Scheduler.dueAlarms, h.now, hfilter, Scheduler.dueAlarms, pickWith, pickWith,
    filter_mergeSort (fun a b c => by simpa using Nat.le_trans) fun a b => by
      simpa using Nat.le_total a.2 b.2]
  exact (List.map_mergeSort (f := fun a : TaskId × Nat => (rank keep a.1, id a.2))
    fun a _ b _ => rfl).symm

theorem ring (h : Shows keep f s v) : Shows keep f s.ring v.ring := by
  have hcalled : v.dueAlarms.map Prod.fst = pick keep (s.dueAlarms.map Prod.fst) := by
    rw [h.dueAlarms, map_fst_pickWith]
  have hwaiting : v.alarms.filter (fun a => s.now < a.2) =
      pickWith keep id (s.alarms.filter fun a => s.now < a.2) :=
    h.filter_alarms fun time => s.now < time
  have hrung : Shows keep f
      { s with clock := ⟨s.now, s.now⟩, alarms := s.alarms.filter fun a => s.now < a.2 }
      { v with clock := ⟨s.now, s.now⟩, alarms := v.alarms.filter fun a => s.now < a.2 } :=
    ⟨rfl, h.nextTask, h.tasks, h.queue, hwaiting, h.aborted, h.results⟩
  rw [Scheduler.ring, Scheduler.ring, hcalled, h.now]
  exact hrung.change s.shared v.shared _

/-- When no selected alarm is due, nothing that is shown rings. -/
theorem ring_of_settled (h : Shows keep f s v) (hrung : v.clock.rung = v.now)
    (hdue : v.dueAlarms = []) : Shows keep f s.ring v := by
  have hnone : ∀ i ∈ s.dueAlarms.map Prod.fst, keep i = false := by
    intro i hi
    cases hk : keep i with
    | false => rfl
    | true =>
      have hmem := (mem_pick hk).mpr hi
      rw [← map_fst_pickWith keep id, ← h.dueAlarms, hdue] at hmem
      simp at hmem
  have hahead : v.alarms.filter (fun a => s.now < a.2) = v.alarms := by
    rw [List.filter_eq_self]
    intro a ha
    have hlength := congrArg List.length hdue
    rw [Scheduler.dueAlarms, List.length_mergeSort, List.length_nil, List.length_eq_zero_iff,
      List.filter_eq_nil_iff] at hlength
    have := hlength a ha
    rw [h.now] at this
    simpa using this
  have hclock : v.clock = ⟨s.now, s.now⟩ := by
    have hfields : v.clock = ⟨v.now, v.clock.rung⟩ := rfl
    rw [hfields, hrung, h.now]
  have hrung : Shows keep f
      { s with clock := ⟨s.now, s.now⟩, alarms := s.alarms.filter fun a => s.now < a.2 } v :=
    ⟨hclock, h.nextTask, h.tasks, h.queue,
      hahead.symm.trans (h.filter_alarms fun time => s.now < time), h.aborted, h.results⟩
  rw [Scheduler.ring]
  exact hrung.change_of_neg s.shared hnone

theorem mem_aborted (h : Shows keep f s v) (hn : keep n = true) :
    rank keep n ∈ v.aborted ↔ n ∈ s.aborted := by
  rw [h.aborted, mem_pick hn]

/-- What tasks are called matters only of those that are there. -/
theorem congr {g : τ → τ} (h : Shows keep f s v)
    (hfg : ∀ e ∈ s.tasks, keep e.1 = true → f e.2 = g e.2) : Shows keep g s v :=
  ⟨h.clock, h.nextTask, h.tasks.trans (pickWith_congr hfg), h.queue, h.alarms, h.aborted, h.results⟩

/-! ## Turns that call nobody and start nothing -/

section Turns

variable {b : Behaviour σ τ ρ}

/-- A selected task has its turn on either side and does the same there. -/
theorem attend_of_pos (h : Shows keep f s v) (hn : keep n = true)
    (hturn : ∀ t, s.task? n = some t → n ∉ s.aborted → ∃ a a' next,
      b.turn s.clock n t s.shared = ⟨a, [], [], next⟩ ∧
        b.turn v.clock (rank keep n) (f t) v.shared = ⟨a', [], [], next.rename f⟩) :
    Shows keep f (s.attend b n) (v.attend b (rank keep n)) := by
  have hqueue : v.queue.erase (rank keep n) = pick keep (s.queue.erase n) := by
    rw [h.queue, pick_erase_of_pos hn]
  have htask := h.task? hn
  cases hs : s.task? n with
  | none =>
    rw [hs] at htask
    rw [attend_nobody hs, attend_nobody htask]
    exact ⟨h.clock, h.nextTask, h.tasks, hqueue, h.alarms, h.aborted, h.results⟩
  | some t =>
    rw [hs] at htask
    have hclosed : v.tasks.filter (fun e => e.1 ≠ rank keep n) =
        pickWith keep f (s.tasks.filter fun e => e.1 ≠ n) := by
      rw [h.tasks, pickWith_filter_of_pos hn]
    have hsilent : v.alarms.filter (fun e => e.1 ≠ rank keep n) =
        pickWith keep id (s.alarms.filter fun e => e.1 ≠ n) := by
      rw [h.alarms, pickWith_filter_of_pos hn]
    have hcleared : v.aborted.filter (· ≠ rank keep n) =
        pick keep (s.aborted.filter (· ≠ n)) := by
      rw [h.aborted, pick_filter_of_pos hn]
    by_cases ha : n ∈ s.aborted
    · rw [attend_of_mem_aborted hs ha, attend_of_mem_aborted htask ((h.mem_aborted hn).mpr ha)]
      exact ⟨h.clock, h.nextTask, hclosed, hqueue, hsilent, hcleared, h.results⟩
    · have ha' : rank keep n ∉ v.aborted := fun hmem => ha ((h.mem_aborted hn).mp hmem)
      have hreplaced (t' : τ) : (v.tasks.map fun e =>
          if e.1 = rank keep n then (rank keep n, f t') else e) =
          pickWith keep f (s.tasks.map fun e => if e.1 = n then (n, t') else e) := by
        rw [h.tasks, pickWith_replaced_of_pos hn]
      obtain ⟨a, a', next, hnext, hnext'⟩ := hturn t hs ha
      cases next with
      | ended r =>
        rw [attend_ended hs ha hnext, attend_ended htask ha' hnext']
        refine ⟨h.clock, h.nextTask, hclosed, hqueue, hsilent, hcleared, ?_⟩
        simp only [h.results, pickWith_append, pickWith_cons_of_pos hn]
        rfl
      | resting t' =>
        rw [attend_resting hs ha hnext, attend_resting htask ha' hnext']
        exact ⟨h.clock, h.nextTask, hreplaced t', hqueue, h.alarms, h.aborted, h.results⟩
      | sleeping t' alarm =>
        rw [attend_sleeping hs ha hnext, attend_sleeping htask ha' hnext']
        refine ⟨h.clock, h.nextTask, hreplaced t', hqueue, ?_, h.aborted, h.results⟩
        simp only [hsilent, pickWith_append]
        cases alarm with
        | none => rfl
        | some time =>
          simp only [Option.toList_some, List.map_cons, List.map_nil, pickWith_cons_of_pos hn]
          rfl

/-- The turn of any other task is not seen. -/
theorem attend_of_neg (h : Shows keep f s v) (hn : keep n = false)
    (hturn : ∀ t, s.task? n = some t → n ∉ s.aborted → ∃ a next,
      b.turn s.clock n t s.shared = ⟨a, [], [], next⟩) : Shows keep f (s.attend b n) v := by
  have hqueue : v.queue = pick keep (s.queue.erase n) := by rw [h.queue, pick_erase_of_neg hn]
  cases hs : s.task? n with
  | none =>
    rw [attend_nobody hs]
    exact ⟨h.clock, h.nextTask, h.tasks, hqueue, h.alarms, h.aborted, h.results⟩
  | some t =>
    have hclosed : v.tasks = pickWith keep f (s.tasks.filter fun e => e.1 ≠ n) := by
      rw [h.tasks, pickWith_filter_of_neg hn]
    have hsilent : v.alarms = pickWith keep id (s.alarms.filter fun e => e.1 ≠ n) := by
      rw [h.alarms, pickWith_filter_of_neg hn]
    have hcleared : v.aborted = pick keep (s.aborted.filter (· ≠ n)) := by
      rw [h.aborted, pick_filter_of_neg hn]
    by_cases ha : n ∈ s.aborted
    · rw [attend_of_mem_aborted hs ha]
      exact ⟨h.clock, h.nextTask, hclosed, hqueue, hsilent, hcleared, h.results⟩
    · have hreplaced (t' : τ) : v.tasks =
          pickWith keep f (s.tasks.map fun e => if e.1 = n then (n, t') else e) := by
        rw [h.tasks, pickWith_replaced_of_neg hn]
      obtain ⟨a, next, hnext⟩ := hturn t hs ha
      cases next with
      | ended r =>
        rw [attend_ended hs ha hnext]
        refine ⟨h.clock, h.nextTask, hclosed, hqueue, hsilent, hcleared, ?_⟩
        have hnone : pickWith keep id [(n, r)] = [] := pickWith_cons_of_neg hn
        simp only [h.results, pickWith_append, hnone, List.append_nil]
      | resting t' =>
        rw [attend_resting hs ha hnext]
        exact ⟨h.clock, h.nextTask, hreplaced t', hqueue, h.alarms, h.aborted, h.results⟩
      | sleeping t' alarm =>
        rw [attend_sleeping hs ha hnext]
        refine ⟨h.clock, h.nextTask, hreplaced t', hqueue, ?_, h.aborted, h.results⟩
        have hnone : pickWith keep id (alarm.toList.map fun time => (n, time)) = [] := by
          cases alarm with
          | none => rfl
          | some time => exact pickWith_cons_of_neg hn
        rw [pickWith_append, hnone, List.append_nil, hsilent]

end Turns

/-- Where all is settled, what is shown is settled. -/
theorem isSettled (h : Shows keep f s v) {b : Behaviour σ τ ρ} (hs : s.IsSettled b) :
    v.IsSettled b := by
  rw [isSettled_iff] at hs ⊢
  obtain ⟨hqueue, hrung, hahead⟩ := hs
  refine ⟨by rw [h.queue, hqueue]; rfl, by rw [h.clock, h.now, hrung], ?_⟩
  rw [h.alarms, h.now]
  intro a ha
  obtain ⟨a', ha', rfl⟩ := List.mem_map.mp ha
  exact hahead a' (List.mem_of_mem_filter ha')

end Shows
end Scheduler
end EbmsMessaging
