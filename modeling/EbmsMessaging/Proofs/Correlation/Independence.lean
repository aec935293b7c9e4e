import EbmsMessaging.Proofs.Correlation.Delivery
import EbmsMessaging.Proofs.Correlation.KeyPart
import EbmsMessaging.Proofs.Correlation.Settling
import EbmsMessaging.Proofs.Scheduler.Shows

/-!
# Keys are independent

From a run of a room everything that concerns other keys is left out: their fetches, their values
and the ends of their tasks. What remains happens as before. The two rooms go side by side: a turn
of a task of the key is a turn in both, any other turn is one in the full room only. Both come to
rest, and a room comes to rest in one state only, so they are side by side again whenever they have
settled.
-/
namespace EbmsMessaging.Correlation

variable {α : Type}

/-- What is done to a room from outside, one thing after the other. The room settles when it is
told to, so that several things can happen before anyone has a turn. -/
inductive Step (α : Type) where
  | fetch (key : String) (limit : Nat)
  | startSweeper (period : Nat)
  | deposit (key : String) (a : α)
  | sweep (offset : Int)
  | advance (ms : Nat)
  | abort (id : TaskId)
  | settle

/-- The task that a step starts. -/
def Step.started? : Step α → Option RoomTask
  | fetch key limit => some (.fetching key limit)
  | startSweeper period => some (.sweeping ⟨period, none⟩)
  | _ => none

/-- A task fetches values of a key, or it sweeps all keys. -/
def RoomTask.concerns (key : String) : RoomTask → Bool
  | .fetching key' _ => key' = key
  | .waiting wait => wait.key = key
  | .sweeping _ => true

def RoomTask.renumber (cell : Nat → Bool) : RoomTask → RoomTask
  | .waiting wait => .waiting (wait.renumber cell)
  | task => task

/-- A task without the number of the cell where it waits. -/
def RoomTask.anywhere : RoomTask → RoomTask
  | .waiting wait => .waiting { wait with cell := 0 }
  | task => task

/-- The tasks of a run that concern a key. -/
def concerning (key : String) (steps : List (Step α)) (id : TaskId) : Bool :=
  (steps.filterMap Step.started?)[id]?.any (RoomTask.concerns key)

/-- A step with only a key and the tasks that concern it; nothing if it does not concern them. -/
def Step.alone? (key : String) (keep : TaskId → Bool) : Step α → Option (Step α)
  | fetch key' limit => if key' = key then some (.fetch key' limit) else none
  | deposit key' a => if key' = key then some (.deposit key' a) else none
  | abort id => if keep id then some (.abort (rank keep id)) else none
  | step => some step

namespace WaitingRoom

def perform (w : WaitingRoom α) : Step α → WaitingRoom α
  | .fetch key limit => w.move (.fetch key limit)
  | .startSweeper period => w.move (.startSweeper period)
  | .deposit key a => w.move (.deposit key a)
  | .sweep offset => w.move (.sweep offset)
  | .advance ms => w.move (.advance ms)
  | .abort id => w.move (.abort id)
  | .settle => w.settle

/-- The room after some steps from its beginning. -/
def atWork (p : Retention) (steps : List (Step α)) : WaitingRoom α := steps.foldl perform (start p)

theorem atWork_append (p : Retention) (steps : List (Step α)) (s : Step α) :
    atWork p (steps ++ [s]) = (atWork p steps).perform s := by
  rw [atWork, List.foldl_append]
  rfl

/-- The steps are a run. -/
theorem atWork_eq_after (p : Retention) (steps : List (Step α)) : ∃ moves : List (Move α),
    started moves = steps.filterMap Step.started? ∧ atWork p steps = after p moves := by
  induction steps using List.reverseRecOn with
  | nil => exact ⟨[], rfl, rfl⟩
  | append_singleton steps s ih =>
    obtain ⟨moves, hstarted, hafter⟩ := ih
    have hone (m : Move α) (hs : s.started? = m.started?)
        (hm : (atWork p steps).perform s = (atWork p steps).move m) :
        ∃ moves : List (Move α), started moves = (steps ++ [s]).filterMap Step.started? ∧
          atWork p (steps ++ [s]) = after p moves := by
      refine ⟨moves ++ [m], ?_, ?_⟩
      · rw [started_append, hstarted, List.filterMap_append, ← hs]
        rfl
      · rw [atWork_append, hm, hafter, after_append]
    cases s with
    | fetch key limit => exact hone (.fetch key limit) rfl rfl
    | startSweeper period => exact hone (.startSweeper period) rfl rfl
    | deposit key a => exact hone (.deposit key a) rfl rfl
    | sweep offset => exact hone (.sweep offset) rfl rfl
    | advance ms => exact hone (.advance ms) rfl rfl
    | abort id => exact hone (.abort id) rfl rfl
    | settle =>
      obtain ⟨more, hown, hsettle⟩ := settle_after p moves
      refine ⟨moves ++ more, ?_, ?_⟩
      · have hnone : more.filterMap Move.started? = [] := by
          refine List.filterMap_eq_nil_iff.mpr fun m hm => ?_
          rcases hown m hm with rfl | ⟨id, rfl⟩
          all_goals rfl
        rw [started, List.filterMap_append, hnone, List.append_nil, List.filterMap_append]
        exact hstarted.trans (List.append_nil _).symm
      · rw [atWork_append, hafter]
        exact hsettle

theorem orderly_atWork (p : Retention) (steps : List (Step α)) :
    (atWork p steps).Orderly (steps.filterMap Step.started?) := by
  obtain ⟨moves, hstarted, hafter⟩ := atWork_eq_after p steps
  rw [hafter, ← hstarted]
  exact orderly_after p moves

theorem alarmed_atWork (p : Retention) (steps : List (Step α)) : (atWork p steps).Alarmed := by
  obtain ⟨moves, -, hafter⟩ := atWork_eq_after p steps
  rw [hafter]
  exact alarmed_after p moves

/-! ## Two rooms side by side -/

/-- A room shows the selected tasks of another one, and its table is the part that belongs to the
key. -/
structure Mirrors (key : String) (keep cell : Nat → Bool) (w v : WaitingRoom α) : Prop where
  shown : Scheduler.Shows keep (RoomTask.renumber cell) w v
  part : w.shared.table.KeyPart key keep cell v.shared.table

/-- The selected tasks are those that were started for the key. -/
def Selects (key : String) (keep : TaskId → Bool) (orders : List RoomTask) : Prop :=
  ∀ id order, orders[id]? = some order → keep id = order.concerns key

theorem concerns_of_stemsFrom {key : String} {order task : RoomTask} (h : StemsFrom order task) :
    task.concerns key = order.concerns key := by
  cases task with
  | fetching key' limit =>
    obtain rfl := h
    rfl
  | waiting wait =>
    obtain ⟨limit, rfl, -⟩ := h
    rfl
  | sweeping sweeper =>
    obtain ⟨s, rfl⟩ := h
    rfl

section Turns

variable {key : String} {keep cell : Nat → Bool} {r r' : Room α} {id : TaskId} {task : RoomTask}

/-- What comes of the same attempt on either side. -/
theorem afterAttempt_own {t u : Table α} (h : t.KeyPart key keep cell u) (attempt : Attempt α)
    (r r' : Room α) : ∃ a a' next, r.afterAttempt (t, attempt) = ⟨a, [], [], next⟩ ∧
      r'.afterAttempt (u, attempt.renumber cell) =
        ⟨a', [], [], next.rename (RoomTask.renumber cell)⟩ ∧
      a.table.KeyPart key keep cell a'.table := by
  cases attempt with
  | ended outcome => exact ⟨_, _, _, rfl, rfl, h⟩
  | entered wait => exact ⟨_, _, _, rfl, rfl, h⟩
  | waiting wait => exact ⟨_, _, _, rfl, rfl, h⟩

theorem afterAttempt_other {t u : Table α} (h : t.KeyPart key keep cell u) (attempt : Attempt α)
    (r : Room α) : ∃ a next, r.afterAttempt (t, attempt) = ⟨a, [], [], next⟩ ∧
      a.table.KeyPart key keep cell u := by
  cases attempt with
  | ended outcome => exact ⟨_, _, rfl, h⟩
  | entered wait => exact ⟨_, _, rfl, h⟩
  | waiting wait => exact ⟨_, _, rfl, h⟩

/-- A task of the key does the same in both rooms. -/
theorem turn_own (h : r.table.KeyPart key keep cell r'.table)
    (hnew : cell r.table.nextId = true) (hid : keep id = true) (htask : task.concerns key = true)
    (hwait : ∀ wait, task = .waiting wait → cell wait.cell = true) (clock : Clock) :
    ∃ a a' next, Room.behaviour.turn clock id task r = ⟨a, [], [], next⟩ ∧
      Room.behaviour.turn clock (rank keep id) (task.renumber cell) r' =
        ⟨a', [], [], next.rename (RoomTask.renumber cell)⟩ ∧
      a.table.KeyPart key keep cell a'.table := by
  cases task with
  | fetching key' limit =>
    obtain rfl : key' = key := of_decide_eq_true htask
    obtain ⟨hpart, hattempt⟩ := h.fetch_own hnew hid clock.now limit
    obtain ⟨a, a', next, hnext, hnext', ha⟩ :=
      afterAttempt_own hpart (r.table.fetch clock.now id key' limit).2 r r'
    rw [← hattempt] at hnext'
    exact ⟨a, a', next, hnext, hnext', ha⟩
  | waiting wait =>
    obtain ⟨hpart, hattempt⟩ := h.resume_own (hwait wait rfl) hid clock
    obtain ⟨a, a', next, hnext, hnext', ha⟩ :=
      afterAttempt_own hpart (r.table.resume clock id wait).2 r r'
    rw [← hattempt] at hnext'
    exact ⟨a, a', next, hnext, hnext', ha⟩
  | sweeping sweeper =>
    simp only [Room.behaviour, Room.afterTick, RoomTask.renumber]
    by_cases hp : sweeper.period = 0
    · simp only [if_pos hp]
      exact ⟨r, r', _, rfl, rfl, h⟩
    · simp only [if_neg hp]
      exact ⟨_, _, _, rfl, rfl, h.sweepTimes clock.now _⟩

/-- What a task of another key does is not seen. -/
theorem turn_other {u : Table α} (h : r.table.KeyPart key keep cell u)
    (hnew : cell r.table.nextId = false) (hid : keep id = false)
    (htask : task.concerns key = false)
    (hwait : ∀ wait, task = .waiting wait → cell wait.cell = false) (clock : Clock) :
    ∃ a next, Room.behaviour.turn clock id task r = ⟨a, [], [], next⟩ ∧
      a.table.KeyPart key keep cell u := by
  cases task with
  | fetching key' limit =>
    have hne : key' ≠ key := of_decide_eq_false htask
    exact afterAttempt_other (h.fetch_other hne hnew hid clock.now limit) _ r
  | waiting wait =>
    exact afterAttempt_other (h.resume_other (hwait wait rfl) hid clock) _ r
  | sweeping sweeper => simp [RoomTask.concerns] at htask

end Turns

namespace Mirrors

variable {key : String} {keep cell : Nat → Bool} {w w' v : WaitingRoom α} {orders : List RoomTask}
  {id : TaskId}

/-- Whether the next cell is one of the key can be settled beforehand. -/
theorem extend (h : Mirrors key keep cell w v) (hw : w.Orderly orders) (flag : Bool) :
    ∃ cell' : Nat → Bool, cell' w.shared.table.nextId = flag ∧ Mirrors key keep cell' w v := by
  have hsame : ∀ i < w.shared.table.nextId,
      cell i = if i = w.shared.table.nextId then flag else cell i := fun i hi =>
    (if_neg (Nat.ne_of_lt hi)).symm
  refine ⟨fun i => if i = w.shared.table.nextId then flag else cell i, if_pos rfl, ?_, ?_⟩
  · refine h.shown.congr fun e he _ => ?_
    obtain ⟨i, task⟩ := e
    cases task with
    | waiting wait =>
      have hlt := hw.hosts.cell_lt (mem_crowdOf.mpr he)
      have hrank := rank_congr fun i hi => hsame i (Nat.lt_trans hi hlt)
      simp only [RoomTask.renumber, Wait.renumber, hrank]
    | fetching key limit => rfl
    | sweeping sweeper => rfl
  · exact h.part.congr hw.hosts.id_lt hsame

theorem concerns_of_task (hw : w.Orderly orders) (hkeep : Selects key keep orders)
    {task : RoomTask} (htask : w.task? id = some task) : task.concerns key = keep id := by
  obtain ⟨order, horder, hstem⟩ := hw.stems _ (Scheduler.mem_of_lookup htask)
  rw [hkeep id order horder, concerns_of_stemsFrom hstem]

/-- A task waits at a cell of its key. -/
theorem cell_of_wait (h : Mirrors key keep cell w v) (hw : w.Orderly orders) {wait : Wait}
    (htask : w.task? id = some (.waiting wait)) : cell wait.cell = decide (wait.key = key) := by
  obtain ⟨c, hc, hcell, hkey, -⟩ :=
    hw.hosts.placed _ (mem_crowdOf.mpr (Scheduler.mem_of_lookup htask))
  rw [← hcell, ← hkey]
  exact h.part.cell_eq c hc

theorem attend_own (h : Mirrors key keep cell w v) (hw : w.Orderly orders)
    (hkeep : Selects key keep orders) (hnew : cell w.shared.table.nextId = true)
    (hid : keep id = true) : Mirrors key keep cell (w.attend Room.behaviour id)
      (v.attend Room.behaviour (rank keep id)) := by
  have hturn : ∀ task, w.task? id = some task → ∃ a a' next,
      Room.behaviour.turn w.clock id task w.shared = ⟨a, [], [], next⟩ ∧
      Room.behaviour.turn v.clock (rank keep id) (task.renumber cell) v.shared =
        ⟨a', [], [], next.rename (RoomTask.renumber cell)⟩ ∧
      a.table.KeyPart key keep cell a'.table := by
    intro task htask
    have hconcerns := concerns_of_task hw hkeep htask
    rw [h.shown.clock]
    refine turn_own h.part hnew hid (hconcerns.trans hid) ?_ w.clock
    rintro wait rfl
    rw [h.cell_of_wait hw htask]
    exact hconcerns.trans hid
  refine ⟨h.shown.attend_of_pos hid fun task htask _ => ?_, ?_⟩
  · obtain ⟨a, a', next, hnext, hnext', -⟩ := hturn task htask
    exact ⟨a, a', next, hnext, hnext'⟩
  · have htask' := h.shown.task? hid
    rw [Scheduler.shared_attend, Scheduler.shared_attend, htask']
    cases htask : w.task? id with
    | none => exact h.part
    | some task =>
      have hconcerns := concerns_of_task hw hkeep htask
      by_cases ha : id ∈ w.aborted
      · simp only [Option.map_some, if_pos ha, if_pos ((h.shown.mem_aborted hid).mpr ha)]
        cases task with
        | waiting wait =>
          refine h.part.leave_own ?_ hid
          rw [h.cell_of_wait hw htask]
          exact hconcerns.trans hid
        | fetching key limit => exact h.part
        | sweeping sweeper => exact h.part
      · obtain ⟨a, a', next, hnext, hnext', hpart⟩ := hturn task htask
        have ha' : rank keep id ∉ v.aborted := fun hmem => ha ((h.shown.mem_aborted hid).mp hmem)
        simp only [Option.map_some, if_neg ha, if_neg ha', hnext, hnext']
        exact hpart

theorem attend_other (h : Mirrors key keep cell w v) (hw : w.Orderly orders)
    (hkeep : Selects key keep orders) (hnew : cell w.shared.table.nextId = false)
    (hid : keep id = false) : Mirrors key keep cell (w.attend Room.behaviour id) v := by
  have hturn : ∀ task, w.task? id = some task → ∃ a next,
      Room.behaviour.turn w.clock id task w.shared = ⟨a, [], [], next⟩ ∧
      a.table.KeyPart key keep cell v.shared.table := by
    intro task htask
    have hconcerns := concerns_of_task hw hkeep htask
    refine turn_other h.part hnew hid (hconcerns.trans hid) ?_ w.clock
    rintro wait rfl
    rw [h.cell_of_wait hw htask]
    exact hconcerns.trans hid
  refine ⟨h.shown.attend_of_neg hid fun task htask _ => ?_, ?_⟩
  · obtain ⟨a, next, hnext, -⟩ := hturn task htask
    exact ⟨a, next, hnext⟩
  · rw [Scheduler.shared_attend]
    cases htask : w.task? id with
    | none => exact h.part
    | some task =>
      have hconcerns := concerns_of_task hw hkeep htask
      by_cases ha : id ∈ w.aborted
      · simp only [if_pos ha]
        cases task with
        | waiting wait =>
          refine h.part.leave_other ?_
          rw [h.cell_of_wait hw htask]
          exact hconcerns.trans hid
        | fetching key limit => exact h.part
        | sweeping sweeper => exact h.part
      · obtain ⟨a, next, hnext, hpart⟩ := hturn task htask
        simp only [if_neg ha, hnext]
        exact hpart

/-- When alarms ring, those of the key ring in both rooms; if there are none, only in the full
one. -/
theorem ring (h : Mirrors key keep cell w v) (hqueue : w.queue = []) :
    ∃ v', Mirrors key keep cell (Scheduler.ring w) v' ∧
      (v' = v ∨ v.step? Room.behaviour = some v') := by
  have hqueue' : v.queue = [] := by rw [h.shown.queue, hqueue]; rfl
  have hshared (x : WaitingRoom α) : (Scheduler.ring x).shared = x.shared := shared_ring x
  cases hstep : v.step? Room.behaviour with
  | none =>
    simp only [Scheduler.step?, hqueue'] at hstep
    split at hstep
    · next hquiet =>
      refine ⟨v, ⟨h.shown.ring_of_settled hquiet.1 ?_, ?_⟩, .inl rfl⟩
      · exact List.isEmpty_iff.mp hquiet.2
      · rw [hshared]
        exact h.part
    · simp at hstep
  | some v' =>
    rcases Scheduler.step?_cases hstep with ⟨id, rest, hcons, -⟩ | ⟨-, rfl⟩
    · simp [hqueue'] at hcons
    · refine ⟨_, ⟨h.shown.ring, ?_⟩, .inr rfl⟩
      rw [hshared, hshared]
      exact h.part

/-- A step of the full room is one of the other room or is not seen there. -/
theorem step (h : Mirrors key keep cell w v) (hw : w.Orderly orders)
    (hkeep : Selects key keep orders) (hstep : w.step? Room.behaviour = some w') :
    Orderly orders w' ∧ ∃ cell' v', Mirrors key keep cell' w' v' ∧
      (v' = v ∨ v.step? Room.behaviour = some v') := by
  rcases Scheduler.step?_cases hstep with ⟨id, rest, hqueue, rfl⟩ | ⟨hqueue, rfl⟩
  · obtain ⟨cell', hnew, h'⟩ := h.extend hw (keep id)
    refine ⟨hw.turned (turned w id), cell', ?_⟩
    cases hid : keep id with
    | true =>
      have hqueue' : v.queue = rank keep id :: pick keep rest := by
        rw [h.shown.queue, hqueue, pick_cons_of_pos hid]
      refine ⟨_, h'.attend_own hw hkeep (hnew.trans hid) hid, .inr ?_⟩
      exact Scheduler.step?_of_queue _ _ hqueue'
    | false => exact ⟨v, h'.attend_other hw hkeep (hnew.trans hid) hid, .inl rfl⟩
  · obtain ⟨v', hv', hstep'⟩ := h.ring hqueue
    have hrung := hw.move .ring
    simp only [Move.started?, Option.toList_none, List.append_nil] at hrung
    exact ⟨hrung, cell, v', hv', hstep'⟩

theorem run (h : Mirrors key keep cell w v) (hw : w.Orderly orders)
    (hkeep : Selects key keep orders) (n : Nat) : ∃ cell' m,
      Mirrors key keep cell' (w.run Room.behaviour n) (v.run Room.behaviour m) := by
  induction n generalizing w v cell with
  | zero => exact ⟨cell, 0, h⟩
  | succ n ih =>
    rw [Scheduler.run]
    cases hstep : w.step? Room.behaviour with
    | none => exact ⟨cell, 0, h⟩
    | some w' =>
      obtain ⟨hw', cell', v', h', hv'⟩ := h.step hw hkeep hstep
      obtain ⟨cell'', m, hrun⟩ := ih h' hw'
      rcases hv' with rfl | hv'
      · exact ⟨cell'', m, hrun⟩
      · refine ⟨cell'', m + 1, ?_⟩
        rw [Scheduler.run, hv']
        exact hrun

/-- Settled, the rooms are side by side again. -/
theorem settle (h : Mirrors key keep cell w v) (hw : w.Orderly orders)
    (hkeep : Selects key keep orders) (hw' : w.Alarmed) (hv : v.Alarmed) :
    ∃ cell', Mirrors key keep cell' w.settle v.settle := by
  obtain ⟨cell', m, hrun⟩ := h.run hw hkeep (w.stepBound Room.behaviour)
  have hsettled := hrun.shown.isSettled (isSettled_settle hw')
  have hsame : v.run Room.behaviour m = v.settle :=
    Scheduler.run_eq_of_isSettled hsettled (isSettled_settle hv)
  rw [hsame] at hrun
  exact ⟨cell', hrun⟩

/-- An acknowledgement comes to both rooms, or only to the one with all requests. -/
theorem deposit (h : Mirrors key keep cell w v) (hw : w.Orderly orders) (key' : String) (a : α) :
    ∃ cell', Mirrors key keep cell' (w.perform (.deposit key' a))
      (((Step.deposit key' a).alone? key keep).toList.foldl WaitingRoom.perform v) := by
  obtain ⟨cell', hnew, h'⟩ := h.extend hw (decide (key' = key))
  refine ⟨cell', ?_⟩
  by_cases hkey : key' = key
  · subst hkey
    obtain ⟨hpart, -, hcalled⟩ := h'.part.deposit_own (hnew.trans (decide_eq_true rfl)) w.now a
    have hshown := h'.shown.change { w.shared with table := (w.shared.table.deposit w.now key' a).1 }
      { v.shared with table := (v.shared.table.deposit w.now key' a).1 }
      (w.shared.table.deposit w.now key' a).2.2
    rw [← hcalled] at hshown
    simp only [Step.alone?, if_true, Option.toList_some, List.foldl_cons, List.foldl_nil,
      WaitingRoom.perform, WaitingRoom.move, WaitingRoom.deposit, Scheduler.change, h.shown.now]
    refine ⟨hshown, ?_⟩
    rw [Scheduler.callAll_eq, Scheduler.callAll_eq]
    exact hpart
  · obtain ⟨hpart, hcalled⟩ :=
      h'.part.deposit_other hkey (hnew.trans (decide_eq_false hkey)) w.now a
    simp only [Step.alone?, if_neg hkey, Option.toList_none, List.foldl_nil,
      WaitingRoom.perform, WaitingRoom.move, WaitingRoom.deposit, Scheduler.change]
    refine ⟨h'.shown.change_of_neg _ hcalled, ?_⟩
    rw [Scheduler.callAll_eq]
    exact hpart

theorem abort (h : Mirrors key keep cell w v) (id : TaskId) :
    Mirrors key keep cell (w.perform (.abort id))
      (((Step.abort id : Step α).alone? key keep).toList.foldl WaitingRoom.perform v) := by
  cases hid : keep id with
  | true =>
    simp only [Step.alone?, hid, if_true]
    refine ⟨h.shown.abort_of_pos hid, ?_⟩
    simp only [Option.toList_some, List.foldl_cons, List.foldl_nil, WaitingRoom.perform, shared_abort]
    exact h.part
  | false =>
    simp only [Step.alone?, hid, Bool.false_eq_true, if_false]
    refine ⟨h.shown.abort_of_neg hid, ?_⟩
    simp only [Option.toList_none, List.foldl_nil, WaitingRoom.perform, shared_abort]
    exact h.part

/-- The two rooms go side by side, step by step. -/
theorem perform (h : Mirrors key keep cell w v) (hw : w.Orderly orders) (s : Step α)
    (hkeep : Selects key keep (orders ++ s.started?.toList)) (hw' : w.Alarmed) (hv : v.Alarmed) :
    ∃ cell', Mirrors key keep cell' (w.perform s)
      ((s.alone? key keep).toList.foldl WaitingRoom.perform v) := by
  have hnext {order : RoomTask} (hs : s.started? = some order) :
      keep w.nextTask = order.concerns key := by
    refine hkeep _ _ ?_
    rw [hw.nextTask_eq, hs]
    simp
  cases s with
  | fetch key' limit =>
    refine ⟨cell, ?_⟩
    by_cases hkey : key' = key
    · have hselected : keep w.nextTask = true := (hnext rfl).trans (decide_eq_true hkey)
      simp only [Step.alone?, if_pos hkey]
      exact ⟨h.shown.spawn_of_pos hselected _, h.part⟩
    · have hselected : keep w.nextTask = false := (hnext rfl).trans (decide_eq_false hkey)
      simp only [Step.alone?, if_neg hkey]
      exact ⟨h.shown.spawn_of_neg hselected _, h.part⟩
  | startSweeper period => exact ⟨cell, h.shown.spawn_of_pos (hnext rfl) _, h.part⟩
  | deposit key' a => exact h.deposit hw key' a
  | sweep offset =>
    refine ⟨cell, h.shown.change _ _ [], ?_⟩
    have hpart := h.part.sweep (w.now + offset)
    simp only [Step.alone?, Option.toList_some, List.foldl_cons, List.foldl_nil,
      WaitingRoom.perform, WaitingRoom.move, table_sweep, h.shown.now]
    exact hpart
  | advance ms => exact ⟨cell, h.shown.advance ms, h.part⟩
  | abort id => exact ⟨cell, h.abort id⟩
  | settle =>
    simp only [Step.started?, Option.toList_none, List.append_nil] at hkeep
    exact h.settle hw hkeep hw' hv

end Mirrors

theorem mirrors_atWork (p : Retention) {key : String} {keep : TaskId → Bool}
    {steps : List (Step α)} (hkeep : Selects key keep (steps.filterMap Step.started?)) :
    ∃ cell, Mirrors key keep cell (atWork p steps)
      (atWork p (steps.filterMap (Step.alone? key keep))) := by
  induction steps using List.reverseRecOn with
  | nil => exact ⟨fun _ => false, Scheduler.Shows.start _ _, .empty key keep _ p⟩
  | append_singleton steps s ih =>
    have hsplit : (steps ++ [s]).filterMap Step.started? =
        steps.filterMap Step.started? ++ s.started?.toList := by
      rw [List.filterMap_append]
      rfl
    rw [hsplit] at hkeep
    have hbefore : Selects key keep (steps.filterMap Step.started?) := fun id order horder =>
      hkeep id order (List.getElem?_append_left (List.getElem?_eq_some_iff.mp horder).1 ▸ horder)
    obtain ⟨cell, h⟩ := ih hbefore
    have hboth := h.perform (orderly_atWork p steps) s hkeep (alarmed_atWork p _)
      (alarmed_atWork p _)
    have hrest : atWork p ((steps ++ [s]).filterMap (Step.alone? key keep)) =
        (s.alone? key keep).toList.foldl WaitingRoom.perform
          (atWork p (steps.filterMap (Step.alone? key keep))) := by
      rw [List.filterMap_append, atWork, List.foldl_append]
      rfl
    rw [atWork_append, hrest]
    exact hboth

theorem selects_concerning (key : String) (steps : List (Step α)) (n : Nat) :
    Selects key (concerning key steps) ((steps.take n).filterMap Step.started?) := by
  intro id order horder
  have hall : (steps.filterMap Step.started?)[id]? = some order := by
    conv_lhs => rw [← List.take_append_drop n steps]
    rw [List.filterMap_append, List.getElem?_append_left (List.getElem?_eq_some_iff.mp horder).1]
    exact horder
  rw [concerning, hall]
  rfl

/-- After every step of a run a room and the room in which only one key is used agree on that key:
on the time, on the results so far, on the tasks that are left, on who is called and in which order,
on the value that lies there, and on whether a task waits for the next one. -/
theorem keys_are_independent (p : Retention) (key : String) (steps : List (Step α)) (n : Nat) :
    let keep := concerning key steps
    let w := atWork p (steps.take n)
    let v := atWork p ((steps.take n).filterMap (Step.alone? key keep))
    v.now = w.now ∧ v.results = pickWith keep id w.results ∧
      v.tasks.map (fun e => (e.1, e.2.anywhere)) = pickWith keep RoomTask.anywhere w.tasks ∧
      v.queue = pick keep w.queue ∧ v.alarms = pickWith keep id w.alarms ∧
      v.shared.table.contains key = w.shared.table.contains key ∧
      v.shared.table.valueAt? key = w.shared.table.valueAt? key ∧
      ∀ a, (v.deposit key a).1 = (w.deposit key a).1 := by
  intro keep w v
  obtain ⟨cell, h⟩ := mirrors_atWork p (selects_concerning key steps n)
  obtain ⟨cell', hnew, h'⟩ := h.extend (orderly_atWork p _) true
  have hfind := h.part.find?
  refine ⟨h.shown.now, h.shown.results, ?_, h.shown.queue, h.shown.alarms, ?_, ?_, fun a => ?_⟩
  · rw [h.shown.tasks, pickWith, pickWith, List.map_map]
    refine List.map_congr_left fun e _ => ?_
    obtain ⟨i, task⟩ := e
    cases task <;> rfl
  · rw [Table.contains, Table.contains, hfind, Option.isSome_map]
  · rw [Table.valueAt?, Table.valueAt?, hfind, Option.bind_map]
    rfl
  · obtain ⟨-, hwaited, -⟩ := h'.part.deposit_own hnew w.now a
    have hnow : v.now = w.now := h.shown.now
    simp only [WaitingRoom.deposit, hnow]
    exact hwaited

end WaitingRoom
end EbmsMessaging.Correlation
