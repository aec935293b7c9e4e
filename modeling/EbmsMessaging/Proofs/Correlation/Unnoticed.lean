import EbmsMessaging.Proofs.Correlation.Covering
import EbmsMessaging.Proofs.Correlation.Independence

/-!
# Sweeps of unused cells go unnoticed

Two rooms go through the same, but only in one of them sweeps remove cells that nobody uses. Every
task has its turns at the same times in both and does the same there, and the table of the other
room covers that of the first. So nothing that comes out of a room depends on those sweeps.
-/
namespace EbmsMessaging.Correlation

variable {α : Type}

def RoomTask.moved (f : Nat → Nat) : RoomTask → RoomTask
  | .waiting wait => .waiting (wait.moved f)
  | task => task

/-- Somebody waits at the cell, or there is a value in it. -/
def Cell.isUsed (c : Cell α) : Bool := c.hasValue || c.waiters != 0

namespace WaitingRoom

/-- What is to be seen of two rooms is the same: all but the numbers of the cells, and the cells that
nobody uses. -/
structure SameInUse (w v : WaitingRoom α) : Prop where
  now : v.now = w.now
  results : v.results = w.results
  tasks : v.tasks.map (fun e => (e.1, e.2.anywhere)) = w.tasks.map fun e => (e.1, e.2.anywhere)
  queue : v.queue = w.queue
  alarms : v.alarms = w.alarms
  /-- A value that arrives next finds somebody waiting for it or not. -/
  waiting : ∀ key a, (v.deposit key a).1 = (w.deposit key a).1
  /-- The values that a sweep would remove, as of any instant. -/
  expired : ∀ offset, (v.sweep offset).1.expired = (w.sweep offset).1.expired
  reports : v.shared.reports.map Removals.expired = w.shared.reports.map Removals.expired
  stats : { v.shared.table.stats with sweptUnused := 0 } =
    { w.shared.table.stats with sweptUnused := 0 }
  cells : ((w.shared.table.cells.filter Cell.isUsed).map Cell.contents).Perm
    ((v.shared.table.cells.filter Cell.isUsed).map Cell.contents)

/-- Two rooms in the same situation, where the table of the second covers that of the first. -/
structure Alongside (f : Nat → Nat) (w v : WaitingRoom α) : Prop where
  shown : Scheduler.Shows (fun _ => true) (RoomTask.moved f) w v
  covers : w.shared.table.Covers f v.shared.table
  reports : v.shared.reports.map Removals.expired = w.shared.reports.map Removals.expired

section Turns

variable {f : Nat → Nat} {r r' : Room α} {crowd crowd' : Crowd} {queue queue' : List TaskId}
  {id : TaskId} {task : RoomTask}

/-- What comes of the same attempt on either side. -/
theorem afterAttempt_moved {t u : Table α} (h : t.Covers f u) (attempt : Attempt α) (r r' : Room α)
    (hreports : r'.reports.map Removals.expired = r.reports.map Removals.expired) :
    ∃ a a' next, r.afterAttempt (t, attempt) = ⟨a, [], [], next⟩ ∧
      r'.afterAttempt (u, attempt.moved f) = ⟨a', [], [], next.rename (RoomTask.moved f)⟩ ∧
      a.table.Covers f a'.table ∧
      a'.reports.map Removals.expired = a.reports.map Removals.expired := by
  cases attempt with
  | ended outcome => exact ⟨_, _, _, rfl, rfl, h, hreports⟩
  | entered wait => exact ⟨_, _, _, rfl, rfl, h, hreports⟩
  | waiting wait => exact ⟨_, _, _, rfl, rfl, h, hreports⟩

/-- A task does the same in both rooms. -/
theorem turn_moved (h : r.table.Covers f r'.table) (ht : r.table.Hosts crowd queue)
    (hu : r'.table.Hosts crowd' queue') (hsleep : r.table.Lodges crowd)
    (hreports : r'.reports.map Removals.expired = r.reports.map Removals.expired) (clock : Clock)
    (hnew : ∀ key limit, task = .fetching key limit →
      f r.table.nextId = (r'.table.withCell clock.now key).2.id)
    (hwait : ∀ wait, task = .waiting wait → ∃ c ∈ r.table.known, c.id = wait.cell) :
    ∃ a a' next, Room.behaviour.turn clock id task r = ⟨a, [], [], next⟩ ∧
      Room.behaviour.turn clock id (task.moved f) r' =
        ⟨a', [], [], next.rename (RoomTask.moved f)⟩ ∧
      a.table.Covers f a'.table ∧
      a'.reports.map Removals.expired = a.reports.map Removals.expired := by
  cases task with
  | fetching key limit =>
    obtain ⟨hcovers, hattempt⟩ := h.fetch hu (hnew key limit rfl) id limit
    obtain ⟨a, a', next, hnext, hnext', ha⟩ :=
      afterAttempt_moved hcovers (r.table.fetch clock.now id key limit).2 r r' hreports
    rw [← hattempt] at hnext'
    exact ⟨a, a', next, hnext, hnext', ha⟩
  | waiting wait =>
    obtain ⟨hcovers, hattempt⟩ := h.resume ht hu (hwait wait rfl) clock id
    obtain ⟨a, a', next, hnext, hnext', ha⟩ :=
      afterAttempt_moved hcovers (r.table.resume clock id wait).2 r r' hreports
    rw [← hattempt] at hnext'
    exact ⟨a, a', next, hnext, hnext', ha⟩
  | sweeping sweeper =>
    simp only [Room.behaviour, Room.afterTick, RoomTask.moved]
    by_cases hp : sweeper.period = 0
    · simp only [if_pos hp]
      exact ⟨r, r', _, rfl, rfl, h, hreports⟩
    · simp only [if_neg hp]
      obtain ⟨hcovers, hswept⟩ := h.sweepTimes ht hu hsleep clock.now (sweeper.tick clock).1
      refine ⟨_, _, _, rfl, rfl, hcovers, ?_⟩
      rw [List.map_append, List.map_append, hreports, hswept]

end Turns

namespace Alongside

variable {f : Nat → Nat} {w v : WaitingRoom α} {orders orders' : List RoomTask} {id : TaskId}

/-- What the number of the next cell stands for can be settled beforehand. -/
theorem extend (h : Alongside f w v) (hw : w.Orderly orders) (n : Nat) :
    ∃ f', f' w.shared.table.nextId = n ∧ Alongside f' w v := by
  have hsame : ∀ i < w.shared.table.nextId,
      (if i = w.shared.table.nextId then n else f i) = f i := fun i hi =>
    if_neg (Nat.ne_of_lt hi)
  refine ⟨fun i => if i = w.shared.table.nextId then n else f i, if_pos rfl, ?_, ?_, h.reports⟩
  · refine h.shown.congr fun e he _ => ?_
    obtain ⟨i, task⟩ := e
    cases task with
    | waiting wait =>
      simp only [RoomTask.moved, Wait.moved, hsame _ (hw.hosts.cell_lt (mem_crowdOf.mpr he))]
    | fetching key limit => rfl
    | sweeping sweeper => rfl
  · exact h.covers.congr fun c hc => hsame _ (hw.hosts.id_lt c hc)

theorem exists_cell (hw : w.Orderly orders) {wait : Wait} (htask : w.task? id = some (.waiting wait)) :
    ∃ c ∈ w.shared.table.known, c.id = wait.cell := by
  obtain ⟨c, hc, hcell, -⟩ :=
    hw.hosts.placed _ (mem_crowdOf.mpr (Scheduler.mem_of_lookup htask))
  exact ⟨c, hc, hcell⟩

theorem task? (h : Alongside f w v) (id : TaskId) :
    v.task? id = (w.task? id).map (RoomTask.moved f) := by
  have htask := h.shown.task? (n := id) rfl
  rwa [rank_all] at htask

/-- Whoever is dropped leaves both rooms. -/
theorem drop (h : Alongside f w v) (hw : w.Orderly orders) (hv : v.Orderly orders')
    {task : RoomTask} (htask : w.task? id = some task) :
    (Room.behaviour.drop w.now id task w.shared).table.Covers f
        (Room.behaviour.drop v.now id (task.moved f) v.shared).table ∧
      (Room.behaviour.drop v.now id (task.moved f) v.shared).reports.map Removals.expired =
        (Room.behaviour.drop w.now id task w.shared).reports.map Removals.expired := by
  cases task with
  | waiting wait =>
    obtain ⟨c, hc, hcell⟩ := exists_cell hw htask
    have hleft := h.covers.leave hv.hosts hc id
    rw [hcell] at hleft
    exact ⟨hleft, h.reports⟩
  | fetching key limit => exact ⟨h.covers, h.reports⟩
  | sweeping sweeper => exact ⟨h.covers, h.reports⟩

theorem attend (h : Alongside f w v) (hw : w.Orderly orders) (hv : v.Orderly orders')
    (hsleep : w.Lodged)
    (hnew : ∀ key limit, w.task? id = some (.fetching key limit) →
      f w.shared.table.nextId = (v.shared.table.withCell w.now key).2.id) :
    Alongside f (w.attend Room.behaviour id) (v.attend Room.behaviour id) := by
  have hturn : ∀ task, w.task? id = some task → ∃ a a' next,
      Room.behaviour.turn w.clock id task w.shared = ⟨a, [], [], next⟩ ∧
      Room.behaviour.turn v.clock id (task.moved f) v.shared =
        ⟨a', [], [], next.rename (RoomTask.moved f)⟩ ∧
      a.table.Covers f a'.table ∧
      a'.reports.map Removals.expired = a.reports.map Removals.expired := by
    intro task htask
    rw [h.shown.clock]
    refine turn_moved h.covers hw.hosts hv.hosts hsleep h.reports w.clock ?_ ?_
    · rintro key limit rfl
      exact hnew key limit htask
    · rintro wait rfl
      exact exists_cell hw htask
  have hshown : Scheduler.Shows (fun _ => true) (RoomTask.moved f) (w.attend Room.behaviour id)
      (v.attend Room.behaviour (rank (fun _ => true) id)) := by
    refine h.shown.attend_of_pos rfl fun task htask _ => ?_
    obtain ⟨a, a', next, hnext, hnext', -⟩ := hturn task htask
    rw [rank_all]
    exact ⟨a, a', next, hnext, hnext'⟩
  rw [rank_all] at hshown
  have htask' := h.task? id
  have hshared : (w.attend Room.behaviour id).shared.table.Covers f
        (v.attend Room.behaviour id).shared.table ∧
      (v.attend Room.behaviour id).shared.reports.map Removals.expired =
        (w.attend Room.behaviour id).shared.reports.map Removals.expired := by
    rw [Scheduler.shared_attend, Scheduler.shared_attend, htask']
    cases htask : w.task? id with
    | none => exact ⟨h.covers, h.reports⟩
    | some task =>
      have haborted : id ∈ v.aborted ↔ id ∈ w.aborted := by rw [h.shown.aborted, pick_all]
      by_cases ha : id ∈ w.aborted
      · simp only [Option.map_some, if_pos ha, if_pos (haborted.mpr ha)]
        exact h.drop hw hv htask
      · obtain ⟨a, a', next, hnext, hnext', hafter⟩ := hturn task htask
        simp only [Option.map_some, if_neg ha, if_neg fun hmem => ha (haborted.mp hmem), hnext,
          hnext']
        exact hafter
  exact ⟨hshown, hshared.1, hshared.2⟩

theorem deposit (h : Alongside f w v) (hw : w.Orderly orders) (hv : v.Orderly orders')
    (key : String) (a : α) :
    ∃ f', Alongside f' (w.move (.deposit key a)) (v.move (.deposit key a)) := by
  obtain ⟨f', hnew, h'⟩ := h.extend hw (v.shared.table.withCell w.now key).2.id
  obtain ⟨hcovers, hsame⟩ := h'.covers.deposit hv.hosts hnew a
  have hshown := h'.shown.change
    { w.shared with table := (w.shared.table.deposit w.now key a).1 }
    { v.shared with table := (v.shared.table.deposit w.now key a).1 }
    (w.shared.table.deposit w.now key a).2.2
  rw [pick_all] at hshown
  simp only [WaitingRoom.move, WaitingRoom.deposit, Scheduler.change, h.shown.now, hsame]
  refine ⟨f', hshown, ?_, ?_⟩
  · rw [Scheduler.callAll_eq, Scheduler.callAll_eq]
    exact hcovers
  · rw [Scheduler.callAll_eq, Scheduler.callAll_eq]
    exact h.reports

theorem turn (h : Alongside f w v) (hw : w.Orderly orders) (hv : v.Orderly orders')
    (hsleep : w.Lodged) (id : TaskId) :
    ∃ f', Alongside f' (w.move (.turn id)) (v.move (.turn id)) := by
  cases htask : w.task? id with
  | none => exact ⟨f, h.attend hw hv hsleep fun key limit hfetch => by simp [htask] at hfetch⟩
  | some task =>
    -- Only a task that begins to fetch a value may need a new cell.
    obtain ⟨n, hn⟩ : ∃ n, ∀ key limit, task = .fetching key limit →
        n = (v.shared.table.withCell w.now key).2.id := by
      cases task with
      | fetching key limit => exact ⟨_, fun _ _ heq => by obtain ⟨rfl, rfl⟩ := heq; rfl⟩
      | waiting wait => exact ⟨0, by simp⟩
      | sweeping sweeper => exact ⟨0, by simp⟩
    obtain ⟨f', hnew, h'⟩ := h.extend hw n
    refine ⟨f', h'.attend hw hv hsleep fun key limit hfetch => hnew.trans (hn key limit ?_)⟩
    exact Option.some.inj (htask.symm.trans hfetch)

/-- A move keeps the rooms side by side. -/
theorem move (h : Alongside f w v) (hw : w.Orderly orders) (hv : v.Orderly orders')
    (hsleep : w.Lodged) (m : Move α) : ∃ f', Alongside f' (w.move m) (v.move m) := by
  cases m with
  | fetch key limit =>
    exact ⟨f, h.shown.spawn_of_pos rfl (.fetching key limit), h.covers, h.reports⟩
  | startSweeper period =>
    exact ⟨f, h.shown.spawn_of_pos rfl (.sweeping ⟨period, none⟩), h.covers, h.reports⟩
  | deposit key a => exact h.deposit hw hv key a
  | sweep offset =>
    obtain ⟨hcovers, -⟩ := h.covers.sweep hw.hosts hv.hosts hsleep (w.now + offset)
    have hshown := h.shown.change { w.shared with table := (w.shared.table.sweep (w.now + offset)).1 }
      { v.shared with table := (v.shared.table.sweep (w.now + offset)).1 } []
    rw [pick_all] at hshown
    simp only [WaitingRoom.move, WaitingRoom.sweep, Scheduler.change, h.shown.now]
    exact ⟨f, hshown, hcovers, h.reports⟩
  | advance ms => exact ⟨f, h.shown.advance ms, h.covers, h.reports⟩
  | abort id =>
    have hshown := h.shown.abort_of_pos (n := id) rfl
    rw [rank_all] at hshown
    refine ⟨f, hshown, ?_, ?_⟩
    · rw [shared_abort, shared_abort]
      exact h.covers
    · rw [shared_abort, shared_abort]
      exact h.reports
  | turn id => exact h.turn hw hv hsleep id
  | ring =>
    refine ⟨f, h.shown.ring, ?_, ?_⟩
    · rw [shared_ring, shared_ring]
      exact h.covers
    · rw [shared_ring, shared_ring]
      exact h.reports

/-- By themselves both rooms do the same next, if anything. -/
theorem step (h : Alongside f w v) :
    (w.step? Room.behaviour = none ∧ v.step? Room.behaviour = none) ∨
      ∃ m : Move α, w.step? Room.behaviour = some (w.move m) ∧
        v.step? Room.behaviour = some (v.move m) ∧ m.started? = none := by
  have hqueue : v.queue = w.queue := by rw [h.shown.queue, pick_all]
  cases hnext : w.queue with
  | cons id rest =>
    refine .inr ⟨.turn id, ?_, ?_, rfl⟩
    · exact Scheduler.step?_of_queue _ _ hnext
    · exact Scheduler.step?_of_queue _ _ (hqueue.trans hnext)
  | nil =>
    have hdue : v.dueAlarms.isEmpty = w.dueAlarms.isEmpty := by
      rw [h.shown.dueAlarms, pickWith_all, List.isEmpty_map]
    simp only [Scheduler.step?, hqueue, hnext, hdue, h.shown.clock, h.shown.now]
    split
    · exact .inl ⟨rfl, rfl⟩
    · exact .inr ⟨.ring, rfl, rfl, rfl⟩

/-- So they are side by side however far they are run. -/
theorem run (h : Alongside f w v) (hw : w.Orderly orders) (hv : v.Orderly orders')
    (hsleep : w.Lodged) (n : Nat) :
    ∃ f', Alongside f' (w.run Room.behaviour n) (v.run Room.behaviour n) := by
  induction n generalizing w v f with
  | zero => exact ⟨f, h⟩
  | succ n ih =>
    rw [Scheduler.run, Scheduler.run]
    rcases h.step with ⟨hnone, hnone'⟩ | ⟨m, hsome, hsome', hm⟩
    · rw [hnone, hnone']
      exact ⟨f, h⟩
    · rw [hsome, hsome']
      obtain ⟨f', h'⟩ := h.move hw hv hsleep m
      have hw' := hw.move m
      have hv' := hv.move m
      rw [hm, Option.toList_none, List.append_nil] at hw' hv'
      exact ih h' hw' hv' (hsleep.move hw m)

theorem settle (h : Alongside f w v) (hw : w.Orderly orders) (hv : v.Orderly orders')
    (hsleep : w.Lodged) : ∃ f', Alongside f' w.settle v.settle := by
  have hwork (tasks : List (TaskId × RoomTask)) :
      tasks.foldr (fun t n => Room.behaviour.work (σ := Room α) t.2 + n) 0 = 0 := by
    induction tasks with
    | nil => rfl
    | cons t ts ih => rw [List.foldr_cons, ih]; rfl
  have hbound : v.stepBound Room.behaviour = w.stepBound Room.behaviour := by
    simp only [Scheduler.stepBound, hwork, h.shown.queue, h.shown.tasks, pick_all, pickWith_all,
      List.length_map]
  rw [WaitingRoom.settle, WaitingRoom.settle, Scheduler.settle, Scheduler.settle, hbound]
  exact h.run hw hv hsleep _

theorem perform (h : Alongside f w v) (hw : w.Orderly orders) (hv : v.Orderly orders')
    (hsleep : w.Lodged) (s : Step α) : ∃ f', Alongside f' (w.perform s) (v.perform s) := by
  cases s with
  | fetch key limit => exact h.move hw hv hsleep (.fetch key limit)
  | startSweeper period => exact h.move hw hv hsleep (.startSweeper period)
  | deposit key a => exact h.move hw hv hsleep (.deposit key a)
  | sweep offset => exact h.move hw hv hsleep (.sweep offset)
  | advance ms => exact h.move hw hv hsleep (.advance ms)
  | abort id => exact h.move hw hv hsleep (.abort id)
  | settle => exact h.settle hw hv hsleep

/-- Side by side the rooms look the same. -/
theorem sameInUse (h : Alongside f w v) (hw : w.Orderly orders) (hv : v.Orderly orders')
    (hsleep : w.Lodged) : SameInUse w v where
  now := h.shown.now
  results := by simp [h.shown.results, pickWith_all]
  tasks := by
    rw [h.shown.tasks, pickWith_all, List.map_map]
    refine List.map_congr_left fun e _ => ?_
    obtain ⟨i, task⟩ := e
    cases task <;> rfl
  queue := by rw [h.shown.queue, pick_all]
  alarms := by simp [h.shown.alarms, pickWith_all]
  waiting key a := by
    obtain ⟨f', hnew, h'⟩ := h.extend hw (v.shared.table.withCell w.now key).2.id
    obtain ⟨-, hsame⟩ := h'.covers.deposit hv.hosts hnew a
    simp only [WaitingRoom.deposit, h.shown.now, hsame]
  expired offset := by
    obtain ⟨-, hcount⟩ := h.covers.sweep hw.hosts hv.hosts hsleep (w.now + offset)
    simp only [WaitingRoom.sweep, h.shown.now, hcount]
  reports := h.reports
  stats := by rw [h.covers.stats]
  cells := by
    refine h.covers.perm_contents hw.hosts hv.hosts (fun c d htwin => ?_) fun d hidle => ?_
    · rw [Cell.isUsed, Cell.hasValue, htwin.slot, htwin.waiters, Cell.isUsed, Cell.hasValue]
    · simp [Cell.isUsed, Cell.hasValue, hidle.slot, hidle.waiters]

end Alongside

theorem lodged_atWork (p : Retention) (steps : List (Step α)) : (atWork p steps).Lodged := by
  obtain ⟨moves, -, hafter⟩ := atWork_eq_after p steps
  rw [hafter]
  exact lodged_after p moves

section Runs

variable (valueLimit : Nat) (emptyLimit : Option Nat)

theorem alongside_start : Alongside id (start ⟨valueLimit, emptyLimit⟩ : WaitingRoom α)
    (start ⟨valueLimit, none⟩) :=
  ⟨.start _ _, .empty id valueLimit emptyLimit, rfl⟩

theorem alongside_after (moves : List (Move α)) :
    ∃ f, Alongside f (after ⟨valueLimit, emptyLimit⟩ moves) (after ⟨valueLimit, none⟩ moves) := by
  induction moves using List.reverseRecOn with
  | nil => exact ⟨id, alongside_start valueLimit emptyLimit⟩
  | append_singleton moves m ih =>
    obtain ⟨f, h⟩ := ih
    rw [after_append, after_append]
    exact h.move (orderly_after _ moves) (orderly_after _ moves) (lodged_after _ moves) m

theorem alongside_atWork (steps : List (Step α)) : ∃ f, Alongside f
    (atWork ⟨valueLimit, emptyLimit⟩ steps) (atWork ⟨valueLimit, none⟩ steps) := by
  induction steps using List.reverseRecOn with
  | nil => exact ⟨id, alongside_start valueLimit emptyLimit⟩
  | append_singleton steps s ih =>
    obtain ⟨f, h⟩ := ih
    rw [atWork_append, atWork_append]
    exact h.perform (orderly_atWork _ steps) (orderly_atWork _ steps) (lodged_atWork _ steps) s

/-- After every run, and so at each of its moments, a room whose sweeps remove unused cells looks the
same as one where they do not. It makes no difference in which order tasks have their turns, or
whether the room settles between what is done to it. -/
theorem unused_sweeps_unnoticed (window : Nat) :
    (∀ moves : List (Move α),
      SameInUse (after ⟨valueLimit, some window⟩ moves) (after ⟨valueLimit, none⟩ moves)) ∧
    ∀ steps : List (Step α),
      SameInUse (atWork ⟨valueLimit, some window⟩ steps) (atWork ⟨valueLimit, none⟩ steps) := by
  constructor
  · intro moves
    obtain ⟨f, h⟩ := alongside_after valueLimit (some window) moves
    exact h.sameInUse (orderly_after _ moves) (orderly_after _ moves) (lodged_after _ moves)
  · intro steps
    obtain ⟨f, h⟩ := alongside_atWork valueLimit (some window) steps
    exact h.sameInUse (orderly_atWork _ steps) (orderly_atWork _ steps) (lodged_atWork _ steps)

end Runs
end WaitingRoom
end EbmsMessaging.Correlation
