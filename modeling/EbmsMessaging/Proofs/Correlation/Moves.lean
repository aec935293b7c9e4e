import EbmsMessaging.Correlation.WaitingRoom
import EbmsMessaging.Proofs.Scheduler

/-!
# Runs of a waiting room

A run is a list of moves. Tasks begin to fetch, values arrive, sweeps come at any instant, time
passes, tasks are dropped, and the tasks have their turns and the alarms ring, all in any order.
The room at work makes some of these runs: what it does until it is settled is a list of turns and
ringings. `Turned` says once what a turn can bring about.
-/
namespace EbmsMessaging.Correlation

inductive Move (α : Type) where
  | fetch (key : String) (limit : Nat)
  | startSweeper (period : Nat)
  | deposit (key : String) (a : α)
  /-- A sweep from outside, as of an instant before or after the present one. -/
  | sweep (offset : Int)
  | advance (ms : Nat)
  | abort (id : TaskId)
  | turn (id : TaskId)
  | ring
deriving DecidableEq

variable {α : Type}

/-- The task that a move starts. -/
def Move.started? : Move α → Option RoomTask
  | fetch key limit => some (.fetching key limit)
  | startSweeper period => some (.sweeping ⟨period, none⟩)
  | _ => none

/-- The tasks that were started, each at the place of its number. -/
def started (moves : List (Move α)) : List RoomTask := moves.filterMap Move.started?

namespace WaitingRoom

def move (w : WaitingRoom α) : Move α → WaitingRoom α
  | .fetch key limit => w.spawn (.fetching key limit)
  | .startSweeper period => w.spawn (.sweeping ⟨period, none⟩)
  | .deposit key a => (w.deposit key a).2
  | .sweep offset => (w.sweep offset).2
  | .advance ms => w.advance ms
  | .abort id => Scheduler.abort w id
  | .turn id => w.attend Room.behaviour id
  | .ring => w.ring

/-- The room after a run from its beginning. -/
def after (p : Retention) (moves : List (Move α)) : WaitingRoom α := moves.foldl move (start p)

/-- A move sweeps as of an instant: from outside, or at the turn of a sweeper that has a tick to
make up for. -/
def SweepsAsOf (w : WaitingRoom α) (m : Move α) (asOf : Int) : Prop :=
  match m with
  | .sweep offset => asOf = w.now + offset
  | .turn id => asOf = w.now ∧ id ∉ w.aborted ∧
      ∃ sweeper, w.task? id = some (.sweeping sweeper) ∧ sweeper.period ≠ 0 ∧
        (sweeper.tick w.clock).1 ≠ 0
  | _ => False

@[simp] theorem after_nil (p : Retention) : (after p [] : WaitingRoom α) = start p := rfl

theorem started_append (moves : List (Move α)) (m : Move α) :
    started (moves ++ [m]) = started moves ++ m.started?.toList := by
  rw [started, List.filterMap_append]
  rfl

/-- A task keeps its number. -/
theorem getElem?_started_of_prefix {before moves : List (Move α)} (h : before <+: moves) {n : Nat}
    {task : RoomTask} (hn : (started before)[n]? = some task) :
    (started moves)[n]? = some task := by
  obtain ⟨rest, rfl⟩ := h
  rw [started, List.filterMap_append, ← started,
    List.getElem?_append_left (List.getElem?_eq_some_iff.mp hn).1]
  exact hn

@[simp] theorem after_append (p : Retention) (moves : List (Move α)) (m : Move α) :
    after p (moves ++ [m]) = (after p moves).move m := by
  simp [after]

/-- At some step of a run, in the state before it, `P` holds of what happens. -/
def Occurs (p : Retention) (moves : List (Move α)) (P : WaitingRoom α → Move α → Prop) : Prop :=
  ∃ before m, before ++ [m] <+: moves ∧ P (after p before) m

theorem not_occurs_nil (p : Retention) (P : WaitingRoom α → Move α → Prop) : ¬Occurs p [] P := by
  rintro ⟨before, m, hp, -⟩
  simpa using hp.length_le

theorem occurs_append {p : Retention} {moves : List (Move α)} {m : Move α}
    {P : WaitingRoom α → Move α → Prop} :
    Occurs p (moves ++ [m]) P ↔ Occurs p moves P ∨ P (after p moves) m := by
  constructor
  · rintro ⟨before, m', hp, h⟩
    rcases List.prefix_concat_iff.mp hp with heq | hp
    · obtain ⟨rfl, rfl⟩ := List.append_inj' heq rfl |>.imp_right List.singleton_inj.mp
      exact .inr h
    · exact .inl ⟨before, m', hp, h⟩
  · rintro (⟨before, m', hp, h⟩ | h)
    · exact ⟨before, m', hp.trans (List.prefix_append _ _), h⟩
    · exact ⟨moves, m, List.prefix_rfl, h⟩

/-- What a room does by itself is a list of turns and ringings. -/
theorem run_eq_foldl (n : Nat) (w : WaitingRoom α) : ∃ moves : List (Move α),
    (∀ m ∈ moves, m = .ring ∨ ∃ id, m = .turn id) ∧
      w.run Room.behaviour n = moves.foldl move w := by
  refine Scheduler.run_keeps (P := fun v => ∃ moves : List (Move α),
    (∀ m ∈ moves, m = .ring ∨ ∃ id, m = .turn id) ∧ v = moves.foldl move w) ?_
    ⟨[], by simp, rfl⟩ n
  rintro s v ⟨moves, hown, rfl⟩ hs
  have hone {m : Move α} (hm : m = .ring ∨ ∃ id, m = .turn id) :
      ∀ m' ∈ moves ++ [m], m' = .ring ∨ ∃ id, m' = .turn id :=
    List.forall_mem_append.mpr ⟨hown, List.forall_mem_singleton.mpr hm⟩
  rcases Scheduler.step?_cases hs with ⟨id, rest, -, rfl⟩ | ⟨-, rfl⟩
  · exact ⟨moves ++ [.turn id], hone (.inr ⟨id, rfl⟩), by rw [List.foldl_concat]; rfl⟩
  · exact ⟨moves ++ [.ring], hone (.inl rfl), by rw [List.foldl_concat]; rfl⟩

/-- A run may go on with the settling of the room. -/
theorem settle_after (p : Retention) (moves : List (Move α)) : ∃ more : List (Move α),
    (∀ m ∈ more, m = .ring ∨ ∃ id, m = .turn id) ∧
      (after p moves).settle = after p (moves ++ more) := by
  obtain ⟨more, hown, heq⟩ := run_eq_foldl _ (after p moves)
  exact ⟨more, hown, by rw [settle, Scheduler.settle, heq, after, after, List.foldl_append]⟩

/-- Only a turn ends tasks or changes them. -/
theorem tasks_and_results_of_not_turn (w : WaitingRoom α) {m : Move α}
    (h : ∀ id, m ≠ .turn id) : (w.move m).results = w.results ∧
      (w.move m).tasks = w.tasks ++ m.started?.toList.map fun t => (w.nextTask, t) := by
  cases m with
  | fetch key limit => exact ⟨rfl, rfl⟩
  | startSweeper period => exact ⟨rfl, rfl⟩
  | deposit key a =>
    simp only [move, deposit, Scheduler.change, Scheduler.callAll_eq]
    exact ⟨trivial, (List.append_nil _).symm⟩
  | sweep offset =>
    simp only [move, sweep, Scheduler.change, Scheduler.callAll_eq]
    exact ⟨trivial, (List.append_nil _).symm⟩
  | advance ms => exact ⟨rfl, (List.append_nil _).symm⟩
  | abort id =>
    rw [move]
    rcases Scheduler.abort_cases w id with heq | heq
    all_goals
      rw [heq]
      exact ⟨rfl, (List.append_nil _).symm⟩
  | turn id => exact absurd rfl (h id)
  | ring =>
    simp only [move, Scheduler.ring, Scheduler.callAll_eq]
    exact ⟨trivial, (List.append_nil _).symm⟩

theorem shared_abort (w : WaitingRoom α) (id : TaskId) : (w.move (.abort id)).shared = w.shared := by
  rw [move]
  rcases Scheduler.abort_cases w id with heq | heq
  all_goals rw [heq]

theorem shared_ring (w : WaitingRoom α) : (w.move .ring).shared = w.shared := by
  rw [move, Scheduler.ring, Scheduler.callAll_eq]

/-! ## What a turn brings about -/

/-- The room after the last turn of a task. -/
def close (w : WaitingRoom α) (id : TaskId) (table : Table α)
    (results : List (Option (Outcome α))) : WaitingRoom α :=
  { w with
    tasks := w.tasks.filter fun e => e.1 ≠ id
    queue := w.queue.erase id
    alarms := w.alarms.filter fun a => a.1 ≠ id
    aborted := w.aborted.filter (· ≠ id)
    results := w.results ++ results.map fun r => (id, r)
    shared := { w.shared with table := table } }

/-- The room after a turn at which a task goes to sleep. -/
def rest (w : WaitingRoom α) (id : TaskId) (task : RoomTask) (alarms : List (TaskId × Nat))
    (room : Room α) : WaitingRoom α :=
  { w with
    tasks := w.tasks.map fun e => if e.1 = id then (id, task) else e
    queue := w.queue.erase id
    alarms := alarms
    shared := room }

@[simp] theorem table_close (w : WaitingRoom α) (id : TaskId) (table : Table α)
    (results : List (Option (Outcome α))) : (w.close id table results).shared.table = table := rfl

@[simp] theorem table_rest (w : WaitingRoom α) (id : TaskId) (task : RoomTask)
    (alarms : List (TaskId × Nat)) (room : Room α) :
    (w.rest id task alarms room).shared.table = room.table := rfl

/-- A task after a turn is the one that had it, in its new state, or another one. -/
theorem mem_tasks_rest {w : WaitingRoom α} {id : TaskId} {task : RoomTask}
    {alarms : List (TaskId × Nat)} {room : Room α} {e : TaskId × RoomTask}
    (h : e ∈ (w.rest id task alarms room).tasks) : e = (id, task) ∨ (e ∈ w.tasks ∧ e.1 ≠ id) := by
  obtain ⟨e', he', rfl⟩ := List.mem_map.mp h
  by_cases hid : e'.1 = id
  · exact .inl (if_pos hid)
  · rw [if_neg hid]
    exact .inr ⟨he', hid⟩

theorem mem_tasks_close {w : WaitingRoom α} {id : TaskId} {table : Table α}
    {results : List (Option (Outcome α))} {e : TaskId × RoomTask}
    (h : e ∈ (w.close id table results).tasks) : e ∈ w.tasks ∧ e.1 ≠ id := by
  obtain ⟨he, hne⟩ := List.mem_filter.mp h
  exact ⟨he, by simpa using hne⟩

/-- The alarms with a new one for a task. -/
def alarmsWith (w : WaitingRoom α) (id : TaskId) (alarm : Option Nat) : List (TaskId × Nat) :=
  w.alarms.filter (fun a => a.1 ≠ id) ++ alarm.toList.map fun time => (id, time)

theorem mem_alarmsWith_of_ne {w : WaitingRoom α} {id : TaskId} {alarm : Option Nat}
    {a : TaskId × Nat} (h : a ∈ w.alarms) (hne : a.1 ≠ id) : a ∈ w.alarmsWith id alarm :=
  List.mem_append_left _ (List.mem_filter.mpr ⟨h, by simpa using hne⟩)

/-- The wait of a task that enters the cell of a key. -/
def waitAt (w : WaitingRoom α) (key : String) (limit : Nat) : Wait :=
  ⟨key, (w.shared.table.withCell w.now key).2.id, w.now,
    if limit = 0 then none else some (w.now + limit)⟩

/-- What the turn of a task can make of a room. -/
inductive Turned (w : WaitingRoom α) (id : TaskId) : WaitingRoom α → Prop where
  | nobody (h : w.task? id = none) : Turned w id { w with queue := w.queue.erase id }
  | withdrawn (wait : Wait) (h : w.task? id = some (.waiting wait)) (ha : id ∈ w.aborted) :
    Turned w id (w.close id (w.shared.table.withdraw id wait) [])
  | dropped (task : RoomTask) (h : w.task? id = some task) (ha : id ∈ w.aborted)
      (hw : ∀ wait, task ≠ .waiting wait) :
    Turned w id (w.close id w.shared.table [])
  | fetched (key : String) (limit : Nat) (a : α) (t : Table α)
      (h : w.task? id = some (.fetching key limit)) (ha : id ∉ w.aborted)
      (ht : w.shared.table.takeReady? key = some (a, t)) :
    Turned w id (w.close id
      (t.countStats fun s => { s with fetchedAtOnce := s.fetchedAtOnce + 1 }) [some (.value a)])
  | entered (key : String) (limit : Nat) (h : w.task? id = some (.fetching key limit))
      (ha : id ∉ w.aborted) (ht : w.shared.table.takeReady? key = none) :
    Turned w id (w.rest id (.waiting (w.waitAt key limit))
      (w.alarmsWith id (w.waitAt key limit).deadline)
      ⟨(w.shared.table.withCell w.now key).1.change (w.waitAt key limit).cell fun c => c.enter id,
        w.shared.reports⟩)
  | received (wait : Wait) (a : α) (t : Table α) (h : w.task? id = some (.waiting wait))
      (ha : id ∉ w.aborted) (ht : w.shared.table.takeAwaited? wait.cell = some (a, t)) :
    Turned w id (w.close id ((t.leave wait.cell id).countStats
      fun s => { s with fetchedAfterWait := s.fetchedAfterWait + 1 }) [some (.value a)])
  | timedOut (wait : Wait) (h : w.task? id = some (.waiting wait)) (ha : id ∉ w.aborted)
      (ht : w.shared.table.takeAwaited? wait.cell = none)
      (hd : wait.deadline.any (· ≤ w.clock.rung) = true) :
    Turned w id (w.close id ((w.shared.table.leave wait.cell id).countStats
      fun s => { s with timeouts := s.timeouts + 1 })
      [some (.timeout wait.key (w.now - wait.startedAt))])
  | stayed (wait : Wait) (h : w.task? id = some (.waiting wait)) (ha : id ∉ w.aborted)
      (ht : w.shared.table.takeAwaited? wait.cell = none)
      (hd : wait.deadline.any (· ≤ w.clock.rung) = false) :
    Turned w id (w.rest id (.waiting wait) w.alarms
      ⟨w.shared.table.change wait.cell fun c => c.sleep id, w.shared.reports⟩)
  | idled (sweeper : Sweeper) (h : w.task? id = some (.sweeping sweeper)) (ha : id ∉ w.aborted)
      (hp : sweeper.period = 0) :
    Turned w id (w.close id w.shared.table [none])
  | ticked (sweeper : Sweeper) (h : w.task? id = some (.sweeping sweeper)) (ha : id ∉ w.aborted)
      (hp : sweeper.period ≠ 0) :
    Turned w id (w.rest id (.sweeping (sweeper.tick w.clock).2)
      (w.alarmsWith id (some ((sweeper.tick w.clock).2.alarm w.now)))
      ⟨(w.shared.table.sweepTimes w.now (sweeper.tick w.clock).1).1,
        w.shared.reports ++ (w.shared.table.sweepTimes w.now (sweeper.tick w.clock).1).2⟩)

/-- Whatever a turn does to the table, the task ends or goes to sleep, if there is one. -/
theorem Turned.closed_or_rested {w v : WaitingRoom α} {id : TaskId} (h : Turned w id v) :
    v = { w with queue := w.queue.erase id } ∨ ∃ task, w.task? id = some task ∧
      ((∃ table results, v = w.close id table results) ∨
        ∃ task' alarms room, v = w.rest id task' alarms room) := by
  cases h with
  | nobody _ => exact .inl rfl
  | withdrawn _ htask _ => exact .inr ⟨_, htask, .inl ⟨_, _, rfl⟩⟩
  | dropped _ htask _ _ => exact .inr ⟨_, htask, .inl ⟨_, _, rfl⟩⟩
  | fetched _ _ _ _ htask _ _ => exact .inr ⟨_, htask, .inl ⟨_, _, rfl⟩⟩
  | entered _ _ htask _ _ => exact .inr ⟨_, htask, .inr ⟨_, _, _, rfl⟩⟩
  | received _ _ _ htask _ _ => exact .inr ⟨_, htask, .inl ⟨_, _, rfl⟩⟩
  | timedOut _ htask _ _ _ => exact .inr ⟨_, htask, .inl ⟨_, _, rfl⟩⟩
  | stayed _ htask _ _ _ => exact .inr ⟨_, htask, .inr ⟨_, _, _, rfl⟩⟩
  | idled _ htask _ _ => exact .inr ⟨_, htask, .inl ⟨_, _, rfl⟩⟩
  | ticked _ htask _ _ => exact .inr ⟨_, htask, .inr ⟨_, _, _, rfl⟩⟩

/-- At its turn a waiting task takes the value of its cell, gives up or goes back to sleep. -/
theorem Turned.of_waiting {w v : WaitingRoom α} {id : TaskId} {wait : Wait} (h : Turned w id v)
    (htask : w.task? id = some (.waiting wait)) (ha : id ∉ w.aborted) :
    (∃ a t, w.shared.table.takeAwaited? wait.cell = some (a, t) ∧
      v = w.close id ((t.leave wait.cell id).countStats
        fun s => { s with fetchedAfterWait := s.fetchedAfterWait + 1 }) [some (.value a)]) ∨
    (w.shared.table.takeAwaited? wait.cell = none ∧
      (v = w.close id ((w.shared.table.leave wait.cell id).countStats
          fun s => { s with timeouts := s.timeouts + 1 })
          [some (.timeout wait.key (w.now - wait.startedAt))] ∨
        v = w.rest id (.waiting wait) w.alarms
          ⟨w.shared.table.change wait.cell fun c => c.sleep id, w.shared.reports⟩)) := by
  cases h with
  | received wait' a t htask' _ ht =>
    obtain rfl : wait = wait' := by simpa [htask] using htask'
    exact .inl ⟨a, t, ht, rfl⟩
  | timedOut wait' htask' _ ht _ =>
    obtain rfl : wait = wait' := by simpa [htask] using htask'
    exact .inr ⟨ht, .inl rfl⟩
  | stayed wait' htask' _ ht _ =>
    obtain rfl : wait = wait' := by simpa [htask] using htask'
    exact .inr ⟨ht, .inr rfl⟩
  | withdrawn _ _ ha' | dropped _ _ ha' _ => exact absurd ha' ha
  | nobody htask' | fetched _ _ _ _ htask' _ _ | entered _ _ htask' _ _ | idled _ htask' _ _
  | ticked _ htask' _ _ => simp [htask] at htask'

section Turns

variable {w : WaitingRoom α} {id : TaskId}

theorem turned_of_mem_aborted {task : RoomTask} (h : w.task? id = some task)
    (ha : id ∈ w.aborted) : Turned w id (w.attend Room.behaviour id) := by
  rw [Scheduler.attend_of_mem_aborted h ha]
  have hclosed (t : Table α) (ht : Turned w id (w.close id t [])) : Turned w id { w with
      tasks := w.tasks.filter fun e => e.1 ≠ id
      queue := w.queue.erase id
      alarms := w.alarms.filter fun a => a.1 ≠ id
      aborted := w.aborted.filter (· ≠ id)
      shared := { w.shared with table := t } } := by
    simpa [close] using ht
  cases task with
  | waiting wait => exact hclosed _ (.withdrawn wait h ha)
  | fetching key limit => exact hclosed _ (.dropped _ h ha (by simp))
  | sweeping sweeper => exact hclosed _ (.dropped _ h ha (by simp))

theorem turned_of_fetching {key : String} {limit : Nat}
    (h : w.task? id = some (.fetching key limit)) (ha : id ∉ w.aborted) :
    Turned w id (w.attend Room.behaviour id) := by
  cases ht : w.shared.table.takeReady? key with
  | none =>
    have hturn : Room.behaviour.turn w.clock id (.fetching key limit) w.shared =
        ⟨⟨(w.shared.table.withCell w.now key).1.change (w.waitAt key limit).cell
          fun c => c.enter id, w.shared.reports⟩, [], [],
          .sleeping (.waiting (w.waitAt key limit)) (w.waitAt key limit).deadline⟩ := by
      simp only [Room.behaviour, Table.fetch, ht]
      rfl
    rw [Scheduler.attend_sleeping h ha hturn]
    exact .entered key limit h ha ht
  | some r =>
    have hturn : Room.behaviour.turn w.clock id (.fetching key limit) w.shared =
        ⟨⟨r.2.countStats fun s => { s with fetchedAtOnce := s.fetchedAtOnce + 1 },
          w.shared.reports⟩, [], [], .ended (some (.value r.1))⟩ := by
      simp only [Room.behaviour, Table.fetch, ht]
      rfl
    rw [Scheduler.attend_ended h ha hturn]
    exact .fetched key limit r.1 r.2 h ha ht

theorem turned_of_waiting {wait : Wait} (h : w.task? id = some (.waiting wait))
    (ha : id ∉ w.aborted) : Turned w id (w.attend Room.behaviour id) := by
  cases ht : w.shared.table.takeAwaited? wait.cell with
  | none =>
    cases hd : wait.deadline.any (· ≤ w.clock.rung) with
    | true =>
      have hturn : Room.behaviour.turn w.clock id (.waiting wait) w.shared =
          ⟨⟨(w.shared.table.leave wait.cell id).countStats
            fun s => { s with timeouts := s.timeouts + 1 }, w.shared.reports⟩, [], [],
            .ended (some (.timeout wait.key (w.now - wait.startedAt)))⟩ := by
        simp only [Room.behaviour, Table.resume, ht, hd]
        rfl
      rw [Scheduler.attend_ended h ha hturn]
      exact .timedOut wait h ha ht hd
    | false =>
      have hturn : Room.behaviour.turn w.clock id (.waiting wait) w.shared =
          ⟨⟨w.shared.table.change wait.cell fun c => c.sleep id, w.shared.reports⟩, [], [],
            .resting (.waiting wait)⟩ := by
        simp only [Room.behaviour, Table.resume, ht, hd]
        rfl
      rw [Scheduler.attend_resting h ha hturn]
      exact .stayed wait h ha ht hd
  | some r =>
    have hturn : Room.behaviour.turn w.clock id (.waiting wait) w.shared =
        ⟨⟨(r.2.leave wait.cell id).countStats
          fun s => { s with fetchedAfterWait := s.fetchedAfterWait + 1 }, w.shared.reports⟩,
          [], [], .ended (some (.value r.1))⟩ := by
      simp only [Room.behaviour, Table.resume, ht]
      rfl
    rw [Scheduler.attend_ended h ha hturn]
    exact .received wait r.1 r.2 h ha ht

theorem turned_of_sweeping {sweeper : Sweeper} (h : w.task? id = some (.sweeping sweeper))
    (ha : id ∉ w.aborted) : Turned w id (w.attend Room.behaviour id) := by
  by_cases hp : sweeper.period = 0
  · have hturn : Room.behaviour.turn w.clock id (.sweeping sweeper) w.shared =
        ⟨w.shared, [], [], .ended none⟩ := by
      simp only [Room.behaviour, Room.afterTick, if_pos hp]
    rw [Scheduler.attend_ended h ha hturn]
    exact .idled sweeper h ha hp
  · have hturn : Room.behaviour.turn w.clock id (.sweeping sweeper) w.shared =
        ⟨⟨(w.shared.table.sweepTimes w.now (sweeper.tick w.clock).1).1, w.shared.reports ++
          (w.shared.table.sweepTimes w.now (sweeper.tick w.clock).1).2⟩, [], [],
          .sleeping (.sweeping (sweeper.tick w.clock).2)
            (some ((sweeper.tick w.clock).2.alarm w.now))⟩ := by
      simp only [Room.behaviour, Room.afterTick, if_neg hp]
      rfl
    rw [Scheduler.attend_sleeping h ha hturn]
    exact .ticked sweeper h ha hp

end Turns

theorem turned (w : WaitingRoom α) (id : TaskId) : Turned w id (w.move (.turn id)) := by
  simp only [move]
  cases h : w.task? id with
  | none =>
    rw [Scheduler.attend_nobody h]
    exact .nobody h
  | some task =>
    by_cases ha : id ∈ w.aborted
    · exact turned_of_mem_aborted h ha
    · cases task with
      | fetching key limit => exact turned_of_fetching h ha
      | waiting wait => exact turned_of_waiting h ha
      | sweeping sweeper => exact turned_of_sweeping h ha

end WaitingRoom
end EbmsMessaging.Correlation
