import EbmsMessaging.Proofs.Correlation.Tracing

/-!
# Values are never looked at

A room does the same whatever its values are. The values of a run can therefore be numbered by their
moves; without the numbers the numbered run is the run itself.
-/
namespace EbmsMessaging

namespace Scheduler

variable {σ σ' τ ρ ρ' : Type} {f : σ → σ'} {g : ρ → ρ'}

/-- The scheduler with other names for what its tasks share and return. -/
def map (f : σ → σ') (g : ρ → ρ') (s : Scheduler σ τ ρ) : Scheduler σ' τ ρ' :=
  ⟨s.clock, s.nextTask, s.tasks, s.queue, s.alarms, s.aborted,
    s.results.map fun r => (r.1, g r.2), f s.shared⟩

/-- Another behaviour does the same with the other names. -/
structure Follows (f : σ → σ') (g : ρ → ρ') (b' : Behaviour σ' τ ρ') (b : Behaviour σ τ ρ) :
    Prop where
  turn : ∀ clock id t s, b'.turn clock id t (f s) =
    ⟨f (b.turn clock id t s).shared, (b.turn clock id t s).called, (b.turn clock id t s).started,
      match (b.turn clock id t s).next with
      | .sleeping t alarm => .sleeping t alarm
      | .resting t => .resting t
      | .ended r => .ended (g r)⟩
  drop : ∀ now id t s, b'.drop now id t (f s) = f (b.drop now id t s)

theorem map_callAll (s : Scheduler σ τ ρ) (ids : List TaskId) :
    (s.callAll ids).map f g = (s.map f g).callAll ids := by
  rw [callAll_eq, callAll_eq]
  rfl

theorem map_abort (s : Scheduler σ τ ρ) (id : TaskId) :
    (s.abort id).map f g = (s.map f g).abort id := by
  have htask : (s.map f g).task? id = s.task? id := rfl
  unfold abort
  rw [htask]
  split
  · exact map_callAll _ [id]
  · rfl

theorem map_ring (s : Scheduler σ τ ρ) : (s.ring).map f g = (s.map f g).ring := map_callAll _ _

theorem map_spawnAll (s : Scheduler σ τ ρ) (ts : List τ) :
    (ts.foldl spawn s).map f g = ts.foldl spawn (s.map f g) := by
  induction ts generalizing s with
  | nil => rfl
  | cons t ts ih => exact ih (s.spawn t)

theorem map_takeTurn {b' : Behaviour σ' τ ρ'} {b : Behaviour σ τ ρ} (h : Follows f g b' b)
    (s : Scheduler σ τ ρ) (id : TaskId) (t : τ) :
    (s.takeTurn b id t).map f g = (s.map f g).takeTurn b' id t := by
  by_cases ha : id ∈ s.aborted
  · have ha' : id ∈ (s.map f g).aborted := ha
    simp only [takeTurn, if_pos ha, if_pos ha']
    simp only [forget, setAlarm, map, now, h.drop]
  · have ha' : id ∉ (s.map f g).aborted := ha
    have hturn := h.turn s.clock id t s.shared
    have hshared (turn : Turn σ τ ρ) : turn.started.foldl spawn
        (({ s.map f g with shared := f turn.shared } : Scheduler σ' τ ρ').callAll turn.called) =
        (turn.started.foldl spawn
          (({ s with shared := turn.shared } : Scheduler σ τ ρ).callAll turn.called)).map f g := by
      rw [map_spawnAll, map_callAll]
      rfl
    simp only [takeTurn, if_neg ha, if_neg ha']
    rw [show b'.turn (s.map f g).clock id t (s.map f g).shared = _ from hturn]
    rw [hshared]
    cases (b.turn s.clock id t s.shared).next with
    | sleeping t' alarm => rfl
    | resting t' => rfl
    | ended r => simp [forget, setAlarm, map]

theorem map_attend {b' : Behaviour σ' τ ρ'} {b : Behaviour σ τ ρ} (h : Follows f g b' b)
    (s : Scheduler σ τ ρ) (id : TaskId) :
    (s.attend b id).map f g = (s.map f g).attend b' id := by
  have htask : (s.map f g).tasks.lookup id = s.tasks.lookup id := rfl
  simp only [attend, task?, htask]
  cases s.tasks.lookup id with
  | none => rfl
  | some t => exact map_takeTurn h _ id t

end Scheduler

namespace Correlation

variable {α β : Type} (f : α → β)

def Deposit.map (d : Deposit α) : Deposit β := ⟨f d.value, d.time⟩

def Cell.map (c : Cell α) : Cell β :=
  ⟨c.id, c.key, c.slot.map (Deposit.map f), c.createdAt, c.waiters, c.sleepers⟩

def Outcome.map : Outcome α → Outcome β
  | .value a => .value (f a)
  | .timeout key waited => .timeout key waited

namespace Table

def map (t : Table α) : Table β :=
  ⟨t.retention, t.cells.map (Cell.map f), t.aside.map (Cell.map f), t.nextId, t.stats⟩

theorem map_change (t : Table α) (n : Nat) {g : Cell α → Cell α} {h : Cell β → Cell β}
    (hgh : ∀ c, (g c).map f = h (c.map f)) : (t.change n g).map f = (t.map f).change n h := by
  have hcell (c : Cell α) : (if c.id = n then g c else c).map f =
      if (c.map f).id = n then h (c.map f) else c.map f := by
    by_cases hc : c.id = n
    · rw [if_pos hc, if_pos (show (c.map f).id = n from hc), hgh]
    · rw [if_neg hc, if_neg (show ¬(c.map f).id = n from hc)]
  simp only [map, change, List.map_map]
  congr 1
  all_goals
    refine List.map_congr_left fun c _ => ?_
    exact hcell c

theorem map_remove (t : Table α) (n : Nat) : (t.remove n).map f = (t.map f).remove n := by
  simp only [map, remove, List.filter_map]
  rfl

theorem map_countStats (t : Table α) (g : Stats → Stats) :
    (t.countStats g).map f = (t.map f).countStats g := rfl

theorem find?_map (t : Table α) (key : String) :
    (t.map f).find? key = (t.find? key).map (Cell.map f) := by
  simp only [map, find?, List.find?_map]
  rfl

theorem cell?_map (t : Table α) (n : Nat) : (t.map f).cell? n = (t.cell? n).map (Cell.map f) := by
  simp only [map, cell?, ← List.map_append, List.find?_map]
  rfl

theorem withCell_map (t : Table α) (now : Nat) (key : String) :
    (t.map f).withCell now key = ((t.withCell now key).1.map f, (t.withCell now key).2.map f) := by
  unfold withCell
  rw [find?_map]
  cases t.find? key with
  | some c => rfl
  | none => simp [map, Cell.map, Cell.new]

theorem deposit_map (t : Table α) (now : Nat) (key : String) (a : α) :
    (t.map f).deposit now key (f a) =
      ((t.deposit now key a).1.map f, (t.deposit now key a).2) := by
  unfold deposit
  rw [withCell_map]
  have hvalue (c : Cell α) : (c.map f).hasValue = c.hasValue := by
    simp [Cell.map, Cell.hasValue]
  have hfill (t : Table α) (n : Nat) : (t.map f).change n (fun c => c.fill now (f a)) =
      (t.change n fun c => c.fill now a).map f := (map_change f t n fun _ => rfl).symm
  simp only [hvalue, show ∀ c : Cell α, (c.map f).id = c.id from fun _ => rfl, hfill]
  rfl

theorem takeReady?_map (t : Table α) (key : String) :
    (t.map f).takeReady? key = (t.takeReady? key).map fun r => (f r.1, r.2.map f) := by
  have hclear (c : Cell α) : c.clear.map f = (c.map f).clear := rfl
  unfold takeReady?
  rw [find?_map]
  cases t.find? key with
  | none => rfl
  | some c =>
    cases hslot : c.slot with
    | none => simp [Cell.map, hslot]
    | some d =>
      by_cases hw : c.waiters = 0 <;>
        simp [Cell.map, hslot, Deposit.map, hw, map_remove, map_change f _ _ hclear]

theorem takeAwaited?_map (t : Table α) (n : Nat) :
    (t.map f).takeAwaited? n = (t.takeAwaited? n).map fun r => (f r.1, r.2.map f) := by
  have hclear (c : Cell α) : c.clear.map f = (c.map f).clear := rfl
  unfold takeAwaited?
  rw [cell?_map]
  cases t.cell? n with
  | none => rfl
  | some c =>
    cases hslot : c.slot with
    | none => simp [Cell.map, hslot]
    | some d =>
      by_cases hw : c.waiters ≤ 1 <;>
        simp [Cell.map, hslot, Deposit.map, hw, map_remove, map_change f _ _ hclear]

theorem leave_map (t : Table α) (n : Nat) (task : TaskId) :
    (t.map f).leave n task = (t.leave n task).map f := by
  have hleave (c : Cell α) : (c.leave task).map f = (c.map f).leave task := rfl
  unfold leave
  rw [← map_change f t n hleave]
  simp only [map, List.filter_map]
  rfl

theorem sleep_map (t : Table α) (n : Nat) (task : TaskId) :
    (t.map f).change n (fun c => c.sleep task) = (t.change n fun c => c.sleep task).map f := by
  refine (map_change f t n fun c => ?_).symm
  rw [Cell.sleep_eq, Cell.sleep_eq]
  rfl

theorem sweep_map (t : Table α) (asOf : Int) :
    (t.map f).sweep asOf = ((t.sweep asOf).1.map f, (t.sweep asOf).2) := by
  have hexpired (c : Cell α) : (c.map f).isExpired t.retention asOf =
      c.isExpired t.retention asOf := by
    cases hslot : c.slot <;> simp [Cell.isExpired, Cell.map, hslot, Deposit.map]
  have hunused (c : Cell α) : (c.map f).isUnused t.retention asOf =
      c.isUnused t.retention asOf := by
    cases hslot : c.slot <;> cases hlimit : t.retention.emptyLimit <;>
      simp [Cell.isUnused, Cell.map, hslot, hlimit]
  simp only [sweep, map, List.filter_map, Function.comp_def, hexpired, hunused, List.length_map,
    List.map_append]
  rfl

theorem sweepTimes_map (t : Table α) (now n : Nat) :
    (t.map f).sweepTimes now n = ((t.sweepTimes now n).1.map f, (t.sweepTimes now n).2) := by
  induction n generalizing t with
  | zero => rfl
  | succ n ih => simp only [sweepTimes, sweep_map, ih]

end Table

def Room.map (r : Room α) : Room β := ⟨r.table.map f, r.reports⟩

/-- Tasks do the same whatever the values are. -/
theorem follows_behaviour : Scheduler.Follows (Room.map f) (Option.map (Outcome.map f))
    Room.behaviour Room.behaviour where
  turn clock id t r := by
    cases t with
    | fetching key limit =>
      simp only [Room.behaviour, Room.map, Table.fetch, Table.takeReady?_map]
      cases r.table.takeReady? key with
      | some a => rfl
      | none =>
        simp only [Option.map_none, Table.withCell_map, Room.afterAttempt]
        rw [Table.map_change f _ _ (g := fun c => c.enter id) (h := fun c => c.enter id)
          fun _ => rfl]
        rfl
    | waiting wait =>
      simp only [Room.behaviour, Room.map, Table.resume, Table.takeAwaited?_map]
      cases r.table.takeAwaited? wait.cell with
      | some a => simp [Room.afterAttempt, Table.leave_map, Table.map_countStats, Outcome.map]
      | none =>
        by_cases hd : wait.deadline.any (· ≤ clock.rung) = true
        · simp [Room.afterAttempt, hd, Table.leave_map, Table.map_countStats, Outcome.map]
        · simp [Room.afterAttempt, hd, Table.sleep_map]
    | sweeping sweeper =>
      by_cases hp : sweeper.period = 0
      · simp [Room.behaviour, Room.afterTick, hp, Room.map]
      · simp [Room.behaviour, Room.afterTick, hp, Room.map, Table.sweepTimes_map]
  drop now id t r := by
    cases t with
    | waiting wait => simp [Room.behaviour, Room.map, Table.withdraw, Table.leave_map]
    | fetching key limit => rfl
    | sweeping sweeper => rfl

def Move.map : Move α → Move β
  | .fetch key limit => .fetch key limit
  | .startSweeper period => .startSweeper period
  | .deposit key a => .deposit key (f a)
  | .sweep offset => .sweep offset
  | .advance ms => .advance ms
  | .abort id => .abort id
  | .turn id => .turn id
  | .ring => .ring

namespace WaitingRoom

def map (w : WaitingRoom α) : WaitingRoom β :=
  Scheduler.map (Room.map f) (Option.map (Outcome.map f)) w

theorem map_move (w : WaitingRoom α) (m : Move α) :
    map f (w.move m) = (map f w).move (m.map f) := by
  cases m with
  | fetch key limit => rfl
  | startSweeper period => rfl
  | deposit key a =>
    have htable : (map f w).shared.table = w.shared.table.map f := rfl
    have hnow : (map f w).now = w.now := rfl
    simp only [move, Move.map, deposit, Scheduler.change, htable, hnow, Table.deposit_map]
    exact Scheduler.map_callAll _ _
  | sweep offset =>
    have htable : (map f w).shared.table = w.shared.table.map f := rfl
    have hnow : (map f w).now = w.now := rfl
    simp only [move, Move.map, sweep, Scheduler.change, htable, hnow, Table.sweep_map]
    exact Scheduler.map_callAll _ _
  | advance ms => rfl
  | abort id => exact Scheduler.map_abort w id
  | turn id => exact Scheduler.map_attend (follows_behaviour f) w id
  | ring => exact Scheduler.map_ring w

theorem map_after (p : Retention) (moves : List (Move α)) :
    map f (after p moves) = after p (moves.map (Move.map f)) := by
  induction moves using List.reverseRecOn with
  | nil => rfl
  | append_singleton moves m ih => simp [map_move, ih]

/-- The moves with their values numbered by their places. -/
def numbered (moves : List (Move α)) : List (Move (Nat × α)) :=
  moves.mapIdx fun n m => m.map fun a => (n, a)

theorem getElem?_numbered (moves : List (Move α)) (n : Nat) :
    (numbered moves)[n]? = moves[n]?.map fun m => m.map fun a => (n, a) :=
  List.getElem?_mapIdx

theorem map_snd_numbered (moves : List (Move α)) :
    (numbered moves).map (Move.map Prod.snd) = moves := by
  refine List.ext_getElem? fun n => ?_
  rw [List.getElem?_map, getElem?_numbered, Option.map_map]
  have hid : (Move.map Prod.snd ∘ fun m : Move α => m.map fun a => (n, a)) = id := by
    funext m
    cases m <;> rfl
  rw [hid, Option.map_id, id]

/-- Without its numbers the numbered run is the run. -/
theorem map_snd_after_numbered (p : Retention) (moves : List (Move α)) :
    map Prod.snd (after p (numbered moves)) = after p moves := by
  rw [map_after, map_snd_numbered]

theorem deposit_of_numbered {moves : List (Move α)} {n : Nat} {key : String} {b : Nat × α}
    (h : (numbered moves)[n]? = some (.deposit key b)) :
    b.1 = n ∧ moves[n]? = some (.deposit key b.2) := by
  rw [getElem?_numbered] at h
  cases hm : moves[n]? with
  | none => simp [hm] at h
  | some m =>
    rw [hm] at h
    cases m <;> simp [Move.map] at h
    obtain ⟨rfl, rfl⟩ := h
    exact ⟨rfl, rfl⟩

theorem labelled_numbered (moves : List (Move α)) : Labelled (numbered moves) :=
  fun _ _ _ h => (deposit_of_numbered h).1

theorem started_numbered (moves : List (Move α)) : started (numbered moves) = started moves := by
  conv_rhs => rw [← map_snd_numbered moves]
  rw [started, started, List.filterMap_map]
  congr 1
  funext m
  cases m <;> rfl

theorem timeOf_numbered (p : Retention) (moves : List (Move α)) (n : Nat) :
    timeOf p (numbered moves) n = timeOf p moves n := by
  have htake : ((numbered moves).take n).map (Move.map Prod.snd) = moves.take n := by
    rw [List.map_take, map_snd_numbered]
  rw [timeOf, timeOf, ← htake, ← map_after]
  rfl

/-- Each value that was brought is returned at most once, by a task that fetches its key, and tasks
return nothing else. A value that was not returned still waits under its key, unless a later value
of the key replaced it or a sweep removed it for its age while it waited. -/
theorem returned_once_or_accounted_for (p : Retention) (moves : List (Move α)) :
    map Prod.snd (after p (numbered moves)) = after p moves ∧
    (∀ id n a, (id, n, a) ∈ (after p (numbered moves)).returned →
      ∃ key limit, moves[n]? = some (.deposit key a) ∧
        (started moves)[id]? = some (.fetching key limit)) ∧
    ((after p (numbered moves)).returned.map fun r => r.2.1).Nodup ∧
    ∀ n key a, moves[n]? = some (.deposit key a) →
      (∃ id, (id, n, a) ∈ (after p (numbered moves)).returned) ∨
      (after p (numbered moves)).shared.table.valueAt? key = some ⟨(n, a), timeOf p moves n⟩ ∨
      (Occurs p (numbered moves) fun w m =>
        w.Overwrites m key ⟨(n, a), timeOf p moves n⟩) ∨
      (Occurs p (numbered moves) fun w m =>
        w.Expires m key ⟨(n, a), timeOf p moves n⟩) := by
  have htraced := traced p (labelled_numbered moves)
  refine ⟨map_snd_after_numbered p moves, ?_, htraced.nodup, ?_⟩
  · intro id n a hr
    obtain ⟨key, limit, hmove, hstart⟩ := htraced.returned _ hr
    rw [started_numbered] at hstart
    exact ⟨key, limit, (deposit_of_numbered hmove).2, hstart⟩
  · intro n key a hn
    have hmove : (numbered moves)[n]? = some (.deposit key (n, a)) := by
      rw [getElem?_numbered, hn]
      rfl
    have hfate := fate p (numbered moves) hmove
    rw [timeOf_numbered] at hfate
    cases hfate with
    | returned id h => exact .inl ⟨id, h⟩
    | waiting h => exact .inr (.inl h)
    | overwritten h => exact .inr (.inr (.inl h))
    | expired h => exact .inr (.inr (.inr h))

end WaitingRoom
end Correlation
end EbmsMessaging
