import EbmsMessaging.Proofs.Scheduler.Turns

/-!
# What tasks overlook

Tasks overlook a change of what they share if they do the same after it as before, and it is still there
when they have done it. Then it does not matter when the change is made: whatever the scheduler does, it
does the same with and without it.
-/
namespace EbmsMessaging

variable {σ τ ρ : Type}

/-- The turn with what is shared changed after it. -/
def Turn.mapShared (g : σ → σ) (t : Turn σ τ ρ) : Turn σ τ ρ := { t with shared := g t.shared }

/-- Tasks that have their turn or are dropped overlook a change. -/
structure Behaviour.Overlooks (b : Behaviour σ τ ρ) (g : σ → σ) : Prop where
  turn : ∀ clock id t s, b.turn clock id t (g s) = (b.turn clock id t s).mapShared g
  drop : ∀ now id t s, b.drop now id t (g s) = g (b.drop now id t s)

namespace Scheduler

/-- What is shared is changed, and nobody is called. -/
def mapShared (g : σ → σ) (s : Scheduler σ τ ρ) : Scheduler σ τ ρ :=
  { s with shared := g s.shared }

variable (g : σ → σ) (s : Scheduler σ τ ρ)

theorem callAll_mapShared (ids : List TaskId) :
    (s.mapShared g).callAll ids = (s.callAll ids).mapShared g := by
  rw [callAll_eq, callAll_eq]
  rfl

theorem foldl_spawn_mapShared (ts : List τ) :
    ts.foldl spawn (s.mapShared g) = (ts.foldl spawn s).mapShared g := by
  rw [foldl_spawn, foldl_spawn]
  rfl

theorem abort_mapShared (id : TaskId) :
    (s.mapShared g).abort id = (s.abort id).mapShared g := by
  have htask : (s.mapShared g).task? id = s.task? id := rfl
  unfold abort
  rw [htask]
  split
  · exact callAll_mapShared g { s with aborted := id :: s.aborted } [id]
  · rfl

theorem ring_mapShared : (s.mapShared g).ring = s.ring.mapShared g :=
  callAll_mapShared g { s with
    clock := ⟨s.now, s.now⟩, alarms := s.alarms.filter fun a => s.now < a.2 } _

/-- A change that makes the same of what is shared, and calls the same tasks, can be made before as well
as after. -/
theorem change_mapShared {f f' : σ → σ × List TaskId}
    (hf : f' (g s.shared) = (g (f s.shared).1, (f s.shared).2)) :
    (s.mapShared g).change f' = (s.change f).mapShared g := by
  have hshared : (s.mapShared g).shared = g s.shared := rfl
  unfold change
  rw [hshared, hf]
  exact callAll_mapShared g { s with shared := (f s.shared).1 } _

/-- What becomes of the scheduler after a turn. -/
def carryOut (id : TaskId) (turn : Turn σ τ ρ) : Scheduler σ τ ρ :=
  let s := ({ s with shared := turn.shared } : Scheduler σ τ ρ).callAll turn.called
  let s := turn.started.foldl spawn s
  match turn.next with
  | .sleeping t alarm => (s.putToSleep id t).setAlarm id alarm
  | .resting t => s.putToSleep id t
  | .ended r => (({ s with results := s.results ++ [(id, r)] } : Scheduler σ τ ρ).setAlarm id
      none).forget id

theorem takeTurn_eq (b : Behaviour σ τ ρ) (id : TaskId) (t : τ) : s.takeTurn b id t =
    if id ∈ s.aborted then
      (({ s with shared := b.drop s.now id t s.shared } : Scheduler σ τ ρ).setAlarm id none).forget id
    else s.carryOut id (b.turn s.clock id t s.shared) := rfl

theorem carryOut_mapShared (id : TaskId) (turn : Turn σ τ ρ) :
    (s.mapShared g).carryOut id (turn.mapShared g) = (s.carryOut id turn).mapShared g := by
  have hspawned := foldl_spawn_mapShared g
    (({ s with shared := turn.shared } : Scheduler σ τ ρ).callAll turn.called) turn.started
  rw [← callAll_mapShared] at hspawned
  have hcalled : ({ s.mapShared g with shared := (turn.mapShared g).shared } : Scheduler σ τ ρ) =
    ({ s with shared := turn.shared } : Scheduler σ τ ρ).mapShared g := rfl
  have hkept : (turn.mapShared g).called = turn.called ∧ (turn.mapShared g).started = turn.started ∧
    (turn.mapShared g).next = turn.next := ⟨rfl, rfl, rfl⟩
  simp only [carryOut, hcalled, hkept, hspawned]
  cases turn.next <;> rfl

theorem attend_somebody {b : Behaviour σ τ ρ} {s : Scheduler σ τ ρ} {id : TaskId} {t : τ}
    (h : s.task? id = some t) : s.attend b id =
      ({ s with queue := s.queue.erase id } : Scheduler σ τ ρ).takeTurn b id t := by
  simp only [task?] at h
  simp only [attend, task?, h]

variable {b : Behaviour σ τ ρ} {g} (h : b.Overlooks g)
include h

theorem takeTurn_mapShared (id : TaskId) (t : τ) :
    (s.mapShared g).takeTurn b id t = (s.takeTurn b id t).mapShared g := by
  have hclock : (s.mapShared g).clock = s.clock := rfl
  have hnow : (s.mapShared g).now = s.now := rfl
  have haborted : (s.mapShared g).aborted = s.aborted := rfl
  have hshared : (s.mapShared g).shared = g s.shared := rfl
  rw [takeTurn_eq, takeTurn_eq, hclock, hnow, haborted, hshared, h.turn, h.drop]
  split
  · rfl
  · exact carryOut_mapShared g s id _

theorem attend_mapShared (id : TaskId) :
    (s.mapShared g).attend b id = (s.attend b id).mapShared g := by
  cases hfound : s.task? id with
  | none =>
    have hfound' : (s.mapShared g).task? id = none := hfound
    rw [attend_nobody hfound, attend_nobody hfound']
    rfl
  | some t =>
    have hfound' : (s.mapShared g).task? id = some t := hfound
    rw [attend_somebody hfound, attend_somebody hfound']
    exact takeTurn_mapShared { s with queue := s.queue.erase id } h id t

theorem step?_mapShared : (s.mapShared g).step? b = (s.step? b).map (mapShared g) := by
  cases hqueue : s.queue with
  | cons id rest =>
    have hqueue' : (s.mapShared g).queue = id :: rest := hqueue
    rw [step?_of_queue b s hqueue, step?_of_queue b _ hqueue', attend_mapShared s h, Option.map_some]
  | nil =>
    have hqueue' : (s.mapShared g).queue = [] := hqueue
    have hdue : (s.mapShared g).dueAlarms = s.dueAlarms := rfl
    have hclock : (s.mapShared g).clock = s.clock := rfl
    have hnow : (s.mapShared g).now = s.now := rfl
    simp only [step?, hqueue, hqueue', hdue, hclock, hnow, ring_mapShared]
    split <;> rfl

theorem run_mapShared (n : Nat) : (s.mapShared g).run b n = (s.run b n).mapShared g := by
  induction n generalizing s with
  | zero => rfl
  | succ n ih =>
    rw [run, run, step?_mapShared s h]
    cases s.step? b with
    | none => rfl
    | some v => exact ih v

theorem settle_mapShared : (s.mapShared g).settle b = (s.settle b).mapShared g :=
  run_mapShared s h (s.stepBound b)

end Scheduler
end EbmsMessaging
