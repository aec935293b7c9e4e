import EbmsMessaging.Correlation.Retention
import EbmsMessaging.Task

/-!
# The correlation table

The table is a waiting room. Values arrive under keys, and tasks fetch them. A cell keeps the last
value that arrived under its key and counts the tasks that wait for the next one. A value that comes
early stays until a task fetches it or a sweep removes it. A sweep can take a cell away from tasks
that were called but have not come yet; such a cell is kept aside for them, out of reach of others.
-/
namespace EbmsMessaging.Correlation

/-- A value and the time at which it arrived. -/
structure Deposit (α : Type) where
  value : α
  time : Nat
deriving DecidableEq, Repr

structure Cell (α : Type) where
  id : Nat
  key : String
  slot : Option (Deposit α)
  createdAt : Nat
  /-- The number of tasks that wait here, called ones included. -/
  waiters : Nat
  /-- The tasks to call when a value arrives, in the order in which they last went to sleep. -/
  sleepers : List TaskId
deriving DecidableEq, Repr

structure Stats where
  fetchedAtOnce : Nat
  fetchedAfterWait : Nat
  deposited : Nat
  replaced : Nat
  timeouts : Nat
  sweptExpired : Nat
  sweptUnused : Nat
deriving DecidableEq, Repr

def Stats.zero : Stats := ⟨0, 0, 0, 0, 0, 0, 0⟩

structure Table (α : Type) where
  retention : Retention
  /-- The cells in reach, at most one for each key. -/
  cells : List (Cell α)
  /-- The cells that were swept away while tasks waited at them. -/
  aside : List (Cell α)
  nextId : Nat
  stats : Stats
deriving DecidableEq, Repr

namespace Cell

variable {α : Type}

/-- A cell without a value. -/
def new (id : Nat) (key : String) (now : Nat) : Cell α := ⟨id, key, none, now, 0, []⟩

def hasValue (c : Cell α) : Bool := c.slot.isSome

/-- Puts a value in the place of the one before it. Whoever sleeps here is called. -/
def fill (c : Cell α) (now : Nat) (a : α) : Cell α :=
  { c with slot := some ⟨a, now⟩, sleepers := [] }

def clear (c : Cell α) : Cell α := { c with slot := none }

/-- One more task waits here. -/
def enter (c : Cell α) (task : TaskId) : Cell α :=
  { c with waiters := c.waiters + 1, sleepers := c.sleepers ++ [task] }

/-- A task that was called goes back to sleep, behind the others. -/
def sleep (c : Cell α) (task : TaskId) : Cell α :=
  if task ∈ c.sleepers then c else { c with sleepers := c.sleepers ++ [task] }

/-- Going to sleep changes nothing but the list of sleepers. -/
theorem sleep_eq (c : Cell α) (task : TaskId) : c.sleep task =
    { c with sleepers := if task ∈ c.sleepers then c.sleepers else c.sleepers ++ [task] } := by
  unfold sleep
  split <;> rfl

@[simp] theorem id_sleep (c : Cell α) (task : TaskId) : (c.sleep task).id = c.id := by rw [sleep_eq]

@[simp] theorem key_sleep (c : Cell α) (task : TaskId) : (c.sleep task).key = c.key := by
  rw [sleep_eq]

@[simp] theorem slot_sleep (c : Cell α) (task : TaskId) : (c.sleep task).slot = c.slot := by
  rw [sleep_eq]

@[simp] theorem waiters_sleep (c : Cell α) (task : TaskId) :
    (c.sleep task).waiters = c.waiters := by
  rw [sleep_eq]

@[simp] theorem mem_sleepers_sleep (c : Cell α) (task j : TaskId) :
    j ∈ (c.sleep task).sleepers ↔ j ∈ c.sleepers ∨ j = task := by
  unfold sleep
  split
  · next hasleep => exact ⟨.inl, fun h => h.elim (fun hj => hj) fun heq => heq ▸ hasleep⟩
  · simp

/-- One task less waits here. -/
def leave (c : Cell α) (task : TaskId) : Cell α :=
  { c with waiters := c.waiters - 1, sleepers := c.sleepers.filter (· ≠ task) }

/-- How long ago something happened, seen from an instant that may lie before it. -/
def age (asOf : Int) (time : Nat) : Nat := (asOf - time).toNat

/-- Whether a sweep removes the cell for the age of its value. -/
def isExpired (p : Retention) (asOf : Int) (c : Cell α) : Bool :=
  match c.slot with
  | some d => p.valueLimit < age asOf d.time
  | none => false

/-- Whether a sweep removes the cell because nobody uses it. -/
def isUnused (p : Retention) (asOf : Int) (c : Cell α) : Bool :=
  match c.slot, p.emptyLimit with
  | none, some limit => limit < age asOf c.createdAt && c.waiters == 0
  | _, _ => false

end Cell

namespace Table

variable {α : Type}

def empty (p : Retention) : Table α := ⟨p, [], [], 0, .zero⟩

def size (t : Table α) : Nat := t.cells.length

def isEmpty (t : Table α) : Bool := t.cells.isEmpty

/-- The cell of a key. -/
def find? (t : Table α) (key : String) : Option (Cell α) := t.cells.find? fun c => c.key = key

def contains (t : Table α) (key : String) : Bool := (t.find? key).isSome

/-- The cell with a number, in reach or not. -/
def cell? (t : Table α) (id : Nat) : Option (Cell α) :=
  (t.cells ++ t.aside).find? fun c => c.id = id

/-- Changes the cell with a number. -/
def change (t : Table α) (id : Nat) (f : Cell α → Cell α) : Table α :=
  let changed (c : Cell α) := if c.id = id then f c else c
  { t with cells := t.cells.map changed, aside := t.aside.map changed }

/-- Removes the cell with a number. -/
def remove (t : Table α) (id : Nat) : Table α :=
  { t with cells := t.cells.filter fun c => c.id ≠ id,
           aside := t.aside.filter fun c => c.id ≠ id }

def countStats (t : Table α) (f : Stats → Stats) : Table α := { t with stats := f t.stats }

/-- The table with a cell for the key, and that cell. -/
def withCell (t : Table α) (now : Nat) (key : String) : Table α × Cell α :=
  match t.find? key with
  | some c => (t, c)
  | none =>
    let c := Cell.new t.nextId key now
    ({ t with cells := t.cells ++ [c], nextId := t.nextId + 1 }, c)

/-- A value arrives. Tells whether a task waits for it, and which tasks are called. -/
def deposit (t : Table α) (now : Nat) (key : String) (a : α) : Table α × Bool × List TaskId :=
  let (t, c) := t.withCell now key
  let t := (t.change c.id fun c => c.fill now a).countStats fun s =>
    { s with deposited := s.deposited + 1, replaced := s.replaced + if c.hasValue then 1 else 0 }
  (t, 0 < c.waiters, c.sleepers)

/-- Fetches a value that is there already. The cell goes with it unless others wait there. -/
def takeReady? (t : Table α) (key : String) : Option (α × Table α) := do
  let c ← t.find? key
  let d ← c.slot
  some (d.value, if c.waiters = 0 then t.remove c.id else t.change c.id Cell.clear)

/-- A task that waits at a cell fetches its value. The cell goes with it if no other task waits
there. -/
def takeAwaited? (t : Table α) (id : Nat) : Option (α × Table α) := do
  let c ← t.cell? id
  let d ← c.slot
  some (d.value, if c.waiters ≤ 1 then t.remove id else t.change id Cell.clear)

/-- A task stops waiting at a cell. A cell set aside is dropped with its last task. -/
def leave (t : Table α) (id : Nat) (task : TaskId) : Table α :=
  let t := t.change id fun c => c.leave task
  { t with aside := t.aside.filter fun c => c.waiters ≠ 0 }

/-- Removes what is stale as of an instant. -/
def sweep (t : Table α) (asOf : Int) : Table α × Removals :=
  let expired := t.cells.filter (Cell.isExpired t.retention asOf)
  let unused := t.cells.filter (Cell.isUnused t.retention asOf)
  let report : Removals := ⟨expired.length, unused.length⟩
  let kept := t.cells.filter fun c =>
    !c.isExpired t.retention asOf && !c.isUnused t.retention asOf
  ({ t with
      cells := kept
      aside := t.aside ++ expired.filter fun c => c.waiters ≠ 0
      stats := { t.stats with
        sweptExpired := t.stats.sweptExpired + report.expired
        sweptUnused := t.stats.sweptUnused + report.unused } },
    report)

@[simp] theorem cells_countStats (t : Table α) (f : Stats → Stats) :
    (t.countStats f).cells = t.cells := rfl

@[simp] theorem find?_empty (p : Retention) (key : String) :
    (empty p : Table α).find? key = none := rfl

/-- A sweep takes no cell away that it does not count. -/
theorem size_sweep (t : Table α) (asOf : Int) :
    (t.sweep asOf).1.size + (t.sweep asOf).2.total = t.size := by
  simp only [sweep, size, Removals.total]
  induction t.cells with
  | nil => rfl
  | cons c cs ih =>
    have disjoint : c.isExpired t.retention asOf = true → c.isUnused t.retention asOf = false := by
      unfold Cell.isExpired Cell.isUnused
      cases c.slot <;> simp
    cases he : c.isExpired t.retention asOf <;> cases ha : c.isUnused t.retention asOf
    · simp [he, ha]; omega
    · simp [he, ha]; omega
    · simp [he, ha]; omega
    · simp [disjoint he] at ha

end Table
end EbmsMessaging.Correlation
