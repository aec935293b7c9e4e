import EbmsMessaging.Proofs.Correlation.Hosting
import EbmsMessaging.Proofs.Scheduler.Selection
import Mathlib.Data.List.Find

/-!
# The part of a table that belongs to a key

A table may hold the cells of one key as another table holds them, and no others. Its cells have
numbers of their own, and of the sleepers only selected ones are there, under new numbers. An
operation on that key does the same to both tables. An operation on another key, which only
unselected tasks come to, leaves the part as it is.
-/
namespace EbmsMessaging.Correlation

variable {α : Type}

/-- A cell under its new number with the selected sleepers. -/
def Cell.renumber (keep cell : Nat → Bool) (c : Cell α) : Cell α :=
  { c with id := rank cell c.id, sleepers := pick keep c.sleepers }

def Wait.renumber (cell : Nat → Bool) (w : Wait) : Wait := { w with cell := rank cell w.cell }

def Attempt.renumber (cell : Nat → Bool) : Attempt α → Attempt α
  | .ended outcome => .ended outcome
  | .entered w => .entered (w.renumber cell)
  | .waiting w => .waiting (w.renumber cell)

/-- The cells of a key under their new numbers. -/
def cellsOf (key : String) (keep cell : Nat → Bool) (cs : List (Cell α)) : List (Cell α) :=
  (cs.filter fun c => c.key = key).map (Cell.renumber keep cell)

section CellsOf

variable {key : String} {keep cell cell' : Nat → Bool} {n : Nat} {c : Cell α} {cs ds : List (Cell α)}

theorem cellsOf_cons_of_pos (h : c.key = key) :
    cellsOf key keep cell (c :: cs) = c.renumber keep cell :: cellsOf key keep cell cs := by
  simp [cellsOf, h]

theorem cellsOf_cons_of_neg (h : c.key ≠ key) :
    cellsOf key keep cell (c :: cs) = cellsOf key keep cell cs := by
  simp [cellsOf, h]

theorem cellsOf_append :
    cellsOf key keep cell (cs ++ ds) = cellsOf key keep cell cs ++ cellsOf key keep cell ds := by
  simp [cellsOf]

theorem cellsOf_filter {p : Cell α → Bool} (hp : ∀ c, p (c.renumber keep cell) = p c) :
    cellsOf key keep cell (cs.filter p) = (cellsOf key keep cell cs).filter p := by
  rw [cellsOf, cellsOf, List.filter_map, List.filter_filter, List.filter_filter]
  congr 1
  refine List.filter_congr fun c _ => ?_
  rw [Function.comp_apply, hp, Bool.and_comm]

theorem cellsOf_congr (h : ∀ c ∈ cs, ∀ i < c.id, cell i = cell' i) :
    cellsOf key keep cell cs = cellsOf key keep cell' cs := by
  refine List.map_congr_left fun c hc => ?_
  rw [Cell.renumber, Cell.renumber, rank_congr (h c (List.mem_of_mem_filter hc))]

/-- A cell of the key is changed on either side. -/
theorem cellsOf_change_own (f f' : Cell α → Cell α)
    (hcs : ∀ c ∈ cs, cell c.id = decide (c.key = key)) (hn : cell n = true) (hkey : ∀ c, (f c).key = c.key)
    (hf : ∀ c, (f c).renumber keep cell = f' (c.renumber keep cell)) :
    cellsOf key keep cell (cs.map fun c => if c.id = n then f c else c) =
      (cellsOf key keep cell cs).map fun c => if c.id = rank cell n then f' c else c := by
  induction cs with
  | nil => rfl
  | cons c cs ih =>
    obtain ⟨hc, hcs⟩ := List.forall_mem_cons.mp hcs
    rw [List.map_cons]
    by_cases hown : c.key = key
    · have hcell : cell c.id = true := by rw [hc, decide_eq_true hown]
      have hid : (c.renumber keep cell).id = rank cell n ↔ c.id = n := rank_inj hcell hn
      rw [cellsOf_cons_of_pos hown, List.map_cons]
      by_cases hcn : c.id = n
      · rw [if_pos hcn, if_pos (hid.mpr hcn), cellsOf_cons_of_pos ((hkey c).trans hown), hf, ih hcs]
      · rw [if_neg hcn, if_neg (fun heq => hcn (hid.mp heq)), cellsOf_cons_of_pos hown, ih hcs]
    · have hcn : c.id ≠ n := by
        rintro rfl
        rw [hc, decide_eq_false hown] at hn
        exact Bool.false_ne_true hn
      rw [if_neg hcn, cellsOf_cons_of_neg hown, cellsOf_cons_of_neg hown, ih hcs]

/-- A change of another cell is not seen. -/
theorem cellsOf_change_other (keep : Nat → Bool) (f : Cell α → Cell α)
    (hcs : ∀ c ∈ cs, cell c.id = decide (c.key = key)) (hn : cell n = false) (hkey : ∀ c, (f c).key = c.key) :
    cellsOf key keep cell (cs.map fun c => if c.id = n then f c else c) =
      cellsOf key keep cell cs := by
  induction cs with
  | nil => rfl
  | cons c cs ih =>
    obtain ⟨hc, hcs⟩ := List.forall_mem_cons.mp hcs
    rw [List.map_cons]
    by_cases hcn : c.id = n
    · have hother : c.key ≠ key := by
        rw [hcn, hn] at hc
        exact of_decide_eq_false hc.symm
      have hchanged : (f c).key ≠ key := by rwa [hkey]
      rw [if_pos hcn, cellsOf_cons_of_neg hchanged, cellsOf_cons_of_neg hother, ih hcs]
    · rw [if_neg hcn]
      by_cases hown : c.key = key
      · rw [cellsOf_cons_of_pos hown, cellsOf_cons_of_pos hown, ih hcs]
      · rw [cellsOf_cons_of_neg hown, cellsOf_cons_of_neg hown, ih hcs]

theorem cellsOf_remove_own (hcs : ∀ c ∈ cs, cell c.id = decide (c.key = key))
    (hn : cell n = true) : cellsOf key keep cell (cs.filter fun c => c.id ≠ n) =
      (cellsOf key keep cell cs).filter fun c => c.id ≠ rank cell n := by
  rw [cellsOf, cellsOf, List.filter_map, List.filter_filter, List.filter_filter]
  congr 1
  refine List.filter_congr fun c hc => ?_
  by_cases hown : c.key = key
  · have hcell : cell c.id = true := by rw [hcs c hc, decide_eq_true hown]
    have hid : (c.renumber keep cell).id = rank cell n ↔ c.id = n := rank_inj hcell hn
    simp [hown, hid]
  · simp [hown]

theorem cellsOf_remove_other (hcs : ∀ c ∈ cs, cell c.id = decide (c.key = key))
    (hn : cell n = false) :
    cellsOf key keep cell (cs.filter fun c => c.id ≠ n) = cellsOf key keep cell cs := by
  rw [cellsOf, cellsOf, List.filter_filter]
  congr 1
  refine List.filter_congr fun c hc => ?_
  by_cases hown : c.key = key
  · have hcn : c.id ≠ n := by
      rintro rfl
      rw [hcs c hc, decide_eq_true hown] at hn
      exact Bool.false_ne_true hn.symm
    simp [hown, hcn]
  · simp [hown]

end CellsOf

namespace Table

/-- A table is the part of another one that belongs to a key. -/
structure KeyPart (key : String) (keep cell : Nat → Bool) (t u : Table α) : Prop where
  retention : u.retention = t.retention
  nextId : u.nextId = rank cell t.nextId
  cells : u.cells = cellsOf key keep cell t.cells
  aside : u.aside = cellsOf key keep cell t.aside
  cell_eq : ∀ c ∈ t.known, cell c.id = decide (c.key = key)
  /-- Only unselected tasks sleep at the other cells. -/
  strangers : ∀ c ∈ t.known, c.key ≠ key → ∀ j ∈ c.sleepers, keep j = false
  /-- Cells set aside have somebody who waits there. -/
  busy : ∀ c ∈ t.aside, c.waiters ≠ 0

namespace KeyPart

variable {key key' : String} {keep cell cell' : Nat → Bool} {t t' u : Table α} {n id : Nat}
  {f f' : Cell α → Cell α} {w : Wait} {a : α}

theorem empty (key : String) (keep cell : Nat → Bool) (p : Retention) :
    KeyPart key keep cell (empty p : Table α) (Table.empty p) := by
  constructor <;> simp [Table.empty, Table.known, cellsOf, rank]

theorem countStats (h : KeyPart key keep cell t u) (g g' : Stats → Stats) :
    KeyPart key keep cell (t.countStats g) (u.countStats g') :=
  ⟨h.retention, h.nextId, h.cells, h.aside, h.cell_eq, h.strangers, h.busy⟩

theorem countStats_left (h : KeyPart key keep cell t u) (g : Stats → Stats) :
    KeyPart key keep cell (t.countStats g) u :=
  ⟨h.retention, h.nextId, h.cells, h.aside, h.cell_eq, h.strangers, h.busy⟩

/-- Which numbers are selected matters only of cells that have been there. -/
theorem congr (h : KeyPart key keep cell t u) (hlt : ∀ c ∈ t.known, c.id < t.nextId)
    (hcell : ∀ i < t.nextId, cell i = cell' i) : KeyPart key keep cell' t u where
  retention := h.retention
  nextId := h.nextId.trans (rank_congr hcell)
  cells := h.cells.trans <| cellsOf_congr fun c hc i hi =>
    hcell i (Nat.lt_trans hi (hlt c (mem_known_of_mem_cells hc)))
  aside := h.aside.trans <| cellsOf_congr fun c hc i hi =>
    hcell i (Nat.lt_trans hi (hlt c (mem_known_of_mem_aside hc)))
  cell_eq c hc := (hcell c.id (hlt c hc)).symm.trans (h.cell_eq c hc)
  strangers := h.strangers
  busy := h.busy

theorem cell_of_key (h : KeyPart key keep cell t u) {c : Cell α} (hc : c ∈ t.known)
    (hkey : c.key = key) : cell c.id = true := by
  rw [h.cell_eq c hc, decide_eq_true hkey]

theorem cell_of_other (h : KeyPart key keep cell t u) {c : Cell α} (hc : c ∈ t.known)
    (hkey : c.key ≠ key) : cell c.id = false := by
  rw [h.cell_eq c hc, decide_eq_false hkey]

theorem find? (h : KeyPart key keep cell t u) :
    u.find? key = (t.find? key).map (Cell.renumber keep cell) := by
  rw [Table.find?, h.cells, cellsOf, List.find?_map, List.find?_filter, Table.find?]
  congr 1
  refine List.find?_congr fun c _ => ?_
  by_cases hkey : c.key = key <;> simp [Cell.renumber, hkey]

theorem cell? (h : KeyPart key keep cell t u) (hn : cell n = true) :
    u.cell? (rank cell n) = (t.cell? n).map (Cell.renumber keep cell) := by
  rw [Table.cell?, h.cells, h.aside, ← cellsOf_append, cellsOf, List.find?_map, List.find?_filter,
    Table.cell?]
  congr 1
  refine List.find?_congr fun c hc => ?_
  by_cases hkey : c.key = key
  · have hid : (c.renumber keep cell).id = rank cell n ↔ c.id = n :=
      rank_inj (h.cell_of_key hc hkey) hn
    simp [hkey, hid]
  · have hcn : c.id ≠ n := by
      rintro rfl
      rw [h.cell_of_other hc hkey] at hn
      exact Bool.false_ne_true hn
    simp [hkey, hcn]

/-! ## One cell -/

/-- A change that leaves a cell its number, its key and those who wait there. -/
def Gentle (f : Cell α → Cell α) : Prop :=
  ∀ c, (f c).id = c.id ∧ (f c).key = c.key ∧ c.waiters ≤ (f c).waiters

theorem gentle_fill (now : Nat) (a : α) : Gentle fun c : Cell α => c.fill now a :=
  fun _ => ⟨rfl, rfl, Nat.le_refl _⟩

theorem gentle_clear : Gentle (Cell.clear : Cell α → Cell α) := fun _ => ⟨rfl, rfl, Nat.le_refl _⟩

theorem gentle_enter (id : TaskId) : Gentle fun c : Cell α => c.enter id :=
  fun _ => ⟨rfl, rfl, Nat.le_succ _⟩

theorem gentle_sleep (id : TaskId) : Gentle fun c : Cell α => c.sleep id :=
  fun c => ⟨c.id_sleep id, c.key_sleep id, Nat.le_of_eq (c.waiters_sleep id).symm⟩

theorem busy_change (h : KeyPart key keep cell t u) (hf : Gentle f) :
    ∀ c ∈ (t.change n f).aside, c.waiters ≠ 0 := by
  intro c' hc'
  obtain ⟨c, hc, rfl⟩ := List.mem_map.mp hc'
  have hbusy := h.busy c hc
  have := (hf c).2.2
  split
  · omega
  · exact hbusy

theorem cell_eq_change (h : KeyPart key keep cell t u)
    (hf : ∀ c, (f c).id = c.id ∧ (f c).key = c.key) :
    ∀ c ∈ (t.change n f).known, cell c.id = decide (c.key = key) := by
  intro c' hc'
  obtain ⟨c, hc, ⟨-, rfl⟩ | ⟨-, rfl⟩⟩ := mem_known_change hc'
  · rw [(hf c).1, (hf c).2]
    exact h.cell_eq c hc
  · exact h.cell_eq c' hc

theorem strangers_change (h : KeyPart key keep cell t u) (hkey : ∀ c, (f c).key = c.key)
    (hn : ∀ c ∈ t.known, c.id = n → c.key ≠ key → ∀ j ∈ (f c).sleepers, keep j = false) :
    ∀ c ∈ (t.change n f).known, c.key ≠ key → ∀ j ∈ c.sleepers, keep j = false := by
  intro c' hc' hne
  obtain ⟨c, hc, ⟨hid, rfl⟩ | ⟨-, rfl⟩⟩ := mem_known_change hc'
  · exact hn c hc hid (by rwa [hkey] at hne)
  · exact h.strangers c' hc hne

/-- A selected cell is one of the key. -/
theorem key_of_cell (h : KeyPart key keep cell t u) {c : Cell α} (hc : c ∈ t.known)
    (hcell : cell c.id = true) : c.key = key := by
  rw [h.cell_eq c hc] at hcell
  exact of_decide_eq_true hcell

theorem change_own (h : KeyPart key keep cell t u) (hn : cell n = true) (hgentle : Gentle f)
    (hf : ∀ c, (f c).renumber keep cell = f' (c.renumber keep cell)) :
    KeyPart key keep cell (t.change n f) (u.change (rank cell n) f') where
  retention := h.retention
  nextId := h.nextId
  cells := by
    simp only [Table.change, h.cells]
    exact (cellsOf_change_own f f' (fun c hc => h.cell_eq c (mem_known_of_mem_cells hc)) hn
      (fun c => (hgentle c).2.1) hf).symm
  aside := by
    simp only [Table.change, h.aside]
    exact (cellsOf_change_own f f' (fun c hc => h.cell_eq c (mem_known_of_mem_aside hc)) hn
      (fun c => (hgentle c).2.1) hf).symm
  cell_eq := h.cell_eq_change fun c => ⟨(hgentle c).1, (hgentle c).2.1⟩
  strangers := h.strangers_change (fun c => (hgentle c).2.1) fun c hc hid hne =>
    absurd (h.key_of_cell hc (hid ▸ hn)) hne
  busy := h.busy_change hgentle

theorem change_other (h : KeyPart key keep cell t u) (hn : cell n = false) (hgentle : Gentle f)
    (hf : ∀ c ∈ t.known, c.id = n → ∀ j ∈ (f c).sleepers, keep j = false) :
    KeyPart key keep cell (t.change n f) u where
  retention := h.retention
  nextId := h.nextId
  cells := h.cells.trans (cellsOf_change_other keep f
    (fun c hc => h.cell_eq c (mem_known_of_mem_cells hc)) hn fun c => (hgentle c).2.1).symm
  aside := h.aside.trans (cellsOf_change_other keep f
    (fun c hc => h.cell_eq c (mem_known_of_mem_aside hc)) hn fun c => (hgentle c).2.1).symm
  cell_eq := h.cell_eq_change fun c => ⟨(hgentle c).1, (hgentle c).2.1⟩
  strangers := h.strangers_change (fun c => (hgentle c).2.1) fun c hc hid _ => hf c hc hid
  busy := h.busy_change hgentle

theorem strangers_of_cell (h : KeyPart key keep cell t u) (hn : cell n = false) :
    ∀ c ∈ t.known, c.id = n → ∀ j ∈ c.sleepers, keep j = false := by
  rintro c hc rfl
  refine h.strangers c hc fun hkey => ?_
  rw [h.cell_of_key hc hkey] at hn
  exact Bool.false_ne_true hn.symm

theorem busy_leave : ∀ c ∈ (t.leave n id).aside, c.waiters ≠ 0 := fun c hc => by
  simpa using (List.mem_filter.mp hc).2

theorem leave_own (h : KeyPart key keep cell t u) (hn : cell n = true) (hid : keep id = true) :
    KeyPart key keep cell (t.leave n id) (u.leave (rank cell n) (rank keep id)) := by
  have hleave (c : Cell α) : (c.leave id).renumber keep cell =
      (c.renumber keep cell).leave (rank keep id) := by
    simp only [Cell.leave, Cell.renumber, pick_filter_of_pos hid]
  have hcells := cellsOf_change_own (fun c => c.leave id) (fun c => c.leave (rank keep id))
    (fun c hc => h.cell_eq c (mem_known_of_mem_cells hc)) hn (fun _ => rfl) hleave
  have haside := cellsOf_change_own (fun c => c.leave id) (fun c => c.leave (rank keep id))
    (fun c hc => h.cell_eq c (mem_known_of_mem_aside hc)) hn (fun _ => rfl) hleave
  refine ⟨h.retention, h.nextId, ?_, ?_, fun c hc => ?_, fun c hc => ?_, busy_leave⟩
  · simp only [Table.leave, Table.change, h.cells]
    exact hcells.symm
  · simp only [Table.leave, Table.change, h.aside]
    rw [cellsOf_filter (fun _ => rfl), haside]
  · exact h.cell_eq_change (f := fun c => c.leave id) (fun _ => ⟨rfl, rfl⟩) c (mem_known_leave hc)
  · refine h.strangers_change (f := fun c => c.leave id) (fun _ => rfl)
      (fun c hc heq hne => ?_) c (mem_known_leave hc)
    exact absurd (h.key_of_cell hc (heq ▸ hn)) hne

theorem leave_other (h : KeyPart key keep cell t u) (hn : cell n = false) :
    KeyPart key keep cell (t.leave n id) u := by
  have hcells := cellsOf_change_other keep (fun c => c.leave id)
    (fun c hc => h.cell_eq c (mem_known_of_mem_cells hc)) hn fun _ => rfl
  have haside := cellsOf_change_other keep (fun c => c.leave id)
    (fun c hc => h.cell_eq c (mem_known_of_mem_aside hc)) hn fun _ => rfl
  refine ⟨h.retention, h.nextId, h.cells.trans hcells.symm, ?_, fun c hc => ?_, fun c hc => ?_,
    busy_leave⟩
  · -- the cells of the key that are aside had somebody there before and still have
    have hkept : (u.aside.filter fun c => c.waiters ≠ 0) = u.aside := by
      refine List.filter_eq_self.mpr fun c hc => ?_
      rw [h.aside] at hc
      obtain ⟨d, hd, rfl⟩ := List.mem_map.mp hc
      have hbusy : (d.renumber keep cell).waiters ≠ 0 := h.busy d (List.mem_of_mem_filter hd)
      simpa using hbusy
    simp only [Table.leave, Table.change]
    rw [cellsOf_filter (fun _ => rfl), haside, ← h.aside, hkept]
  · exact h.cell_eq_change (f := fun c => c.leave id) (fun _ => ⟨rfl, rfl⟩) c (mem_known_leave hc)
  · refine h.strangers_change (f := fun c => c.leave id) (fun _ => rfl)
      (fun c hc heq _ j hj => ?_) c (mem_known_leave hc)
    exact h.strangers_of_cell hn c hc heq j (List.mem_of_mem_filter hj)

theorem remove_own (h : KeyPart key keep cell t u) (hn : cell n = true) :
    KeyPart key keep cell (t.remove n) (u.remove (rank cell n)) where
  retention := h.retention
  nextId := h.nextId
  cells := by
    simp only [Table.remove, h.cells]
    exact (cellsOf_remove_own (fun c hc => h.cell_eq c (mem_known_of_mem_cells hc)) hn).symm
  aside := by
    simp only [Table.remove, h.aside]
    exact (cellsOf_remove_own (fun c hc => h.cell_eq c (mem_known_of_mem_aside hc)) hn).symm
  cell_eq c hc := h.cell_eq c (mem_known_remove hc)
  strangers c hc := h.strangers c (mem_known_remove hc)
  busy c hc := h.busy c (List.mem_of_mem_filter hc)

theorem remove_other (h : KeyPart key keep cell t u) (hn : cell n = false) :
    KeyPart key keep cell (t.remove n) u where
  retention := h.retention
  nextId := h.nextId
  cells := h.cells.trans
    (cellsOf_remove_other (fun c hc => h.cell_eq c (mem_known_of_mem_cells hc)) hn).symm
  aside := h.aside.trans
    (cellsOf_remove_other (fun c hc => h.cell_eq c (mem_known_of_mem_aside hc)) hn).symm
  cell_eq c hc := h.cell_eq c (mem_known_remove hc)
  strangers c hc := h.strangers c (mem_known_remove hc)
  busy c hc := h.busy c (List.mem_of_mem_filter hc)

theorem withCell_own (h : KeyPart key keep cell t u) (hnew : cell t.nextId = true) (now : Nat) :
    KeyPart key keep cell (t.withCell now key).1 (u.withCell now key).1 ∧
      (u.withCell now key).2 = (t.withCell now key).2.renumber keep cell ∧
      cell (t.withCell now key).2.id = true := by
  have hfind := h.find?
  rcases t.withCell_cases now key with ⟨c, hc, heq⟩ | ⟨hnone, heq⟩
  · obtain ⟨hmem, hkey⟩ := find?_eq_some hc
    rw [hc] at hfind
    rw [heq, Table.withCell, hfind]
    exact ⟨h, rfl, h.cell_of_key (mem_known_of_mem_cells hmem) hkey⟩
  · rw [hnone] at hfind
    have hcell : Cell.new u.nextId key now =
        (Cell.new t.nextId key now : Cell α).renumber keep cell := by
      rw [h.nextId]
      rfl
    rw [heq, Table.withCell, hfind]
    refine ⟨⟨h.retention, ?_, ?_, h.aside, fun c hc => ?_, fun c hc => ?_, h.busy⟩, hcell, hnew⟩
    · simp only [Option.map_none, h.nextId, rank_succ, if_pos hnew]
    · have hadded : cellsOf key keep cell [Cell.new t.nextId key now] =
          [(Cell.new t.nextId key now : Cell α).renumber keep cell] := cellsOf_cons_of_pos rfl
      simp only [Option.map_none, h.cells, cellsOf_append, hcell, hadded]
    · rcases mem_known_added hc with hc | rfl
      · exact h.cell_eq c hc
      · exact hnew.trans (decide_eq_true rfl).symm
    · rcases mem_known_added hc with hc | rfl
      · exact h.strangers c hc
      · exact fun _ j hj => absurd hj List.not_mem_nil

theorem withCell_other (h : KeyPart key keep cell t u) (hne : key' ≠ key)
    (hnew : cell t.nextId = false) (now : Nat) :
    KeyPart key keep cell (t.withCell now key').1 u ∧ cell (t.withCell now key').2.id = false := by
  rcases t.withCell_cases now key' with ⟨c, hc, heq⟩ | ⟨-, heq⟩
  · obtain ⟨hmem, rfl⟩ := find?_eq_some hc
    rw [heq]
    exact ⟨h, h.cell_of_other (mem_known_of_mem_cells hmem) hne⟩
  · rw [heq]
    refine ⟨⟨h.retention, ?_, ?_, h.aside, fun c hc => ?_, fun c hc => ?_, h.busy⟩, hnew⟩
    · simp [h.nextId, rank_succ, hnew]
    · have hadded : cellsOf key keep cell [(Cell.new t.nextId key' now : Cell α)] = [] :=
        cellsOf_cons_of_neg hne
      simp only [h.cells, cellsOf_append, hadded, List.append_nil]
    · rcases mem_known_added hc with hc | rfl
      · exact h.cell_eq c hc
      · exact hnew.trans (decide_eq_false hne).symm
    · rcases mem_known_added hc with hc | rfl
      · exact h.strangers c hc
      · exact fun _ j hj => absurd hj List.not_mem_nil

/-! ## The operations -/

theorem takeReady_own (h : KeyPart key keep cell t u) (ht : t.takeReady? key = some (a, t')) :
    ∃ u', u.takeReady? key = some (a, u') ∧ KeyPart key keep cell t' u' := by
  obtain ⟨c, d, hc, hslot, rfl, rfl⟩ := takeReady?_eq_some ht
  obtain ⟨hmem, hkey⟩ := find?_eq_some hc
  have hcell := h.cell_of_key (mem_known_of_mem_cells hmem) hkey
  have hfind := h.find?
  rw [hc, Option.map_some] at hfind
  refine ⟨_, by rw [takeReady?, hfind]; simp [Cell.renumber, hslot]; rfl, ?_⟩
  by_cases hw : c.waiters = 0
  · rw [if_pos hw, if_pos hw]
    exact h.remove_own hcell
  · rw [if_neg hw, if_neg hw]
    exact h.change_own hcell gentle_clear fun _ => rfl

theorem takeReady_none (h : KeyPart key keep cell t u) (ht : t.takeReady? key = none) :
    u.takeReady? key = none := by
  rw [takeReady?_eq_none] at ht ⊢
  rw [h.find?]
  intro c' hc'
  obtain ⟨c, hc, rfl⟩ := Option.map_eq_some_iff.mp hc'
  exact ht c hc

theorem takeReady_other (h : KeyPart key keep cell t u) (hne : key' ≠ key)
    (ht : t.takeReady? key' = some (a, t')) : KeyPart key keep cell t' u := by
  obtain ⟨c, d, hc, -, -, rfl⟩ := takeReady?_eq_some ht
  obtain ⟨hmem, rfl⟩ := find?_eq_some hc
  have hcell := h.cell_of_other (mem_known_of_mem_cells hmem) hne
  split
  · exact h.remove_other hcell
  · exact h.change_other hcell gentle_clear (h.strangers_of_cell hcell)

theorem takeAwaited_own (h : KeyPart key keep cell t u) (hn : cell n = true)
    (ht : t.takeAwaited? n = some (a, t')) :
    ∃ u', u.takeAwaited? (rank cell n) = some (a, u') ∧ KeyPart key keep cell t' u' := by
  obtain ⟨c, d, hc, hslot, rfl, rfl⟩ := takeAwaited?_eq_some ht
  have hcell := h.cell? hn
  rw [hc, Option.map_some] at hcell
  refine ⟨_, by rw [takeAwaited?, hcell]; simp [Cell.renumber, hslot]; rfl, ?_⟩
  by_cases hw : c.waiters ≤ 1
  · rw [if_pos hw, if_pos hw]
    exact h.remove_own hn
  · rw [if_neg hw, if_neg hw]
    exact h.change_own hn gentle_clear fun _ => rfl

theorem takeAwaited_none (h : KeyPart key keep cell t u) (hn : cell n = true)
    (ht : t.takeAwaited? n = none) : u.takeAwaited? (rank cell n) = none := by
  rw [takeAwaited?_eq_none] at ht ⊢
  rw [h.cell? hn]
  intro c' hc'
  obtain ⟨c, hc, rfl⟩ := Option.map_eq_some_iff.mp hc'
  exact ht c hc

theorem takeAwaited_other (h : KeyPart key keep cell t u) (hn : cell n = false)
    (ht : t.takeAwaited? n = some (a, t')) : KeyPart key keep cell t' u := by
  obtain ⟨c, d, -, -, -, rfl⟩ := takeAwaited?_eq_some ht
  split
  · exact h.remove_other hn
  · exact h.change_other hn gentle_clear (h.strangers_of_cell hn)

theorem fetch_own (h : KeyPart key keep cell t u) (hnew : cell t.nextId = true)
    (hid : keep id = true) (now limit : Nat) :
    KeyPart key keep cell (t.fetch now id key limit).1 (u.fetch now (rank keep id) key limit).1 ∧
      (u.fetch now (rank keep id) key limit).2 = (t.fetch now id key limit).2.renumber cell := by
  cases ht : t.takeReady? key with
  | some r =>
    obtain ⟨u', hu, hpart⟩ := h.takeReady_own ht
    simp only [fetch, ht, hu]
    exact ⟨hpart.countStats _ _, rfl⟩
  | none =>
    obtain ⟨hpart, hcell, hn⟩ := h.withCell_own hnew now
    have henter (c : Cell α) : (c.enter id).renumber keep cell =
        (c.renumber keep cell).enter (rank keep id) := by
      simp only [Cell.enter, Cell.renumber, pick_append, pick_singleton_of_pos hid]
    simp only [fetch, ht, h.takeReady_none ht, hcell]
    exact ⟨hpart.change_own hn (gentle_enter id) henter, rfl⟩

theorem fetch_other (h : KeyPart key keep cell t u) (hne : key' ≠ key)
    (hnew : cell t.nextId = false) (hid : keep id = false) (now limit : Nat) :
    KeyPart key keep cell (t.fetch now id key' limit).1 u := by
  cases ht : t.takeReady? key' with
  | some r =>
    simp only [fetch, ht]
    exact (h.takeReady_other hne ht).countStats_left _
  | none =>
    obtain ⟨hpart, hn⟩ := h.withCell_other hne hnew now
    simp only [fetch, ht]
    refine hpart.change_other hn (gentle_enter id) fun c hc heq j hj => ?_
    rcases List.mem_append.mp hj with hj | hj
    · exact hpart.strangers_of_cell hn c hc heq j hj
    · rw [List.mem_singleton.mp hj, hid]

theorem resume_own (h : KeyPart key keep cell t u) (hn : cell w.cell = true) (hid : keep id = true)
    (clock : Clock) :
    KeyPart key keep cell (t.resume clock id w).1
        (u.resume clock (rank keep id) (w.renumber cell)).1 ∧
      (u.resume clock (rank keep id) (w.renumber cell)).2 =
        (t.resume clock id w).2.renumber cell := by
  have hcell : (w.renumber cell).cell = rank cell w.cell := rfl
  have hdeadline : (w.renumber cell).deadline = w.deadline := rfl
  cases ht : t.takeAwaited? w.cell with
  | some r =>
    obtain ⟨u', hu, hpart⟩ := h.takeAwaited_own hn ht
    simp only [resume, ht, hcell, hu]
    exact ⟨(hpart.leave_own hn hid).countStats _ _, rfl⟩
  | none =>
    simp only [resume, ht, hcell, hdeadline, h.takeAwaited_none hn ht]
    by_cases hd : w.deadline.any (· ≤ clock.rung) = true
    · simp only [if_pos hd]
      exact ⟨(h.leave_own hn hid).countStats _ _, rfl⟩
    · simp only [if_neg hd]
      have hsleep (c : Cell α) : (c.sleep id).renumber keep cell =
          (c.renumber keep cell).sleep (rank keep id) := by
        have hmem : rank keep id ∈ (c.renumber keep cell).sleepers ↔ id ∈ c.sleepers :=
          mem_pick hid
        by_cases hc : id ∈ c.sleepers
        · rw [Cell.sleep, if_pos hc, Cell.sleep, if_pos (hmem.mpr hc)]
        · rw [Cell.sleep, if_neg hc, Cell.sleep, if_neg (fun hr => hc (hmem.mp hr))]
          simp only [Cell.renumber, pick_append, pick_singleton_of_pos hid]
      exact ⟨h.change_own hn (gentle_sleep id) hsleep, rfl⟩

theorem resume_other (h : KeyPart key keep cell t u) (hn : cell w.cell = false)
    (hid : keep id = false) (clock : Clock) : KeyPart key keep cell (t.resume clock id w).1 u := by
  cases ht : t.takeAwaited? w.cell with
  | some r =>
    simp only [resume, ht]
    exact ((h.takeAwaited_other hn ht).leave_other hn).countStats_left _
  | none =>
    simp only [resume, ht]
    by_cases hd : w.deadline.any (· ≤ clock.rung) = true
    · simp only [if_pos hd]
      exact (h.leave_other hn).countStats_left _
    · simp only [if_neg hd]
      refine h.change_other hn (gentle_sleep id) fun c hc heq j hj => ?_
      have hsleepers := h.strangers_of_cell hn c hc heq
      rcases (c.mem_sleepers_sleep id j).mp hj with hj | rfl
      · exact hsleepers j hj
      · exact hid

theorem deposit_own (h : KeyPart key keep cell t u) (hnew : cell t.nextId = true) (now : Nat)
    (a : α) :
    KeyPart key keep cell (t.deposit now key a).1 (u.deposit now key a).1 ∧
      (u.deposit now key a).2.1 = (t.deposit now key a).2.1 ∧
      (u.deposit now key a).2.2 = pick keep (t.deposit now key a).2.2 := by
  obtain ⟨hpart, hcell, hn⟩ := h.withCell_own hnew now
  simp only [deposit, hcell]
  exact ⟨(hpart.change_own hn (gentle_fill now a) fun _ => rfl).countStats _ _, rfl, rfl⟩

theorem deposit_other (h : KeyPart key keep cell t u) (hne : key' ≠ key)
    (hnew : cell t.nextId = false) (now : Nat) (a : α) :
    KeyPart key keep cell (t.deposit now key' a).1 u ∧
      ∀ j ∈ (t.deposit now key' a).2.2, keep j = false := by
  obtain ⟨hpart, hn⟩ := h.withCell_other hne hnew now
  have hmem := mem_known_of_mem_cells (find?_eq_some (t.find?_withCell now key')).1
  refine ⟨?_, hpart.strangers_of_cell hn _ hmem rfl⟩
  rw [fst_deposit]
  exact (hpart.change_other hn (gentle_fill now a) fun _ _ _ j hj =>
    absurd hj List.not_mem_nil).countStats_left _

theorem sweep (h : KeyPart key keep cell t u) (asOf : Int) :
    KeyPart key keep cell (t.sweep asOf).1 (u.sweep asOf).1 := by
  refine ⟨h.retention, h.nextId, ?_, ?_, fun c hc => h.cell_eq c (mem_known_sweep hc),
    fun c hc => h.strangers c (mem_known_sweep hc), fun c hc => ?_⟩
  · simp only [Table.sweep, h.cells, h.retention]
    exact (cellsOf_filter fun _ => rfl).symm
  · simp only [Table.sweep, h.cells, h.aside, h.retention, cellsOf_append]
    rw [cellsOf_filter (fun _ => rfl), cellsOf_filter (fun _ => rfl)]
  · rcases List.mem_append.mp hc with hc | hc
    · exact h.busy c hc
    · simpa using (List.mem_filter.mp hc).2

theorem sweepTimes (h : KeyPart key keep cell t u) (now n : Nat) :
    KeyPart key keep cell (t.sweepTimes now n).1 (u.sweepTimes now n).1 := by
  induction n generalizing t u with
  | zero => exact h
  | succ n ih => exact ih (h.sweep now)

end KeyPart
end Table
end EbmsMessaging.Correlation
