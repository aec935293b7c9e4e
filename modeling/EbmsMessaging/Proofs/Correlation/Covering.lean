import EbmsMessaging.Proofs.Correlation.Sleepers

/-!
# A table that keeps its unused cells

Two tables go through the same, but only one of them removes cells that nobody uses. The other one
covers it: it has all its cells, under other numbers, and besides them only cells that nobody uses.
A cell that was removed and is made again is a new one there and the old one here, so the numbers
differ, and so do the ages. Nothing but the sweep of unused cells looks at the age of a cell, and
whoever uses the old one finds it like new.
-/
namespace EbmsMessaging.Correlation

variable {α : Type}

/-- A wait at the cell that stands for the one here on another side. -/
def Wait.moved (f : Nat → Nat) (w : Wait) : Wait := { w with cell := f w.cell }

def Attempt.moved (f : Nat → Nat) : Attempt α → Attempt α
  | .ended outcome => .ended outcome
  | .entered w => .entered (w.moved f)
  | .waiting w => .waiting (w.moved f)

namespace Cell

/-- What is in a cell, whatever its number and its age. -/
def contents (c : Cell α) : String × Option (Deposit α) × Nat × List TaskId :=
  (c.key, c.slot, c.waiters, c.sleepers)

/-- Cells with the same contents, the second under the number that stands for that of the first.
They may differ in age. -/
structure Twin (f : Nat → Nat) (c d : Cell α) : Prop where
  id : d.id = f c.id
  key : d.key = c.key
  slot : d.slot = c.slot
  waiters : d.waiters = c.waiters
  sleepers : d.sleepers = c.sleepers

/-- Like a new cell. -/
structure Idle (d : Cell α) : Prop where
  slot : d.slot = none
  waiters : d.waiters = 0
  sleepers : d.sleepers = []

theorem of_isUnused {p : Retention} {asOf : Int} {c : Cell α} (h : c.isUnused p asOf = true) :
    c.slot = none ∧ c.waiters = 0 := by
  unfold isUnused at h
  split at h
  · next hslot _ => exact ⟨hslot, by simpa using ((Bool.and_eq_true _ _).mp h).2⟩
  · exact absurd h Bool.false_ne_true

namespace Twin

variable {f : Nat → Nat} {c d : Cell α}

theorem fill (h : Twin f c d) (now : Nat) (a : α) : Twin f (c.fill now a) (d.fill now a) :=
  ⟨h.id, h.key, rfl, h.waiters, rfl⟩

theorem clear (h : Twin f c d) : Twin f c.clear d.clear :=
  ⟨h.id, h.key, rfl, h.waiters, h.sleepers⟩

theorem enter (h : Twin f c d) (task : TaskId) : Twin f (c.enter task) (d.enter task) :=
  ⟨h.id, h.key, h.slot, congrArg (· + 1) h.waiters, congrArg (· ++ [task]) h.sleepers⟩

theorem leave (h : Twin f c d) (task : TaskId) : Twin f (c.leave task) (d.leave task) :=
  ⟨h.id, h.key, h.slot, congrArg (· - 1) h.waiters, congrArg (List.filter _) h.sleepers⟩

theorem sleep (h : Twin f c d) (task : TaskId) : Twin f (c.sleep task) (d.sleep task) := by
  rw [Cell.sleep_eq, Cell.sleep_eq, h.sleepers]
  exact ⟨h.id, h.key, h.slot, h.waiters, rfl⟩

theorem isExpired {p q : Retention} (h : Twin f c d) (hlimit : q.valueLimit = p.valueLimit)
    (asOf : Int) : d.isExpired q asOf = c.isExpired p asOf := by
  unfold Cell.isExpired
  rw [h.slot, hlimit]

end Twin
end Cell

namespace Table

open Cell (Twin Idle)

/-- The second list has a twin of each cell of the first, and besides them only idle cells. -/
structure Covered (f : Nat → Nat) (cs ds : List (Cell α)) : Prop where
  twin : ∀ c ∈ cs, ∃ d ∈ ds, Twin f c d
  twin_or_idle : ∀ d ∈ ds, (∃ c ∈ cs, Twin f c d) ∨ Idle d

namespace Covered

variable {f : Nat → Nat} {cs ds cs' ds' : List (Cell α)}

theorem nil : Covered f ([] : List (Cell α)) [] := by
  constructor <;> simp

theorem append (h : Covered f cs ds) (h' : Covered f cs' ds') :
    Covered f (cs ++ cs') (ds ++ ds') where
  twin c hc := by
    rcases List.mem_append.mp hc with hc | hc
    · obtain ⟨d, hd, htwin⟩ := h.twin c hc
      exact ⟨d, List.mem_append_left _ hd, htwin⟩
    · obtain ⟨d, hd, htwin⟩ := h'.twin c hc
      exact ⟨d, List.mem_append_right _ hd, htwin⟩
  twin_or_idle d hd := by
    rcases List.mem_append.mp hd with hd | hd
    · refine (h.twin_or_idle d hd).imp_left ?_
      rintro ⟨c, hc, htwin⟩
      exact ⟨c, List.mem_append_left _ hc, htwin⟩
    · refine (h'.twin_or_idle d hd).imp_left ?_
      rintro ⟨c, hc, htwin⟩
      exact ⟨c, List.mem_append_right _ hc, htwin⟩

/-- The same is left out on both sides, and on the first perhaps what is idle. -/
theorem filter (h : Covered f cs ds) {p q : Cell α → Bool}
    (hpq : ∀ c ∈ cs, ∀ d ∈ ds, Twin f c d → p c = true → q d = true)
    (hqp : ∀ c ∈ cs, ∀ d ∈ ds, Twin f c d → q d = true → p c = true ∨ Idle d) :
    Covered f (cs.filter p) (ds.filter q) where
  twin c hc := by
    obtain ⟨hc, hp⟩ := List.mem_filter.mp hc
    obtain ⟨d, hd, htwin⟩ := h.twin c hc
    exact ⟨d, List.mem_filter.mpr ⟨hd, hpq c hc d hd htwin hp⟩, htwin⟩
  twin_or_idle d hd := by
    obtain ⟨hd, hq⟩ := List.mem_filter.mp hd
    rcases h.twin_or_idle d hd with ⟨c, hc, htwin⟩ | hidle
    · rcases hqp c hc d hd htwin hq with hp | hidle
      · exact .inl ⟨c, List.mem_filter.mpr ⟨hc, hp⟩, htwin⟩
      · exact .inr hidle
    · exact .inr hidle

theorem congr {f' : Nat → Nat} (h : Covered f cs ds) (hf : ∀ c ∈ cs, f' c.id = f c.id) :
    Covered f' cs ds where
  twin c hc := by
    obtain ⟨d, hd, htwin⟩ := h.twin c hc
    exact ⟨d, hd, { htwin with id := htwin.id.trans (hf c hc).symm }⟩
  twin_or_idle d hd := by
    refine (h.twin_or_idle d hd).imp_left ?_
    rintro ⟨c, hc, htwin⟩
    exact ⟨c, hc, { htwin with id := htwin.id.trans (hf c hc).symm }⟩

end Covered

/-- One table covers another, in reach and aside. -/
structure Covers (f : Nat → Nat) (t u : Table α) : Prop where
  valueLimit : u.retention.valueLimit = t.retention.valueLimit
  emptyLimit : u.retention.emptyLimit = none
  stats : u.stats = { t.stats with sweptUnused := 0 }
  cells : Covered f t.cells u.cells
  aside : Covered f t.aside u.aside
  /-- No two cells have one number on the other side. -/
  injective : ∀ c ∈ t.known, ∀ c' ∈ t.known, f c.id = f c'.id → c.id = c'.id

namespace Covers

variable {f : Nat → Nat} {t u t' : Table α} {crowd crowd' : Crowd} {queue queue' : List TaskId}
  {key : String} {a : α} {id : TaskId} {w : Wait}

theorem empty (f : Nat → Nat) (valueLimit : Nat) (emptyLimit : Option Nat) :
    Covers f (empty ⟨valueLimit, emptyLimit⟩ : Table α) (.empty ⟨valueLimit, none⟩) :=
  ⟨rfl, rfl, rfl, .nil, .nil, by simp [known, Table.empty]⟩

theorem congr {f' : Nat → Nat} (h : Covers f t u) (hf : ∀ c ∈ t.known, f' c.id = f c.id) :
    Covers f' t u where
  valueLimit := h.valueLimit
  emptyLimit := h.emptyLimit
  stats := h.stats
  cells := h.cells.congr fun c hc => hf c (mem_known_of_mem_cells hc)
  aside := h.aside.congr fun c hc => hf c (mem_known_of_mem_aside hc)
  injective c hc c' hc' heq := h.injective c hc c' hc' (by rwa [hf c hc, hf c' hc'] at heq)

theorem countStats (h : Covers f t u) {g : Stats → Stats}
    (hg : ∀ s, g { s with sweptUnused := 0 } = { g s with sweptUnused := 0 }) :
    Covers f (t.countStats g) (u.countStats g) :=
  { h with stats := by simp only [Table.countStats, h.stats, hg] }

/-! ## Finding cells -/

theorem find?_some (h : Covers f t u) (hu : u.Hosts crowd queue) {c : Cell α}
    (hfind : t.find? key = some c) : ∃ d, u.find? key = some d ∧ Twin f c d := by
  obtain ⟨hc, rfl⟩ := find?_eq_some hfind
  obtain ⟨d, hd, htwin⟩ := h.cells.twin c hc
  exact ⟨d, hu.find?_eq_some_iff.mpr ⟨hd, htwin.key⟩, htwin⟩

/-- A cell that is found on one side only is idle. -/
theorem find?_none (h : Covers f t u) (hnone : t.find? key = none) {d : Cell α}
    (hfind : u.find? key = some d) : Idle d := by
  obtain ⟨hd, rfl⟩ := find?_eq_some hfind
  refine (h.cells.twin_or_idle d hd).resolve_left ?_
  rintro ⟨c, hc, htwin⟩
  exact find?_eq_none.mp hnone c hc htwin.key.symm

theorem exists_twin (h : Covers f t u) {c : Cell α} (hc : c ∈ t.known) :
    ∃ d ∈ u.known, Twin f c d := by
  rcases List.mem_append.mp hc with hc | hc
  · obtain ⟨d, hd, htwin⟩ := h.cells.twin c hc
    exact ⟨d, mem_known_of_mem_cells hd, htwin⟩
  · obtain ⟨d, hd, htwin⟩ := h.aside.twin c hc
    exact ⟨d, mem_known_of_mem_aside hd, htwin⟩

theorem cell?_some (h : Covers f t u) (hu : u.Hosts crowd queue) {n : Nat} {c : Cell α}
    (hcell : t.cell? n = some c) : ∃ d, u.cell? (f n) = some d ∧ Twin f c d := by
  obtain ⟨hc, rfl⟩ := cell?_eq_some hcell
  obtain ⟨d, hd, htwin⟩ := h.exists_twin hc
  exact ⟨d, hu.cell?_eq_some_iff.mpr ⟨hd, htwin.id⟩, htwin⟩

/-- Under the number that stands for a cell there is its twin, and no other cell. -/
theorem twin_of_id (h : Covers f t u) (hu : u.Hosts crowd queue) {c d : Cell α} (hc : c ∈ t.known)
    (hd : d ∈ u.known) (hid : d.id = f c.id) :
    Twin f c d ∧ (d ∈ u.cells → c ∈ t.cells) ∧ (d ∈ u.aside → c ∈ t.aside) := by
  rcases List.mem_append.mp hc with hc | hc
  · obtain ⟨d', hd', htwin⟩ := h.cells.twin c hc
    obtain rfl := hu.eq_of_id hd (mem_known_of_mem_cells hd') (hid.trans htwin.id.symm)
    exact ⟨htwin, fun _ => hc, fun haside => absurd rfl (hu.id_ne_of_aside hd' haside)⟩
  · obtain ⟨d', hd', htwin⟩ := h.aside.twin c hc
    obtain rfl := hu.eq_of_id hd (mem_known_of_mem_aside hd') (hid.trans htwin.id.symm)
    exact ⟨htwin, fun hcells => absurd rfl (hu.id_ne_of_aside hcells hd'), fun _ => hc⟩

/-! ## Changing and removing one cell -/

section OneCell

variable {c₀ : Cell α}

theorem twin_changed (h : Covers f t u) (hc₀ : c₀ ∈ t.known) {g : Cell α → Cell α}
    (hg : ∀ c d, Twin f c d → Twin f (g c) (g d)) {c d : Cell α} (hc : c ∈ t.known)
    (htwin : Twin f c d) :
    Twin f (if c.id = c₀.id then g c else c) (if d.id = f c₀.id then g d else d) := by
  by_cases heq : c.id = c₀.id
  · rw [if_pos heq, if_pos (htwin.id.trans (congrArg f heq))]
    exact hg c d htwin
  · rw [if_neg heq, if_neg fun hd => heq (h.injective c hc c₀ hc₀ (htwin.id.symm.trans hd))]
    exact htwin

/-- Some of the cells, in which a cell is changed along with its twin. -/
theorem covered_changed (h : Covers f t u) (hc₀ : c₀ ∈ t.known) {g : Cell α → Cell α}
    (hg : ∀ c d, Twin f c d → Twin f (g c) (g d)) {cs ds : List (Cell α)} (hcs : Covered f cs ds)
    (hknown : ∀ c ∈ cs, c ∈ t.known)
    (hback : ∀ d ∈ ds, d.id = f c₀.id → c₀ ∈ cs ∧ Twin f c₀ d) :
    Covered f (cs.map fun c => if c.id = c₀.id then g c else c)
      (ds.map fun d => if d.id = f c₀.id then g d else d) := by
  constructor
  · intro c' hc'
    obtain ⟨c, hc, rfl⟩ := List.mem_map.mp hc'
    obtain ⟨d, hd, htwin⟩ := hcs.twin c hc
    exact ⟨_, List.mem_map_of_mem hd, h.twin_changed hc₀ hg (hknown c hc) htwin⟩
  · intro d' hd'
    obtain ⟨d, hd, rfl⟩ := List.mem_map.mp hd'
    by_cases heq : d.id = f c₀.id
    · obtain ⟨hmem, htwin⟩ := hback d hd heq
      exact .inl ⟨_, List.mem_map_of_mem hmem, h.twin_changed hc₀ hg hc₀ htwin⟩
    · rcases hcs.twin_or_idle d hd with ⟨c, hc, htwin⟩ | hidle
      · exact .inl ⟨_, List.mem_map_of_mem hc, h.twin_changed hc₀ hg (hknown c hc) htwin⟩
      · rw [if_neg heq]
        exact .inr hidle

/-- A cell and its twin are changed alike. -/
theorem change (h : Covers f t u) (hu : u.Hosts crowd queue) (hc₀ : c₀ ∈ t.known)
    {g : Cell α → Cell α} (hid : ∀ c, (g c).id = c.id)
    (hg : ∀ c d, Twin f c d → Twin f (g c) (g d)) :
    Covers f (t.change c₀.id g) (u.change (f c₀.id) g) := by
  refine { h with
    cells := h.covered_changed hc₀ hg h.cells (fun c => mem_known_of_mem_cells)
      fun d hd heq => ?_
    aside := h.covered_changed hc₀ hg h.aside (fun c => mem_known_of_mem_aside)
      fun d hd heq => ?_
    injective := ?_ }
  · obtain ⟨htwin, hmem, -⟩ := h.twin_of_id hu hc₀ (mem_known_of_mem_cells hd) heq
    exact ⟨hmem hd, htwin⟩
  · obtain ⟨htwin, -, hmem⟩ := h.twin_of_id hu hc₀ (mem_known_of_mem_aside hd) heq
    exact ⟨hmem hd, htwin⟩
  · have hsame (c : Cell α) : (if c.id = c₀.id then g c else c).id = c.id := by
      split
      · exact hid c
      · rfl
    rw [known_change]
    intro c hc c' hc' heq
    obtain ⟨d, hd, rfl⟩ := List.mem_map.mp hc
    obtain ⟨d', hd', rfl⟩ := List.mem_map.mp hc'
    rw [hsame, hsame] at heq ⊢
    exact h.injective d hd d' hd' heq

/-- A cell and its twin are removed. -/
theorem remove (h : Covers f t u) (hc₀ : c₀ ∈ t.known) :
    Covers f (t.remove c₀.id) (u.remove (f c₀.id)) := by
  have hlist {cs ds : List (Cell α)} (hcs : Covered f cs ds) (hknown : ∀ c ∈ cs, c ∈ t.known) :
      Covered f (cs.filter fun c => c.id ≠ c₀.id) (ds.filter fun d => d.id ≠ f c₀.id) := by
    refine hcs.filter (fun c hc d _ htwin hne => ?_) fun c _ d _ htwin hne => .inl ?_
    · have hother : f c.id ≠ f c₀.id := fun heq =>
        of_decide_eq_true hne (h.injective c (hknown c hc) c₀ hc₀ heq)
      simpa [htwin.id] using hother
    · have hother : c.id ≠ c₀.id := fun heq =>
        of_decide_eq_true hne (htwin.id.trans (congrArg f heq))
      simpa using hother
  refine { h with
    cells := hlist h.cells fun c => mem_known_of_mem_cells
    aside := hlist h.aside fun c => mem_known_of_mem_aside
    injective := ?_ }
  exact fun c hc c' hc' => h.injective c (mem_known_remove hc) c' (mem_known_remove hc')

end OneCell

/-! ## The operations -/

/-- A cell is made for a key that had none, or had one that is kept on the other side. -/
theorem added (h : Covers f t u) {v : Table α} {d : Cell α} {now : Nat}
    (hfresh : ∀ c ∈ t.known, f c.id ≠ f t.nextId) (hd : Twin f (.new t.nextId key now) d)
    (hcells : ∀ e, e ∈ v.cells ↔ e ∈ u.cells ∨ e = d) (haside : v.aside = u.aside)
    (hretention : v.retention = u.retention) (hstats : v.stats = u.stats) :
    Covers f { t with cells := t.cells ++ [.new t.nextId key now], nextId := t.nextId + 1 } v where
  valueLimit := hretention ▸ h.valueLimit
  emptyLimit := hretention ▸ h.emptyLimit
  stats := hstats ▸ h.stats
  cells := by
    constructor
    · intro c hc
      rcases List.mem_append.mp hc with hc | hc
      · obtain ⟨e, he, htwin⟩ := h.cells.twin c hc
        exact ⟨e, (hcells e).mpr (.inl he), htwin⟩
      · obtain rfl := List.mem_singleton.mp hc
        exact ⟨d, (hcells d).mpr (.inr rfl), hd⟩
    · intro e he
      rcases (hcells e).mp he with he | rfl
      · refine (h.cells.twin_or_idle e he).imp_left ?_
        rintro ⟨c, hc, htwin⟩
        exact ⟨c, List.mem_append_left _ hc, htwin⟩
      · exact .inl ⟨_, List.mem_append_right _ (List.mem_singleton_self _), hd⟩
  aside := haside ▸ h.aside
  injective c hc c' hc' heq := by
    rcases mem_known_added hc with hc | rfl
    · rcases mem_known_added hc' with hc' | rfl
      · exact h.injective c hc c' hc' heq
      · exact absurd heq (hfresh c hc)
    · rcases mem_known_added hc' with hc' | rfl
      · exact absurd heq.symm (hfresh c' hc')
      · rfl

/-- A cell is found or made on both sides. The number of the next cell stands for the one on the
other side. -/
theorem withCell (h : Covers f t u) (hu : u.Hosts crowd queue) (now : Nat)
    (hnew : f t.nextId = (u.withCell now key).2.id) :
    Covers f (t.withCell now key).1 (u.withCell now key).1 ∧
      Twin f (t.withCell now key).2 (u.withCell now key).2 := by
  rcases t.withCell_cases now key with ⟨c, hc, heq⟩ | ⟨hnone, heq⟩
  · obtain ⟨d, hd, htwin⟩ := h.find?_some hu hc
    rw [heq, Table.withCell, hd]
    exact ⟨h, htwin⟩
  rcases u.withCell_cases now key with ⟨d, hd, heq'⟩ | ⟨-, heq'⟩
  · -- The cell was removed as unused, and its twin is used again.
    have hidle := h.find?_none hnone hd
    obtain ⟨hmem, hkey⟩ := find?_eq_some hd
    rw [heq'] at hnew
    have htwin : Twin f (.new t.nextId key now) d :=
      ⟨hnew.symm, hkey, hidle.slot, hidle.waiters, hidle.sleepers⟩
    have hfresh : ∀ c ∈ t.known, f c.id ≠ f t.nextId := by
      intro c hc hsame
      obtain ⟨hold, hcells, -⟩ :=
        h.twin_of_id hu hc (mem_known_of_mem_cells hmem) (hnew.symm.trans hsame.symm)
      exact find?_eq_none.mp hnone c (hcells hmem) (hold.key.symm.trans hkey)
    rw [heq, heq']
    refine ⟨h.added hfresh htwin (fun e => ?_) rfl rfl rfl, htwin⟩
    exact ⟨.inl, fun he => he.elim (fun he => he) fun he => he ▸ hmem⟩
  · rw [heq'] at hnew
    have htwin : Twin f (.new t.nextId key now : Cell α) (.new u.nextId key now) :=
      ⟨hnew.symm, rfl, rfl, rfl, rfl⟩
    have hfresh : ∀ c ∈ t.known, f c.id ≠ f t.nextId := by
      intro c hc hsame
      obtain ⟨d, hd, hold⟩ := h.exists_twin hc
      exact Nat.ne_of_lt (hu.id_lt d hd) (hold.id.trans (hsame.trans hnew))
    rw [heq, heq']
    exact ⟨h.added hfresh htwin (fun e => by simp) rfl rfl rfl, htwin⟩

theorem takeReady_some (h : Covers f t u) (hu : u.Hosts crowd queue)
    (htake : t.takeReady? key = some (a, t')) :
    ∃ u', u.takeReady? key = some (a, u') ∧ Covers f t' u' := by
  obtain ⟨c, deposit, hc, hslot, rfl, rfl⟩ := takeReady?_eq_some htake
  obtain ⟨d, hd, htwin⟩ := h.find?_some hu hc
  have hmem := mem_known_of_mem_cells (find?_eq_some hc).1
  refine ⟨_, by rw [takeReady?, hd]; simp [htwin.slot, hslot]; rfl, ?_⟩
  rw [htwin.waiters, htwin.id]
  split
  · exact h.remove hmem
  · exact h.change hu hmem (fun _ => rfl) fun _ _ => Twin.clear

theorem takeReady_none (h : Covers f t u) (hu : u.Hosts crowd queue)
    (htake : t.takeReady? key = none) : u.takeReady? key = none := by
  rw [takeReady?_eq_none] at htake ⊢
  intro d hd
  cases hfind : t.find? key with
  | none => exact (h.find?_none hfind hd).slot
  | some c =>
    obtain ⟨d', hd', htwin⟩ := h.find?_some hu hfind
    obtain rfl := Option.some.inj (hd.symm.trans hd')
    rw [htwin.slot]
    exact htake c hfind

theorem prune (h : Covers f t u) :
    Covers f { t with aside := t.aside.filter fun c => c.waiters ≠ 0 }
      { u with aside := u.aside.filter fun c => c.waiters ≠ 0 } := by
  have hsame (c d : Cell α) (htwin : Twin f c d) :
      decide (d.waiters ≠ 0) = decide (c.waiters ≠ 0) := by rw [htwin.waiters]
  have hknown : ∀ c ∈ Table.known { t with aside := t.aside.filter fun c => c.waiters ≠ 0 },
      c ∈ t.known := by
    intro c hc
    rcases List.mem_append.mp hc with hc | hc
    · exact List.mem_append_left _ hc
    · exact mem_known_of_mem_aside (List.mem_of_mem_filter hc)
  exact { h with
    aside := h.aside.filter (fun c _ d _ htwin hc => (hsame c d htwin).trans hc)
      fun c _ d _ htwin hd => .inl ((hsame c d htwin).symm.trans hd)
    injective := fun c hc c' hc' => h.injective c (hknown c hc) c' (hknown c' hc') }

theorem leave (h : Covers f t u) (hu : u.Hosts crowd queue) {c₀ : Cell α} (hc₀ : c₀ ∈ t.known)
    (id : TaskId) : Covers f (t.leave c₀.id id) (u.leave (f c₀.id) id) :=
  (h.change (g := fun c => c.leave id) hu hc₀ (fun _ => rfl) fun _ _ htwin => htwin.leave id).prune

/-- A task takes the value of its cell and leaves. -/
theorem takeAwaited_some (h : Covers f t u) (hu : u.Hosts crowd queue) {n : Nat}
    (htake : t.takeAwaited? n = some (a, t')) (id : TaskId) :
    ∃ u', u.takeAwaited? (f n) = some (a, u') ∧ Covers f (t'.leave n id) (u'.leave (f n) id) := by
  obtain ⟨c, deposit, hc, hslot, rfl, rfl⟩ := takeAwaited?_eq_some htake
  obtain ⟨d, hd, htwin⟩ := h.cell?_some hu hc
  obtain ⟨hmem, rfl⟩ := cell?_eq_some hc
  refine ⟨_, by rw [takeAwaited?, hd]; simp [htwin.slot, hslot]; rfl, ?_⟩
  rw [htwin.waiters]
  split
  · have hgone {v : Table α} {n : Nat} : ∀ c ∈ (v.remove n).known, c.id ≠ n := by
      rw [known_remove]
      exact fun c hc => of_decide_eq_true (List.mem_filter.mp hc).2
    rw [Table.leave, change_of_absent hgone, Table.leave, change_of_absent hgone]
    exact (h.remove hmem).prune
  · have hcleared := h.change (g := Cell.clear) hu hmem (fun _ => rfl) fun _ _ => Twin.clear
    have hkept : c.clear ∈ (t.change c.id Cell.clear).known := by
      rw [known_change]
      exact List.mem_map.mpr ⟨c, hmem, if_pos rfl⟩
    exact hcleared.leave (hu.clear _) hkept id

theorem takeAwaited_none (h : Covers f t u) (ht : t.Hosts crowd queue) (hu : u.Hosts crowd' queue')
    {c₀ : Cell α} (hc₀ : c₀ ∈ t.known) (htake : t.takeAwaited? c₀.id = none) :
    u.takeAwaited? (f c₀.id) = none := by
  rw [takeAwaited?_eq_none] at htake ⊢
  intro d hd
  have hcell := ht.cell?_eq_some_iff.mpr ⟨hc₀, rfl⟩
  obtain ⟨d', hd', htwin⟩ := h.cell?_some hu hcell
  obtain rfl := Option.some.inj (hd.symm.trans hd')
  rw [htwin.slot]
  exact htake c₀ hcell

/-- A task that begins to fetch a value. -/
theorem fetch (h : Covers f t u) (hu : u.Hosts crowd queue) {now : Nat}
    (hnew : f t.nextId = (u.withCell now key).2.id) (id : TaskId) (limit : Nat) :
    Covers f (t.fetch now id key limit).1 (u.fetch now id key limit).1 ∧
      (u.fetch now id key limit).2 = (t.fetch now id key limit).2.moved f := by
  cases htake : t.takeReady? key with
  | some taken =>
    obtain ⟨u', hu', hcovers⟩ := h.takeReady_some hu htake
    simp only [Table.fetch, htake, hu']
    exact ⟨hcovers.countStats fun _ => rfl, rfl⟩
  | none =>
    obtain ⟨hcovers, htwin⟩ := h.withCell hu now hnew
    have hmem := mem_known_of_mem_cells (find?_eq_some (t.find?_withCell now key)).1
    simp only [Table.fetch, htake, h.takeReady_none hu htake]
    rw [htwin.id]
    refine ⟨?_, rfl⟩
    exact hcovers.change (hu.withCell now key) hmem (fun _ => rfl) fun _ _ htwin => htwin.enter id

/-- A waiting task that has its turn. -/
theorem resume (h : Covers f t u) (ht : t.Hosts crowd queue) (hu : u.Hosts crowd' queue')
    (hw : ∃ c ∈ t.known, c.id = w.cell) (clock : Clock) (id : TaskId) :
    Covers f (t.resume clock id w).1 (u.resume clock id (w.moved f)).1 ∧
      (u.resume clock id (w.moved f)).2 = (t.resume clock id w).2.moved f := by
  obtain ⟨c, hc, hcell⟩ := hw
  have hcell' : (w.moved f).cell = f c.id := congrArg f hcell.symm
  have hdeadline : (w.moved f).deadline = w.deadline := rfl
  cases htake : t.takeAwaited? w.cell with
  | some taken =>
    rw [← hcell] at htake
    obtain ⟨u', hu', hcovers⟩ := h.takeAwaited_some hu htake id
    simp only [Table.resume, ← hcell, hcell', htake, hu']
    exact ⟨hcovers.countStats fun _ => rfl, rfl⟩
  | none =>
    rw [← hcell] at htake
    simp only [Table.resume, ← hcell, hcell', hdeadline, htake, h.takeAwaited_none ht hu hc htake]
    split
    · refine ⟨?_, rfl⟩
      exact (h.leave hu hc id).countStats (g := fun s => { s with timeouts := s.timeouts + 1 })
        fun _ => rfl
    · exact ⟨h.change hu hc (fun c => c.id_sleep id) fun _ _ htwin => htwin.sleep id, rfl⟩

/-- A value that arrives. -/
theorem deposit (h : Covers f t u) (hu : u.Hosts crowd queue) {now : Nat}
    (hnew : f t.nextId = (u.withCell now key).2.id) (a : α) :
    Covers f (t.deposit now key a).1 (u.deposit now key a).1 ∧
      (u.deposit now key a).2 = (t.deposit now key a).2 := by
  obtain ⟨hcovers, htwin⟩ := h.withCell hu now hnew
  have hmem := mem_known_of_mem_cells (find?_eq_some (t.find?_withCell now key)).1
  have hvalue : (u.withCell now key).2.hasValue = (t.withCell now key).2.hasValue := by
    rw [Cell.hasValue, htwin.slot, Cell.hasValue]
  constructor
  · rw [fst_deposit, fst_deposit, hvalue, htwin.id]
    have hfilled := hcovers.change (g := fun c => c.fill now a) (hu.withCell now key) hmem
      (fun _ => rfl) fun _ _ htwin => htwin.fill now a
    exact { hfilled with stats := by simp only [Table.countStats, hfilled.stats] }
  · simp only [Table.deposit, htwin.waiters, htwin.sleepers]

/-- Cells that are not idle are the same on both sides. -/
theorem perm_contents (h : Covers f t u) (ht : t.Hosts crowd queue) (hu : u.Hosts crowd' queue')
    {p q : Cell α → Bool} (hpq : ∀ c d, Twin f c d → q d = p c) (hidle : ∀ d, Idle d → q d = false) :
    ((t.cells.filter p).map Cell.contents).Perm ((u.cells.filter q).map Cell.contents) := by
  have hnodup {v : Table α} (hkeys : (v.cells.map Cell.key).Nodup) (p : Cell α → Bool) :
      ((v.cells.filter p).map Cell.contents).Nodup := by
    refine List.Nodup.of_map Prod.fst ?_
    rw [List.map_map]
    exact hkeys.sublist (List.filter_sublist.map _)
  have hcontents {c d : Cell α} (htwin : Twin f c d) : d.contents = c.contents := by
    rw [Cell.contents, htwin.key, htwin.slot, htwin.waiters, htwin.sleepers, Cell.contents]
  refine (List.perm_ext_iff_of_nodup (hnodup ht.keys_nodup p) (hnodup hu.keys_nodup q)).mpr
    fun contents => ⟨fun hmem => ?_, fun hmem => ?_⟩
  · obtain ⟨c, hc, rfl⟩ := List.mem_map.mp hmem
    obtain ⟨hc, hp⟩ := List.mem_filter.mp hc
    obtain ⟨d, hd, htwin⟩ := h.cells.twin c hc
    exact List.mem_map.mpr
      ⟨d, List.mem_filter.mpr ⟨hd, (hpq c d htwin).trans hp⟩, hcontents htwin⟩
  · obtain ⟨d, hd, rfl⟩ := List.mem_map.mp hmem
    obtain ⟨hd, hq⟩ := List.mem_filter.mp hd
    rcases h.cells.twin_or_idle d hd with ⟨c, hc, htwin⟩ | hnothing
    · exact List.mem_map.mpr
        ⟨c, List.mem_filter.mpr ⟨hc, (hpq c d htwin).symm.trans hq⟩, (hcontents htwin).symm⟩
    · rw [hidle d hnothing] at hq
      exact absurd hq Bool.false_ne_true

/-- A sweep removes the same values on both sides. The cells that it removes as unused from one side
are idle on the other. -/
theorem sweep (h : Covers f t u) (ht : t.Hosts crowd queue) (hu : u.Hosts crowd' queue')
    (hsleep : t.Lodges crowd) (asOf : Int) :
    Covers f (t.sweep asOf).1 (u.sweep asOf).1 ∧
      (u.sweep asOf).2.expired = (t.sweep asOf).2.expired := by
  have hexpired (c d : Cell α) (htwin : Twin f c d) :
      d.isExpired u.retention asOf = c.isExpired t.retention asOf :=
    htwin.isExpired h.valueLimit asOf
  have hcount : (u.sweep asOf).2.expired = (t.sweep asOf).2.expired := by
    have hperm := h.perm_contents ht hu hexpired fun d hidle => by
      rw [Cell.isExpired, hidle.slot]
    have hperm_length := hperm.length_eq.symm
    rw [List.length_map, List.length_map] at hperm_length
    exact hperm_length
  have hunused (d : Cell α) : d.isUnused u.retention asOf = false := by
    rw [Cell.isUnused, h.emptyLimit]
    split
    · next heq => exact absurd heq (by simp)
    · rfl
  refine ⟨⟨h.valueLimit, h.emptyLimit, ?_, ?_, ?_, ?_⟩, hcount⟩
  · have hnone : u.cells.filter (Cell.isUnused u.retention asOf) = [] :=
      List.filter_eq_nil_iff.mpr fun d _ => by simp [hunused d]
    simp only [Table.sweep] at hcount
    simp only [Table.sweep, h.stats, hcount, hnone, List.length_nil]
  · refine h.cells.filter (fun c _ d _ htwin hp => ?_) fun c hc d _ htwin hq => ?_
    · have hkept := (Bool.and_eq_true _ _).mp hp
      rw [hexpired c d htwin, hunused d, hkept.1]
      rfl
    · have hkept := (Bool.and_eq_true _ _).mp hq
      rw [hexpired c d htwin] at hkept
      cases hgone : c.isUnused t.retention asOf with
      | false =>
        rw [hkept.1]
        exact .inl rfl
      | true =>
        obtain ⟨hslot, hwaiters⟩ := Cell.of_isUnused hgone
        have hsleepers := hsleep.sleepers_eq_nil ht (mem_known_of_mem_cells hc) hwaiters
        exact .inr ⟨htwin.slot.trans hslot, htwin.waiters.trans hwaiters,
          htwin.sleepers.trans hsleepers⟩
  · refine h.aside.append ((h.cells.filter (fun c _ d _ htwin hp => ?_) fun c _ d _ htwin hq =>
      .inl ?_).filter (fun c _ d _ htwin hp => ?_) fun c _ d _ htwin hq => .inl ?_)
    · rw [hexpired c d htwin, hp]
    · rw [← hexpired c d htwin, hq]
    · rw [htwin.waiters, hp]
    · rw [← htwin.waiters, hq]
  · exact fun c hc c' hc' => h.injective c (mem_known_sweep hc) c' (mem_known_sweep hc')

theorem sweepTimes (h : Covers f t u) (ht : t.Hosts crowd queue) (hu : u.Hosts crowd' queue')
    (hsleep : t.Lodges crowd) (now n : Nat) :
    Covers f (t.sweepTimes now n).1 (u.sweepTimes now n).1 ∧
      (u.sweepTimes now n).2.map Removals.expired = (t.sweepTimes now n).2.map Removals.expired := by
  induction n generalizing t u with
  | zero => exact ⟨h, rfl⟩
  | succ n ih =>
    obtain ⟨hswept, hcount⟩ := h.sweep ht hu hsleep now
    obtain ⟨hlast, hcounts⟩ := ih hswept (ht.sweep now) (hu.sweep now) (hsleep.sweep now)
    refine ⟨hlast, ?_⟩
    simp only [Table.sweepTimes, List.map_cons, hcount, hcounts]

end Covers
end Table
end EbmsMessaging.Correlation
