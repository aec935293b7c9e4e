import EbmsMessaging.Correlation.Sweeper
import EbmsMessaging.Correlation.Waiting
import Mathlib.Data.List.Nodup

/-!
# Who waits where

A table hosts a crowd of waiting tasks when every one of them is at a known cell of its key, asleep
there or called, and every cell counts its own. Each operation of the table keeps this up for the
crowd that it leaves behind. A cell set aside by a sweep is known, but it is out of reach of its
key.
-/
namespace EbmsMessaging.Correlation

/-- The tasks that wait, each with its wait. -/
abbrev Crowd := List (TaskId × Wait)

/-- How many of a crowd wait at a cell. -/
def Crowd.countAt (crowd : Crowd) (cell : Nat) : Nat := crowd.countP fun e => e.2.cell = cell

theorem Crowd.countAt_cons (e : TaskId × Wait) (crowd : Crowd) (cell : Nat) :
    Crowd.countAt (e :: crowd) cell = crowd.countAt cell + if e.2.cell = cell then 1 else 0 := by
  simp [Crowd.countAt, List.countP_cons]

theorem Crowd.countAt_pos {crowd : Crowd} {e : TaskId × Wait} (h : e ∈ crowd) :
    0 < crowd.countAt e.2.cell :=
  List.countP_pos_iff.mpr ⟨e, h, by simp⟩

theorem Crowd.ne_cell_of_countAt_eq_zero {crowd : Crowd} {cell : Nat}
    (h : crowd.countAt cell = 0) : ∀ e ∈ crowd, e.2.cell ≠ cell := by
  intro e he heq
  have := countAt_pos he
  rw [heq] at this
  omega

theorem Crowd.ne_of_mem {crowd : Crowd} {id : TaskId} {e : TaskId × Wait}
    (hid : id ∉ crowd.map Prod.fst) (he : e ∈ crowd) : e.1 ≠ id :=
  fun heq => hid (List.mem_map.mpr ⟨e, he, heq⟩)

namespace Table

variable {α : Type}

/-- The cells in reach and those set aside. -/
def known (t : Table α) : List (Cell α) := t.cells ++ t.aside

structure Hosts (t : Table α) (crowd : Crowd) (queue : List TaskId) : Prop where
  ids_nodup : (t.known.map Cell.id).Nodup
  id_lt : ∀ c ∈ t.known, c.id < t.nextId
  keys_nodup : (t.cells.map Cell.key).Nodup
  tasks_nodup : (crowd.map Prod.fst).Nodup
  waiters_eq : ∀ c ∈ t.known, c.waiters = crowd.countAt c.id
  /-- Nobody sleeps at a cell with a value. -/
  awake : ∀ c ∈ t.known, c.hasValue → c.sleepers = []
  placed : ∀ e ∈ crowd, ∃ c ∈ t.known, c.id = e.2.cell ∧ c.key = e.2.key ∧
    (e.1 ∈ c.sleepers ∨ e.1 ∈ queue)

theorem mem_known_of_mem_cells {t : Table α} {c : Cell α} (h : c ∈ t.cells) : c ∈ t.known :=
  List.mem_append_left _ h

theorem mem_known_of_mem_aside {t : Table α} {c : Cell α} (h : c ∈ t.aside) : c ∈ t.known :=
  List.mem_append_right _ h

/-! ## Looking up cells -/

theorem find?_eq_some {t : Table α} {key : String} {c : Cell α} (h : t.find? key = some c) :
    c ∈ t.cells ∧ c.key = key :=
  ⟨List.mem_of_find?_eq_some h, by simpa using List.find?_some h⟩

theorem find?_eq_none {t : Table α} {key : String} :
    t.find? key = none ↔ ∀ c ∈ t.cells, c.key ≠ key := by
  simp [find?]

theorem cell?_eq_some {t : Table α} {n : Nat} {c : Cell α} (h : t.cell? n = some c) :
    c ∈ t.known ∧ c.id = n :=
  ⟨List.mem_of_find?_eq_some h, by simpa using List.find?_some h⟩

theorem cell?_eq_none {t : Table α} {n : Nat} : t.cell? n = none ↔ ∀ c ∈ t.known, c.id ≠ n := by
  simp [cell?, known, or_imp, forall_and]

namespace Hosts

variable {t : Table α} {crowd : Crowd} {queue : List TaskId}

theorem eq_of_id (h : t.Hosts crowd queue) {c d : Cell α} (hc : c ∈ t.known) (hd : d ∈ t.known)
    (hid : c.id = d.id) : c = d :=
  List.inj_on_of_nodup_map h.ids_nodup hc hd hid

theorem eq_of_key (h : t.Hosts crowd queue) {c d : Cell α} (hc : c ∈ t.cells) (hd : d ∈ t.cells)
    (hkey : c.key = d.key) : c = d :=
  List.inj_on_of_nodup_map h.keys_nodup hc hd hkey

theorem cell?_eq_some_iff (h : t.Hosts crowd queue) {n : Nat} {c : Cell α} :
    t.cell? n = some c ↔ c ∈ t.known ∧ c.id = n := by
  refine ⟨cell?_eq_some, fun ⟨hc, hid⟩ => ?_⟩
  cases hd : t.cell? n with
  | none => exact absurd hid (cell?_eq_none.mp hd c hc)
  | some d =>
    obtain ⟨hd, hdid⟩ := cell?_eq_some hd
    rw [h.eq_of_id hc hd (hid.trans hdid.symm)]

theorem find?_eq_some_iff (h : t.Hosts crowd queue) {key : String} {c : Cell α} :
    t.find? key = some c ↔ c ∈ t.cells ∧ c.key = key := by
  refine ⟨find?_eq_some, fun ⟨hc, hkey⟩ => ?_⟩
  cases hd : t.find? key with
  | none => exact absurd hkey (find?_eq_none.mp hd c hc)
  | some d =>
    obtain ⟨hd, hdkey⟩ := find?_eq_some hd
    rw [h.eq_of_key hc hd (hkey.trans hdkey.symm)]

/-- Cells in reach and cells set aside are different ones. -/
theorem id_ne_of_aside (h : t.Hosts crowd queue) {c d : Cell α} (hc : c ∈ t.cells)
    (hd : d ∈ t.aside) : c.id ≠ d.id := by
  have hn := h.ids_nodup
  rw [known, List.map_append, List.nodup_append] at hn
  exact hn.2.2 c.id (List.mem_map_of_mem hc) d.id (List.mem_map_of_mem hd)

theorem cell_lt (h : t.Hosts crowd queue) {e : TaskId × Wait} (he : e ∈ crowd) :
    e.2.cell < t.nextId := by
  obtain ⟨c, hc, hid, -⟩ := h.placed e he
  exact hid ▸ h.id_lt c hc

/-- The crowd may be listed in any order, and more tasks may be called. -/
theorem mono {crowd' : Crowd} {queue' : List TaskId} (h : t.Hosts crowd queue)
    (hp : crowd.Perm crowd') (hq : ∀ e ∈ crowd', e.1 ∈ queue → e.1 ∈ queue') :
    t.Hosts crowd' queue' where
  ids_nodup := h.ids_nodup
  id_lt := h.id_lt
  keys_nodup := h.keys_nodup
  tasks_nodup := (hp.map Prod.fst).nodup_iff.mp h.tasks_nodup
  waiters_eq c hc := (h.waiters_eq c hc).trans (hp.countP_eq _)
  awake := h.awake
  placed e he := by
    obtain ⟨c, hc, hid, hkey, hs⟩ := h.placed e (hp.mem_iff.mpr he)
    exact ⟨c, hc, hid, hkey, hs.imp_right (hq e he)⟩

theorem countStats (h : t.Hosts crowd queue) (f : Stats → Stats) :
    (t.countStats f).Hosts crowd queue :=
  ⟨h.ids_nodup, h.id_lt, h.keys_nodup, h.tasks_nodup, h.waiters_eq, h.awake, h.placed⟩

end Hosts

theorem hosts_empty (p : Retention) : (empty p : Table α).Hosts [] [] := by
  constructor <;> simp [known, empty]

/-! ## Changing and removing one cell -/

theorem known_change (t : Table α) (n : Nat) (f : Cell α → Cell α) :
    (t.change n f).known = t.known.map fun c => if c.id = n then f c else c := by
  simp [known, change]

theorem known_remove (t : Table α) (n : Nat) :
    (t.remove n).known = t.known.filter fun c => c.id ≠ n := by
  simp [known, remove]

theorem map_id_known_change (t : Table α) (n : Nat) {f : Cell α → Cell α}
    (hf : ∀ c, (f c).id = c.id) : (t.change n f).known.map Cell.id = t.known.map Cell.id := by
  rw [known_change, List.map_map]
  refine List.map_congr_left fun c _ => ?_
  by_cases hc : c.id = n <;> simp [hc, hf]

namespace Hosts

variable {t : Table α} {crowd crowd' : Crowd} {queue queue' : List TaskId}

/-- One cell is changed, perhaps along with the crowd there. -/
theorem change (h : t.Hosts crowd queue) {n : Nat} {f : Cell α → Cell α}
    (hid : ∀ c, (f c).id = c.id) (hkey : ∀ c, (f c).key = c.key)
    (htasks : (crowd'.map Prod.fst).Nodup)
    (hothers : ∀ i ≠ n, crowd'.countAt i = crowd.countAt i)
    (hcell : ∀ c ∈ t.known, c.id = n → (f c).waiters = crowd'.countAt n ∧
      ((f c).hasValue → (f c).sleepers = []))
    (hplaced : ∀ e ∈ crowd', ∃ c ∈ t.known, c.id = e.2.cell ∧ c.key = e.2.key ∧
      (e.1 ∈ (if c.id = n then f c else c).sleepers ∨ e.1 ∈ queue')) :
    (t.change n f).Hosts crowd' queue' where
  ids_nodup := by rw [map_id_known_change t n hid]; exact h.ids_nodup
  id_lt := by
    intro c' hc'
    have hmem := List.mem_map_of_mem (f := Cell.id) hc'
    rw [map_id_known_change t n hid] at hmem
    obtain ⟨c, hc, heq⟩ := List.mem_map.mp hmem
    exact heq ▸ h.id_lt c hc
  keys_nodup := by
    have heq : (t.change n f).cells.map Cell.key = t.cells.map Cell.key := by
      simp only [Table.change, List.map_map]
      refine List.map_congr_left fun c _ => ?_
      by_cases hc : c.id = n <;> simp [hc, hkey]
    rw [heq]
    exact h.keys_nodup
  tasks_nodup := htasks
  waiters_eq := by
    rw [known_change]
    intro c' hc'
    obtain ⟨c, hc, rfl⟩ := List.mem_map.mp hc'
    by_cases hn : c.id = n
    · rw [if_pos hn, hid, hn]
      exact (hcell c hc hn).1
    · rw [if_neg hn, hothers c.id hn]
      exact h.waiters_eq c hc
  awake := by
    rw [known_change]
    intro c' hc'
    obtain ⟨c, hc, rfl⟩ := List.mem_map.mp hc'
    by_cases hn : c.id = n
    · rw [if_pos hn]
      exact (hcell c hc hn).2
    · rw [if_neg hn]
      exact h.awake c hc
  placed := by
    rw [known_change]
    intro e he
    obtain ⟨c, hc, hcell, hckey, hs⟩ := hplaced e he
    refine ⟨_, List.mem_map_of_mem hc, ?_, ?_, hs⟩
    · rw [← hcell]
      split <;> simp [hid]
    · rw [← hckey]
      split <;> simp [hkey]

/-- One cell is removed along with the crowd there. -/
theorem remove (h : t.Hosts crowd queue) {n : Nat} (htasks : (crowd'.map Prod.fst).Nodup)
    (hothers : ∀ i ≠ n, crowd'.countAt i = crowd.countAt i)
    (hsub : ∀ e ∈ crowd', e ∈ crowd ∧ e.2.cell ≠ n ∧ (e.1 ∈ queue → e.1 ∈ queue')) :
    (t.remove n).Hosts crowd' queue' where
  ids_nodup := by
    rw [known_remove]
    exact h.ids_nodup.sublist (List.filter_sublist.map _)
  id_lt := by
    rw [known_remove]
    exact fun c hc => h.id_lt c (List.mem_filter.mp hc).1
  keys_nodup := h.keys_nodup.sublist (List.filter_sublist.map _)
  tasks_nodup := htasks
  waiters_eq := by
    rw [known_remove]
    intro c hc
    obtain ⟨hc, hn⟩ := List.mem_filter.mp hc
    rw [hothers c.id (by simpa using hn)]
    exact h.waiters_eq c hc
  awake := by
    rw [known_remove]
    exact fun c hc => h.awake c (List.mem_filter.mp hc).1
  placed := by
    rw [known_remove]
    intro e he
    obtain ⟨hold, hne, hq⟩ := hsub e he
    obtain ⟨c, hc, hid, hkey, hs⟩ := h.placed e hold
    exact ⟨c, List.mem_filter.mpr ⟨hc, by simpa [hid] using hne⟩, hid, hkey, hs.imp_right hq⟩

end Hosts

/-! ## The operations -/

/-- The cell of a key, which is there already or is a new one. -/
theorem withCell_cases (t : Table α) (now : Nat) (key : String) :
    (∃ c, t.find? key = some c ∧ t.withCell now key = (t, c)) ∨
    (t.find? key = none ∧ t.withCell now key =
      ({ t with cells := t.cells ++ [.new t.nextId key now], nextId := t.nextId + 1 },
        .new t.nextId key now)) := by
  unfold withCell
  cases h : t.find? key with
  | none => exact .inr ⟨rfl, rfl⟩
  | some c => exact .inl ⟨c, rfl, rfl⟩

theorem find?_withCell (t : Table α) (now : Nat) (key : String) :
    (t.withCell now key).1.find? key = some (t.withCell now key).2 := by
  rcases t.withCell_cases now key with ⟨c, hc, heq⟩ | ⟨hnone, heq⟩
  · rw [heq]
    exact hc
  · rw [heq]
    simp only [find?, List.find?_append] at hnone ⊢
    simp [hnone, Cell.new]

theorem fst_deposit (t : Table α) (now : Nat) (key : String) (a : α) :
    (t.deposit now key a).1 = ((t.withCell now key).1.change (t.withCell now key).2.id
      fun c => c.fill now a).countStats fun s => { s with
        deposited := s.deposited + 1
        replaced := s.replaced + if (t.withCell now key).2.hasValue then 1 else 0 } := rfl

/-- Nothing changes in a table without the cell. -/
theorem change_of_absent {t : Table α} {n : Nat} (h : ∀ c ∈ t.known, c.id ≠ n)
    (f : Cell α → Cell α) : t.change n f = t := by
  have hsame {cs : List (Cell α)} (hcs : ∀ c ∈ cs, c ∈ t.known) :
      (cs.map fun c => if c.id = n then f c else c) = cs := by
    conv_rhs => rw [← List.map_id cs]
    exact List.map_congr_left fun c hc => if_neg (h c (hcs c hc))
  simp only [change, hsame fun c hc => mem_known_of_mem_cells hc,
    hsame fun c hc => mem_known_of_mem_aside hc]

theorem takeReady?_eq_some {t t' : Table α} {key : String} {a : α}
    (h : t.takeReady? key = some (a, t')) : ∃ c d, t.find? key = some c ∧ c.slot = some d ∧
      d.value = a ∧ (if c.waiters = 0 then t.remove c.id else t.change c.id Cell.clear) = t' := by
  simpa [takeReady?, Option.bind_eq_some_iff] using h

theorem takeReady?_eq_none {t : Table α} {key : String} :
    t.takeReady? key = none ↔ ∀ c, t.find? key = some c → c.slot = none := by
  simp only [takeReady?, Option.bind_eq_bind]
  rw [Option.bind_eq_none_iff]
  exact forall₂_congr fun c _ => by cases c.slot <;> simp

/-- Where nothing is ready the cell of the key is empty. -/
theorem slot_withCell {t : Table α} {key : String} (h : t.takeReady? key = none) (now : Nat) :
    (t.withCell now key).2.slot = none := by
  rcases t.withCell_cases now key with ⟨c, hc, heq⟩ | ⟨-, heq⟩
  · rw [heq]
    exact takeReady?_eq_none.mp h c hc
  · rw [heq]
    rfl

theorem takeAwaited?_eq_some {t t' : Table α} {n : Nat} {a : α}
    (h : t.takeAwaited? n = some (a, t')) : ∃ c d, t.cell? n = some c ∧ c.slot = some d ∧
      d.value = a ∧ (if c.waiters ≤ 1 then t.remove n else t.change n Cell.clear) = t' := by
  simpa [takeAwaited?, Option.bind_eq_some_iff] using h

theorem takeAwaited?_eq_none {t : Table α} {n : Nat} :
    t.takeAwaited? n = none ↔ ∀ c, t.cell? n = some c → c.slot = none := by
  simp only [takeAwaited?, Option.bind_eq_bind]
  rw [Option.bind_eq_none_iff]
  exact forall₂_congr fun c _ => by cases c.slot <;> simp

/-! ## Cells after an operation -/

section Known

variable {t : Table α} {n : Nat} {f : Cell α → Cell α} {id : TaskId}

theorem mem_known_change {c' : Cell α} (hc : c' ∈ (t.change n f).known) :
    ∃ c ∈ t.known, (c.id = n ∧ c' = f c) ∨ (c.id ≠ n ∧ c' = c) := by
  rw [known_change] at hc
  obtain ⟨d, hd, rfl⟩ := List.mem_map.mp hc
  refine ⟨d, hd, ?_⟩
  by_cases hid : d.id = n
  · exact .inl ⟨hid, if_pos hid⟩
  · exact .inr ⟨hid, if_neg hid⟩

theorem mem_known_leave {c : Cell α} (hc : c ∈ (t.leave n id).known) :
    c ∈ (t.change n fun c => c.leave id).known := by
  rcases List.mem_append.mp hc with hc | hc
  · exact mem_known_of_mem_cells hc
  · exact mem_known_of_mem_aside (List.mem_of_mem_filter hc)

theorem mem_known_remove {c : Cell α} (hc : c ∈ (t.remove n).known) : c ∈ t.known := by
  rw [known_remove] at hc
  exact List.mem_of_mem_filter hc

theorem mem_known_added {c : Cell α} {key : String} {now : Nat}
    (hc : c ∈ Table.known
      { t with cells := t.cells ++ [.new t.nextId key now], nextId := t.nextId + 1 }) :
    c ∈ t.known ∨ c = .new t.nextId key now := by
  rcases List.mem_append.mp hc with hc | hc
  · rcases List.mem_append.mp hc with hc | hc
    · exact .inl (mem_known_of_mem_cells hc)
    · exact .inr (List.mem_singleton.mp hc)
  · exact .inl (mem_known_of_mem_aside hc)

theorem mem_known_sweep {c : Cell α} {asOf : Int} (hc : c ∈ (t.sweep asOf).1.known) :
    c ∈ t.known := by
  rcases List.mem_append.mp hc with hc | hc
  · exact mem_known_of_mem_cells (List.mem_of_mem_filter hc)
  · rcases List.mem_append.mp hc with hc | hc
    · exact mem_known_of_mem_aside hc
    · exact mem_known_of_mem_cells (List.mem_of_mem_filter (List.mem_of_mem_filter hc))

end Known

namespace Hosts

variable {t t' : Table α} {crowd : Crowd} {queue queue' : List TaskId} {id : TaskId} {w : Wait}
  {a : α}

/-- A cell is added for a key that has none. -/
theorem added (h : t.Hosts crowd queue) {key : String} (hnone : t.find? key = none) (now : Nat) :
    Hosts { t with cells := t.cells ++ [.new t.nextId key now], nextId := t.nextId + 1 }
      crowd queue := by
  have hperm : ((t.cells ++ [Cell.new t.nextId key now]) ++ t.aside).Perm
      (Cell.new t.nextId key now :: t.known) := by
    simp [known]
  have hnew : t.nextId ∉ t.known.map Cell.id := by
    intro hmem
    obtain ⟨c, hc, hid⟩ := List.mem_map.mp hmem
    exact Nat.ne_of_lt (h.id_lt c hc) hid
  have hnobody : crowd.countAt t.nextId = 0 := by
    refine List.countP_eq_zero.mpr fun e he => ?_
    have hne := Nat.ne_of_lt (h.cell_lt he)
    simp [hne]
  exact {
    ids_nodup := by
      rw [known, (hperm.map Cell.id).nodup_iff]
      exact List.nodup_cons.mpr ⟨hnew, h.ids_nodup⟩
    id_lt := by
      intro c hc
      rcases List.mem_cons.mp (hperm.mem_iff.mp hc) with rfl | hc
      · exact Nat.lt_succ_self _
      · exact Nat.lt_succ_of_lt (h.id_lt c hc)
    keys_nodup := by
      rw [List.map_append, List.nodup_append]
      refine ⟨h.keys_nodup, by simp, ?_⟩
      intro k hk k' hk'
      obtain ⟨c, hc, rfl⟩ := List.mem_map.mp hk
      simp only [List.map_cons, List.map_nil, List.mem_singleton] at hk'
      rw [hk']
      exact find?_eq_none.mp hnone c hc
    tasks_nodup := h.tasks_nodup
    waiters_eq := by
      intro c hc
      rcases List.mem_cons.mp (hperm.mem_iff.mp hc) with rfl | hc
      · exact hnobody.symm
      · exact h.waiters_eq c hc
    awake := by
      intro c hc
      rcases List.mem_cons.mp (hperm.mem_iff.mp hc) with rfl | hc
      · exact fun _ => rfl
      · exact h.awake c hc
    placed := by
      intro e he
      obtain ⟨c, hc, hs⟩ := h.placed e he
      exact ⟨c, hperm.mem_iff.mpr (List.mem_cons_of_mem _ hc), hs⟩ }

theorem withCell (h : t.Hosts crowd queue) (now : Nat) (key : String) :
    (t.withCell now key).1.Hosts crowd queue := by
  rcases t.withCell_cases now key with ⟨c, -, heq⟩ | ⟨hnone, heq⟩
  · rw [heq]
    exact h
  · rw [heq]
    exact h.added hnone now

theorem deposit (h : t.Hosts crowd queue) (now : Nat) (key : String) (a : α)
    (hq : ∀ j ∈ queue, j ∈ queue') (hcalled : ∀ j ∈ (t.deposit now key a).2.2, j ∈ queue') :
    (t.deposit now key a).1.Hosts crowd queue' := by
  have hw := h.withCell now key
  have hmem := mem_known_of_mem_cells (find?_eq_some (t.find?_withCell now key)).1
  rw [fst_deposit]
  refine (hw.change (f := fun c => c.fill now a) (fun _ => rfl) (fun _ => rfl) h.tasks_nodup
    (fun _ _ => rfl) ?_ ?_).countStats _
  · intro c hc hid
    exact ⟨hid ▸ hw.waiters_eq c hc, fun _ => rfl⟩
  · intro e he
    obtain ⟨c, hc, hcell, hkey, hs⟩ := hw.placed e he
    refine ⟨c, hc, hcell, hkey, ?_⟩
    by_cases hid : c.id = (t.withCell now key).2.id
    · obtain rfl := hw.eq_of_id hc hmem hid
      exact .inr (hs.elim (hcalled _) (hq _))
    · rw [if_neg hid]
      exact hs.imp_right (hq _)

theorem clear (h : t.Hosts crowd queue) (n : Nat) :
    (t.change n Cell.clear).Hosts crowd queue := by
  refine h.change (fun _ => rfl) (fun _ => rfl) h.tasks_nodup (fun _ _ => rfl) ?_ ?_
  · intro c hc hid
    exact ⟨hid ▸ h.waiters_eq c hc, fun hv => by simp [Cell.clear, Cell.hasValue] at hv⟩
  · intro e he
    obtain ⟨c, hc, hcell, hkey, hs⟩ := h.placed e he
    refine ⟨c, hc, hcell, hkey, ?_⟩
    split <;> exact hs

/-- A cell where nobody waits is removed. -/
theorem removeUnused (h : t.Hosts crowd queue) {n : Nat} (hn : crowd.countAt n = 0) :
    (t.remove n).Hosts crowd queue :=
  h.remove h.tasks_nodup (fun _ _ => rfl) fun e he =>
    ⟨he, Crowd.ne_cell_of_countAt_eq_zero hn e he, fun hq => hq⟩

theorem takeReady (h : t.Hosts crowd queue) {key : String}
    (ht : t.takeReady? key = some (a, t')) : t'.Hosts crowd queue := by
  obtain ⟨c, d, hc, -, -, rfl⟩ := takeReady?_eq_some ht
  have hmem := mem_known_of_mem_cells (find?_eq_some hc).1
  split
  · next hw => exact h.removeUnused (by rw [← h.waiters_eq c hmem, hw])
  · exact h.clear c.id

/-- A task enters an empty cell. -/
theorem enter (h : t.Hosts crowd queue) (hid : id ∉ crowd.map Prod.fst) {c : Cell α}
    (hc : c ∈ t.known) (hempty : c.slot = none) (hcell : w.cell = c.id) (hkey : w.key = c.key) :
    (t.change c.id fun c => c.enter id).Hosts ((id, w) :: crowd) queue := by
  have heq {d : Cell α} (hd : d ∈ t.known) (hid : d.id = c.id) : d = c := h.eq_of_id hd hc hid
  refine h.change (fun _ => rfl) (fun _ => rfl) ?_ ?_ ?_ ?_
  · exact List.nodup_cons.mpr ⟨hid, h.tasks_nodup⟩
  · intro i hi
    rw [Crowd.countAt_cons, if_neg (by rw [hcell]; exact Ne.symm hi), Nat.add_zero]
  · intro d hd hdid
    obtain rfl := heq hd hdid
    refine ⟨?_, fun hv => by simp [Cell.enter, Cell.hasValue, hempty] at hv⟩
    rw [Crowd.countAt_cons, if_pos hcell, ← h.waiters_eq d hd]
    rfl
  · intro e he
    rcases List.mem_cons.mp he with rfl | he
    · refine ⟨c, hc, hcell.symm, hkey.symm, .inl ?_⟩
      simp [Cell.enter]
    · obtain ⟨d, hd, hdcell, hdkey, hs⟩ := h.placed e he
      refine ⟨d, hd, hdcell, hdkey, hs.imp_left fun hs => ?_⟩
      split
      · exact List.mem_append_left _ hs
      · exact hs

/-- Cells set aside that nobody waits at any more are dropped. -/
theorem prune (h : t.Hosts crowd queue) :
    ({ t with aside := t.aside.filter fun c => c.waiters ≠ 0 } : Table α).Hosts crowd queue := by
  have hsub : (t.cells ++ t.aside.filter fun c => c.waiters ≠ 0).Sublist t.known :=
    List.Sublist.append_left List.filter_sublist _
  refine ⟨h.ids_nodup.sublist (hsub.map _), fun c hc => h.id_lt c (hsub.subset hc), h.keys_nodup,
    h.tasks_nodup, fun c hc => h.waiters_eq c (hsub.subset hc),
    fun c hc => h.awake c (hsub.subset hc), ?_⟩
  intro e he
  obtain ⟨c, hc, hcell, hs⟩ := h.placed e he
  have hpos := Crowd.countAt_pos he
  rw [← hcell, ← h.waiters_eq c hc] at hpos
  refine ⟨c, ?_, hcell, hs⟩
  rcases List.mem_append.mp hc with hc | hc
  · exact List.mem_append_left _ hc
  · exact List.mem_append_right _ (List.mem_filter.mpr ⟨hc, by simpa using Nat.ne_of_gt hpos⟩)

/-- A task leaves its cell. -/
theorem leave (h : t.Hosts ((id, w) :: crowd) queue) (hq : ∀ j ≠ id, j ∈ queue → j ∈ queue') :
    (t.leave w.cell id).Hosts crowd queue' := by
  have hn := List.nodup_cons.mp h.tasks_nodup
  refine (h.change (n := w.cell) (f := fun c => c.leave id) (fun _ => rfl) (fun _ => rfl) hn.2
    ?_ ?_ ?_).prune
  · intro i hi
    rw [Crowd.countAt_cons, if_neg (Ne.symm hi), Nat.add_zero]
  · intro c hc hid
    have hw := h.waiters_eq c hc
    rw [Crowd.countAt_cons, if_pos hid.symm, hid] at hw
    refine ⟨by simp [Cell.leave, hw], fun hv => ?_⟩
    simp [Cell.leave, h.awake c hc hv]
  · intro e he
    obtain ⟨c, hc, hcell, hkey, hs⟩ := h.placed e (List.mem_cons_of_mem _ he)
    have hne : e.1 ≠ id := Crowd.ne_of_mem hn.1 he
    refine ⟨c, hc, hcell, hkey, hs.imp (fun hs => ?_) (hq _ hne)⟩
    split
    · exact List.mem_filter.mpr ⟨hs, by simpa using hne⟩
    · exact hs

/-- A task takes the value of its cell and leaves. -/
theorem takeAwaited (h : t.Hosts ((id, w) :: crowd) queue)
    (hq : ∀ j ≠ id, j ∈ queue → j ∈ queue') (ht : t.takeAwaited? w.cell = some (a, t')) :
    (t'.leave w.cell id).Hosts crowd queue' := by
  obtain ⟨c, d, hc, -, -, rfl⟩ := takeAwaited?_eq_some ht
  obtain ⟨hmem, hid⟩ := cell?_eq_some hc
  split
  · next hw =>
    have hn := List.nodup_cons.mp h.tasks_nodup
    rw [h.waiters_eq c hmem, hid, Crowd.countAt_cons, if_pos rfl] at hw
    have hgone : ∀ c ∈ (t.remove w.cell).known, c.id ≠ w.cell := by
      rw [known_remove]
      exact fun c hc => by simpa using (List.mem_filter.mp hc).2
    rw [Table.leave, change_of_absent hgone]
    refine (h.remove hn.2 ?_ ?_).prune
    · intro i hi
      rw [Crowd.countAt_cons, if_neg (Ne.symm hi), Nat.add_zero]
    · intro e he
      have hne : e.1 ≠ id := Crowd.ne_of_mem hn.1 he
      exact ⟨List.mem_cons_of_mem _ he,
        Crowd.ne_cell_of_countAt_eq_zero (by omega) e he, hq _ hne⟩
  · exact (h.clear w.cell).leave hq

/-- A task that finds nothing sleeps again. -/
theorem sleep (h : t.Hosts ((id, w) :: crowd) queue) (hq : ∀ j ≠ id, j ∈ queue → j ∈ queue')
    (ht : t.takeAwaited? w.cell = none) :
    (t.change w.cell fun c => c.sleep id).Hosts ((id, w) :: crowd) queue' := by
  have hn := List.nodup_cons.mp h.tasks_nodup
  refine h.change (fun c => c.id_sleep id) (fun c => c.key_sleep id) h.tasks_nodup
    (fun _ _ => rfl) ?_ ?_
  · intro c hc hid
    have hslot := takeAwaited?_eq_none.mp ht c (h.cell?_eq_some_iff.mpr ⟨hc, hid⟩)
    refine ⟨by rw [c.waiters_sleep, ← hid]; exact h.waiters_eq c hc, fun hv => ?_⟩
    rw [Cell.hasValue, c.slot_sleep, hslot] at hv
    simp at hv
  · intro e he
    obtain ⟨c, hc, hcell, hkey, hs⟩ := h.placed e he
    refine ⟨c, hc, hcell, hkey, ?_⟩
    rcases List.mem_cons.mp he with rfl | he
    · left
      rw [if_pos hcell]
      exact (c.mem_sleepers_sleep id id).mpr (.inr rfl)
    · have hne : e.1 ≠ id := Crowd.ne_of_mem hn.1 he
      refine hs.imp (fun hs => ?_) (hq _ hne)
      split
      · exact (c.mem_sleepers_sleep id e.1).mpr (.inl hs)
      · exact hs

theorem sweep (h : t.Hosts crowd queue) (asOf : Int) : (t.sweep asOf).1.Hosts crowd queue := by
  have hperm : (t.cells.filter (fun c => !c.isExpired t.retention asOf) ++
      (t.aside ++ t.cells.filter fun c => c.isExpired t.retention asOf)).Perm t.known := by
    refine (List.perm_append_comm_assoc _ _ _).trans (List.perm_append_comm.trans ?_)
    exact (List.perm_append_comm.trans (List.filter_append_perm _ _)).append_right _
  have hsub : (t.sweep asOf).1.known.Sublist
      (t.cells.filter (fun c => !c.isExpired t.retention asOf) ++
        (t.aside ++ t.cells.filter fun c => c.isExpired t.retention asOf)) :=
    List.Sublist.append
      (List.monotone_filter_right _ fun c hc => ((Bool.and_eq_true _ _).mp hc).1)
      (List.Sublist.append_left List.filter_sublist _)
  have hknown : ∀ c ∈ (t.sweep asOf).1.known, c ∈ t.known :=
    fun c hc => hperm.mem_iff.mp (hsub.subset hc)
  refine ⟨((hperm.map Cell.id).nodup_iff.mpr h.ids_nodup).sublist (hsub.map _),
    fun c hc => h.id_lt c (hknown c hc), h.keys_nodup.sublist (List.filter_sublist.map _),
    h.tasks_nodup, fun c hc => h.waiters_eq c (hknown c hc),
    fun c hc => h.awake c (hknown c hc), ?_⟩
  intro e he
  obtain ⟨c, hc, hcell, hs⟩ := h.placed e he
  have hpos := Crowd.countAt_pos he
  rw [← hcell, ← h.waiters_eq c hc] at hpos
  refine ⟨c, ?_, hcell, hs⟩
  rcases List.mem_append.mp hc with hc | hc
  · cases hx : c.isExpired t.retention asOf with
    | true =>
      refine mem_known_of_mem_aside (List.mem_append_right _ (List.mem_filter.mpr ⟨?_, ?_⟩))
      · exact List.mem_filter.mpr ⟨hc, hx⟩
      · simpa using Nat.ne_of_gt hpos
    | false =>
      refine mem_known_of_mem_cells (List.mem_filter.mpr ⟨hc, ?_⟩)
      have hused : c.isUnused t.retention asOf = false := by
        unfold Cell.isUnused
        split
        · simp [Nat.ne_of_gt hpos]
        · rfl
      simp [hx, hused]
  · exact mem_known_of_mem_aside (List.mem_append_left _ hc)

theorem sweepTimes (h : t.Hosts crowd queue) (now n : Nat) :
    (t.sweepTimes now n).1.Hosts crowd queue := by
  induction n generalizing t with
  | zero => exact h
  | succ n ih => exact ih (h.sweep now)

end Hosts
end Table
end EbmsMessaging.Correlation
