import EbmsMessaging.Proofs.Correlation.Hosting
import Mathlib.Logic.Function.Basic

/-!
# What a table offers

As long as nothing is swept, a table is a function from keys to values, and what its operations do
can be told from this function alone. A deposit puts a value under its key, and whoever takes it
leaves the key empty. Every cell has a value or somebody who waits for one, so a table that offers
nothing to nobody has no cells at all.
-/
namespace EbmsMessaging.Correlation

variable {α : Type}

/-- A cell without a value has somebody who waits for one. -/
def Cell.InUse (c : Cell α) : Prop := c.slot = none → c.waiters ≠ 0

namespace Table

/-- The table offers these values under these keys. -/
structure Offers (t : Table α) (f : String → Option α) : Prop where
  /-- No cell is out of reach. -/
  reach : t.aside = []
  value : ∀ c ∈ t.cells, c.slot.map Deposit.value = f c.key
  present : ∀ key a, f key = some a → ∃ c ∈ t.cells, c.key = key
  inUse : ∀ c ∈ t.cells, c.InUse

namespace Offers

variable {t t' : Table α} {f : String → Option α} {crowd : Crowd} {queue : List TaskId}
  {c : Cell α} {key : String} {a : α} {id : TaskId} {w : Wait}

theorem empty (p : Retention) : (empty p : Table α).Offers fun _ => none := by
  constructor <;> simp [Table.empty]

theorem countStats (h : t.Offers f) (g : Stats → Stats) : (t.countStats g).Offers f :=
  ⟨h.reach, h.value, h.present, h.inUse⟩

/-- All that matters of a change of one cell is the value that it has then. -/
theorem change (h : t.Offers f) (hhosts : t.Hosts crowd queue) (hc : c ∈ t.cells)
    {g : Cell α → Cell α} (hkey : (g c).key = c.key) (huse : (g c).InUse) :
    (t.change c.id g).Offers (Function.update f c.key ((g c).slot.map Deposit.value)) := by
  have hid : ∀ c' ∈ t.cells, c'.id = c.id → c' = c := fun c' hc' =>
    hhosts.eq_of_id (mem_known_of_mem_cells hc') (mem_known_of_mem_cells hc)
  constructor
  case reach => simp [Table.change, h.reach]
  case value =>
    intro c' hc'
    obtain ⟨b, hb, rfl⟩ := List.mem_map.mp hc'
    by_cases hbc : b.id = c.id
    · obtain rfl := hid b hb hbc
      rw [if_pos rfl, hkey, Function.update_self]
    · have hne : b.key ≠ c.key := fun heq => hbc (congrArg Cell.id (hhosts.eq_of_key hb hc heq))
      rw [if_neg hbc, Function.update_of_ne hne]
      exact h.value b hb
  case present =>
    intro key a hvalue
    by_cases hck : key = c.key
    · exact ⟨_, List.mem_map_of_mem hc, by rw [if_pos rfl, hkey, hck]⟩
    · rw [Function.update_of_ne hck] at hvalue
      obtain ⟨b, hb, hbkey⟩ := h.present key a hvalue
      have hbc : b.id ≠ c.id := fun heq => hck (hbkey.symm.trans (by rw [hid b hb heq]))
      exact ⟨_, List.mem_map_of_mem hb, by rw [if_neg hbc, hbkey]⟩
  case inUse =>
    intro c' hc'
    obtain ⟨b, hb, rfl⟩ := List.mem_map.mp hc'
    by_cases hbc : b.id = c.id
    · obtain rfl := hid b hb hbc
      rw [if_pos rfl]
      exact huse
    · rw [if_neg hbc]
      exact h.inUse b hb

/-- A change that leaves the value alone does not matter. -/
theorem touch (h : t.Offers f) (hhosts : t.Hosts crowd queue) (hc : c ∈ t.cells)
    {g : Cell α → Cell α} (hkey : (g c).key = c.key) (hslot : (g c).slot = c.slot)
    (huse : (g c).InUse) : (t.change c.id g).Offers f := by
  have hchange := h.change hhosts hc hkey huse
  rwa [hslot, h.value c hc, Function.update_eq_self] at hchange

theorem clear (h : t.Offers f) (hhosts : t.Hosts crowd queue) (hc : c ∈ t.cells)
    (hwaiters : c.waiters ≠ 0) :
    (t.change c.id Cell.clear).Offers (Function.update f c.key none) :=
  h.change hhosts hc rfl fun _ => hwaiters

theorem remove (h : t.Offers f) (hhosts : t.Hosts crowd queue) (hc : c ∈ t.cells) :
    (t.remove c.id).Offers (Function.update f c.key none) := by
  have hkeep : ∀ b ∈ (t.remove c.id).cells, b ∈ t.cells ∧ b.key ≠ c.key := by
    intro b hb
    obtain ⟨hb, hid⟩ := List.mem_filter.mp hb
    refine ⟨hb, fun heq => ?_⟩
    rw [hhosts.eq_of_key hb hc heq] at hid
    simp at hid
  constructor
  case reach => simp [Table.remove, h.reach]
  case value =>
    intro b hb
    obtain ⟨hmem, hne⟩ := hkeep b hb
    rw [Function.update_of_ne hne]
    exact h.value b hmem
  case present =>
    intro key a hvalue
    by_cases hck : key = c.key
    · simp [hck] at hvalue
    · rw [Function.update_of_ne hck] at hvalue
      obtain ⟨b, hb, hbkey⟩ := h.present key a hvalue
      refine ⟨b, List.mem_filter.mpr ⟨hb, ?_⟩, hbkey⟩
      have hid : b.id ≠ c.id := fun heq => hck (hbkey.symm.trans (congrArg Cell.key
        (hhosts.eq_of_id (mem_known_of_mem_cells hb) (mem_known_of_mem_cells hc) heq)))
      simpa using hid
  case inUse => exact fun b hb => h.inUse b (hkeep b hb).1

theorem added (h : t.Offers f) (hnew : ∀ b ∈ t.cells, b.key ≠ c.key) (huse : c.InUse) (n : Nat) :
    ({ t with cells := t.cells ++ [c], nextId := n } : Table α).Offers
      (Function.update f c.key (c.slot.map Deposit.value)) := by
  constructor
  case reach => exact h.reach
  case value =>
    intro b hb
    rcases List.mem_append.mp hb with hb | hb
    · rw [Function.update_of_ne (hnew b hb)]
      exact h.value b hb
    · rw [List.mem_singleton.mp hb, Function.update_self]
  case present =>
    intro key a hvalue
    by_cases hck : key = c.key
    · exact ⟨c, List.mem_append_right _ List.mem_cons_self, hck.symm⟩
    · rw [Function.update_of_ne hck] at hvalue
      obtain ⟨b, hb, hbkey⟩ := h.present key a hvalue
      exact ⟨b, List.mem_append_left _ hb, hbkey⟩
  case inUse =>
    exact List.forall_mem_append.mpr ⟨h.inUse, List.forall_mem_singleton.mpr huse⟩

/-- A cell that is there, or is added for this purpose, is changed. -/
theorem changeCell (h : t.Offers f) (hhosts : t.Hosts crowd queue) (now : Nat) (key : String)
    {g : Cell α → Cell α} (hkey : ∀ c, (g c).key = c.key)
    (huse : (g (t.withCell now key).2).InUse) :
    ((t.withCell now key).1.change (t.withCell now key).2.id g).Offers
      (Function.update f key ((g (t.withCell now key).2).slot.map Deposit.value)) := by
  rcases t.withCell_cases now key with ⟨c, hfind, heq⟩ | ⟨hnone, heq⟩
  · rw [heq] at huse ⊢
    obtain ⟨hc, rfl⟩ := find?_eq_some hfind
    exact h.change hhosts hc (hkey c) huse
  · rw [heq] at huse ⊢
    have hother : (t.cells.map fun c => if c.id = t.nextId then g c else c) = t.cells := by
      conv_rhs => rw [← List.map_id t.cells]
      exact List.map_congr_left fun c hc =>
        if_neg (Nat.ne_of_lt (hhosts.id_lt c (mem_known_of_mem_cells hc)))
    have hgkey : (g (.new t.nextId key now)).key = key := hkey _
    have hnew : ∀ c ∈ t.cells, c.key ≠ (g (.new t.nextId key now)).key := by
      rw [hgkey]
      exact find?_eq_none.mp hnone
    have hadded := h.added hnew huse (t.nextId + 1)
    rw [hgkey] at hadded
    change (Table.change _ t.nextId g).Offers _
    rw [h.reach] at hadded
    rw [Table.change, List.map_append, hother, h.reach]
    simpa [Cell.new] using hadded

theorem deposit (h : t.Offers f) (hhosts : t.Hosts crowd queue) (now : Nat) (key : String) (a : α) :
    (t.deposit now key a).1.Offers (Function.update f key (some a)) := by
  rw [fst_deposit]
  exact (h.changeCell hhosts now key (g := fun c => c.fill now a) (fun _ => rfl)
    (fun hnone => by simp [Cell.fill] at hnone)).countStats _

/-! ## Taking values -/

/-- A value that is offered can be taken at once. -/
theorem fetch_some (h : t.Offers f) (hhosts : t.Hosts crowd queue) (now : Nat) (id : TaskId)
    (limit : Nat) (hvalue : f key = some a) : (t.fetch now id key limit).2 = .ended (.value a) ∧
      (t.fetch now id key limit).1.Offers (Function.update f key none) := by
  obtain ⟨c, hc, rfl⟩ := h.present key a hvalue
  obtain ⟨d, hslot, rfl⟩ := Option.map_eq_some_iff.mp ((h.value c hc).trans hvalue)
  have htake : t.takeReady? c.key = some (d.value,
      if c.waiters = 0 then t.remove c.id else t.change c.id Cell.clear) := by
    simp [takeReady?, hhosts.find?_eq_some_iff.mpr ⟨hc, rfl⟩, hslot]
  have htaken : (if c.waiters = 0 then t.remove c.id else t.change c.id Cell.clear).Offers
      (Function.update f c.key none) := by
    split
    · exact h.remove hhosts hc
    · next hwaiters => exact h.clear hhosts hc hwaiters
  obtain ⟨g, heq⟩ : ∃ g, t.fetch now id c.key limit =
      (Table.countStats _ g, .ended (.value d.value)) := by
    rw [fetch, htake]
    exact ⟨_, rfl⟩
  rw [heq]
  exact ⟨rfl, htaken.countStats g⟩

/-- Where nothing is offered a task begins to wait, and nothing else is offered or missing then. -/
theorem fetch_none (h : t.Offers f) (hhosts : t.Hosts crowd queue) (now : Nat) (id : TaskId)
    (limit : Nat) (hvalue : f key = none) :
    (∃ cell, (t.fetch now id key limit).2 =
      .entered ⟨key, cell, now, if limit = 0 then none else some (now + limit)⟩) ∧
      (t.fetch now id key limit).1.Offers f := by
  have htake : t.takeReady? key = none := by
    refine takeReady?_eq_none.mpr fun c hfind => ?_
    obtain ⟨hc, rfl⟩ := find?_eq_some hfind
    exact Option.map_eq_none_iff.mp ((h.value c hc).trans hvalue)
  have hslot := slot_withCell htake now
  rw [fetch, htake]
  refine ⟨⟨_, rfl⟩, ?_⟩
  have hentered := h.changeCell hhosts now key (g := fun c => c.enter id) (fun _ => rfl)
    fun _ => Nat.succ_ne_zero _
  have hsame : Function.update f key ((t.withCell now key).2.slot.map Deposit.value) = f := by
    rw [hslot, Option.map_none, ← hvalue, Function.update_eq_self]
  rwa [Cell.enter, hsame] at hentered

/-- The cell at which a task waits is the one of its key. -/
theorem placed (h : t.Offers f) (hhosts : t.Hosts crowd queue) (hw : (id, w) ∈ crowd) :
    ∃ c ∈ t.cells, c.id = w.cell ∧ c.key = w.key ∧ t.cell? w.cell = some c ∧
      (id ∈ c.sleepers ∨ id ∈ queue) := by
  obtain ⟨c, hc, hid, hkey, hs⟩ := hhosts.placed _ hw
  have hcell := hhosts.cell?_eq_some_iff.mpr ⟨hc, hid⟩
  rw [known, h.reach, List.append_nil] at hc
  exact ⟨c, hc, hid, hkey, hcell, hs⟩

/-- Whoever waits for a value that is offered is called for it. -/
theorem mem_queue (h : t.Offers f) (hhosts : t.Hosts crowd queue) (hw : (id, w) ∈ crowd)
    (hvalue : f w.key = some a) : id ∈ queue := by
  obtain ⟨c, hc, -, hkey, -, hs⟩ := h.placed hhosts hw
  have hslot : c.hasValue = true := by
    rw [← hkey, ← h.value c hc] at hvalue
    rw [Cell.hasValue, ← Option.isSome_map, hvalue]
    rfl
  rw [hhosts.awake c (mem_known_of_mem_cells hc) hslot] at hs
  exact hs.resolve_left List.not_mem_nil

/-- A task that waits for a value that is offered takes it. -/
theorem resume_some (h : t.Offers f) (hhosts : t.Hosts crowd queue) (clock : Clock)
    (hw : (id, w) ∈ crowd) (hvalue : f w.key = some a) :
    (t.resume clock id w).2 = .ended (.value a) ∧
      (t.resume clock id w).1.Offers (Function.update f w.key none) := by
  obtain ⟨c, hc, hid, hkey, hcell, -⟩ := h.placed hhosts hw
  rw [← hkey] at hvalue ⊢
  rw [← hid] at hcell
  obtain ⟨d, hslot, rfl⟩ := Option.map_eq_some_iff.mp ((h.value c hc).trans hvalue)
  have htake : t.takeAwaited? w.cell = some (d.value,
      if c.waiters ≤ 1 then t.remove c.id else t.change c.id Cell.clear) := by
    simp [takeAwaited?, ← hid, hcell, hslot]
  have htaken : ((if c.waiters ≤ 1 then t.remove c.id else t.change c.id Cell.clear).leave
      c.id id).Offers (Function.update f c.key none) := by
    split
    · -- The cell is gone with the value, so nobody is left to leave it.
      have hgone : ∀ b ∈ (t.remove c.id).known, b.id ≠ c.id := by
        rw [known_remove]
        exact fun b hb => by simpa using (List.mem_filter.mp hb).2
      have hremoved := h.remove hhosts hc
      rw [Table.leave, change_of_absent hgone]
      refine ⟨?_, hremoved.value, hremoved.present, hremoved.inUse⟩
      rw [hremoved.reach, List.filter_nil]
    · next hwaiters =>
      have hcleared := h.clear hhosts hc (by omega)
      have hmem : c.clear ∈ (t.change c.id Cell.clear).cells :=
        List.mem_map.mpr ⟨c, hc, if_pos rfl⟩
      have hleft := hcleared.touch (hhosts.clear c.id) hmem (g := fun c => c.leave id) rfl rfl
        fun _ => Nat.sub_ne_zero_of_lt (Nat.not_le.mp hwaiters)
      refine ⟨?_, hleft.value, hleft.present, hleft.inUse⟩
      exact (congrArg _ hleft.reach).trans List.filter_nil
  obtain ⟨g, heq⟩ : ∃ g, t.resume clock id w =
      (Table.countStats _ g, .ended (.value d.value)) := by
    rw [resume, htake, ← hid]
    exact ⟨_, rfl⟩
  rw [heq]
  exact ⟨rfl, htaken.countStats g⟩

/-- A task without a deadline goes on waiting where nothing is offered. -/
theorem resume_none (h : t.Offers f) (hhosts : t.Hosts crowd queue) (clock : Clock)
    (hw : (id, w) ∈ crowd) (hvalue : f w.key = none) (hdeadline : w.deadline = none) :
    (t.resume clock id w).2 = .waiting w ∧ (t.resume clock id w).1.Offers f := by
  obtain ⟨c, hc, hid, hkey, hcell, -⟩ := h.placed hhosts hw
  have hslot : c.slot = none := by
    rw [← hkey, ← h.value c hc] at hvalue
    exact Option.map_eq_none_iff.mp hvalue
  have htake : t.takeAwaited? w.cell = none := by
    refine takeAwaited?_eq_none.mpr fun b hb => ?_
    obtain rfl := Option.some.inj (hcell.symm.trans hb)
    exact hslot
  have hstay : t.resume clock id w = (t.change w.cell fun c => c.sleep id, .waiting w) := by
    rw [resume, htake]
    simp [hdeadline]
  rw [hstay, ← hid]
  refine ⟨rfl, h.touch hhosts hc (c.key_sleep id) (c.slot_sleep id) ?_⟩
  rw [Cell.sleep_eq]
  exact h.inUse c hc

/-- What comes of an attempt without a time limit, and what the table offers then. -/
inductive Tries (f : String → Option α) (key : String) : Table α × Attempt α → Prop where
  | taken {t : Table α} {a : α} (hvalue : f key = some a)
    (h : t.Offers (Function.update f key none)) : Tries f key (t, .ended (.value a))
  | entered {t : Table α} {w : Wait} (hvalue : f key = none) (hkey : w.key = key)
    (hdeadline : w.deadline = none) (h : t.Offers f) : Tries f key (t, .entered w)
  | waiting {t : Table α} {w : Wait} (hvalue : f key = none) (hkey : w.key = key)
    (hdeadline : w.deadline = none) (h : t.Offers f) : Tries f key (t, .waiting w)

theorem tries_fetch (h : t.Offers f) (hhosts : t.Hosts crowd queue) (now : Nat) (id : TaskId)
    (key : String) : Tries f key (t.fetch now id key 0) := by
  have hsome (a : α) (hvalue : f key = some a) := h.fetch_some hhosts now id 0 hvalue
  have hnone (hvalue : f key = none) := h.fetch_none hhosts now id 0 hvalue
  generalize t.fetch now id key 0 = r at hsome hnone ⊢
  obtain ⟨t', attempt⟩ := r
  cases hvalue : f key with
  | some a =>
    obtain ⟨rfl, hleft⟩ := hsome a hvalue
    exact .taken hvalue hleft
  | none =>
    obtain ⟨⟨cell, rfl⟩, hleft⟩ := hnone hvalue
    exact .entered hvalue rfl rfl hleft

theorem tries_resume (h : t.Offers f) (hhosts : t.Hosts crowd queue) (clock : Clock)
    (hw : (id, w) ∈ crowd) (hdeadline : w.deadline = none) :
    Tries f w.key (t.resume clock id w) := by
  have hsome (a : α) := h.resume_some hhosts clock hw (a := a)
  have hnone := h.resume_none hhosts clock hw
  generalize t.resume clock id w = r at hsome hnone ⊢
  obtain ⟨t', attempt⟩ := r
  cases hvalue : f w.key with
  | some a =>
    obtain ⟨rfl, hleft⟩ := hsome a hvalue
    exact .taken hvalue hleft
  | none =>
    obtain ⟨rfl, hleft⟩ := hnone hvalue hdeadline
    exact .waiting hvalue rfl hdeadline hleft

/-- A table that offers nothing to nobody has no cells. -/
theorem cells_eq_nil (h : t.Offers f) (hhosts : t.Hosts [] queue) (hnone : ∀ key, f key = none) :
    t.cells = [] := by
  refine List.eq_nil_iff_forall_not_mem.mpr fun c hc => ?_
  have hslot := Option.map_eq_none_iff.mp ((h.value c hc).trans (hnone c.key))
  exact h.inUse c hc hslot (hhosts.waiters_eq c (mem_known_of_mem_cells hc))

end Offers
end Table
end EbmsMessaging.Correlation
