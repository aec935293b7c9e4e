import EbmsMessaging.Proofs.Correlation.Orderly

/-!
# What becomes of cells and values

A move that does not sweep puts no cell in reach that was out of it, and no value into a cell but
the one that it brings. A sweep takes cells out of reach and changes none.
-/
namespace EbmsMessaging.Correlation

variable {α : Type}

/-- A cell comes from another one and has no other value. -/
structure Cell.StemsFrom (c' c : Cell α) : Prop where
  id_eq : c'.id = c.id
  key_eq : c'.key = c.key
  slot_eq : ∀ d, c'.slot = some d → c.slot = some d

namespace Cell.StemsFrom

theorem refl (c : Cell α) : c.StemsFrom c := ⟨rfl, rfl, fun _ h => h⟩

theorem trans {c'' c' c : Cell α} (h' : c''.StemsFrom c') (h : c'.StemsFrom c) :
    c''.StemsFrom c :=
  ⟨h'.id_eq.trans h.id_eq, h'.key_eq.trans h.key_eq, fun d hd => h.slot_eq d (h'.slot_eq d hd)⟩

end Cell.StemsFrom

namespace Table

/-- The cells of a later table come from those of an earlier one or are new. Their values were there
before, except for one that was brought. -/
structure Succeeds (brought : Option (String × Deposit α)) (t' t : Table α) : Prop where
  retention_eq : t'.retention = t.retention
  nextId_le : t.nextId ≤ t'.nextId
  cells : ∀ c' ∈ t'.cells, t.nextId ≤ c'.id ∨ ∃ c ∈ t.cells, c'.id = c.id
  values : ∀ c' ∈ t'.cells, ∀ d, c'.slot = some d → brought = some (c'.key, d) ∨
    ∃ c ∈ t.cells, c'.id = c.id ∧ c'.key = c.key ∧ c.slot = some d
  aside : ∀ c' ∈ t'.aside, ∃ c ∈ t.aside, c'.StemsFrom c

namespace Succeeds

/-- Every cell comes from one that was there. -/
theorem of_stems {t' t : Table α} (hretention : t'.retention = t.retention)
    (hnext : t.nextId ≤ t'.nextId) (hcells : ∀ c' ∈ t'.cells, ∃ c ∈ t.cells, c'.StemsFrom c)
    (haside : ∀ c' ∈ t'.aside, ∃ c ∈ t.aside, c'.StemsFrom c) : t'.Succeeds none t where
  retention_eq := hretention
  nextId_le := hnext
  cells c' hc' := by
    obtain ⟨c, hc, hstem⟩ := hcells c' hc'
    exact .inr ⟨c, hc, hstem.id_eq⟩
  values c' hc' d hd := by
    obtain ⟨c, hc, hstem⟩ := hcells c' hc'
    exact .inr ⟨c, hc, hstem.id_eq, hstem.key_eq, hstem.slot_eq d hd⟩
  aside := haside

/-- Every cell was there. -/
theorem of_subset {t' t : Table α} (hretention : t'.retention = t.retention)
    (hnext : t.nextId ≤ t'.nextId) (hcells : ∀ c ∈ t'.cells, c ∈ t.cells)
    (haside : ∀ c ∈ t'.aside, c ∈ t.aside) : t'.Succeeds none t :=
  of_stems hretention hnext (fun c hc => ⟨c, hcells c hc, .refl c⟩)
    fun c hc => ⟨c, haside c hc, .refl c⟩

theorem refl (t : Table α) : t.Succeeds none t :=
  of_subset rfl (Nat.le_refl _) (fun _ hc => hc) fun _ hc => hc

theorem trans {brought : Option (String × Deposit α)} {t'' t' t : Table α}
    (h' : t''.Succeeds brought t') (h : t'.Succeeds none t) : t''.Succeeds brought t where
  retention_eq := h'.retention_eq.trans h.retention_eq
  nextId_le := Nat.le_trans h.nextId_le h'.nextId_le
  cells c'' hc'' := by
    rcases h'.cells c'' hc'' with hid | ⟨c', hc', hid'⟩
    · exact .inl (Nat.le_trans h.nextId_le hid)
    · rw [hid']
      exact h.cells c' hc'
  values c'' hc'' d hd := by
    rcases h'.values c'' hc'' d hd with hb | ⟨c', hc', hid', hkey', hd'⟩
    · exact .inl hb
    · rcases h.values c' hc' d hd' with hb | ⟨c, hc, hid, hkey, hd⟩
      · simp at hb
      · exact .inr ⟨c, hc, hid'.trans hid, hkey'.trans hkey, hd⟩
  aside c'' hc'' := by
    obtain ⟨c', hc', hstem⟩ := h'.aside c'' hc''
    obtain ⟨c, hc, hstem'⟩ := h.aside c' hc'
    exact ⟨c, hc, hstem.trans hstem'⟩

theorem countStats (t : Table α) (f : Stats → Stats) : (t.countStats f).Succeeds none t :=
  of_subset rfl (Nat.le_refl _) (fun _ hc => hc) fun _ hc => hc

theorem withCell (t : Table α) (now : Nat) (key : String) :
    (t.withCell now key).1.Succeeds none t := by
  rcases t.withCell_cases now key with ⟨c, -, heq⟩ | ⟨-, heq⟩
  · rw [heq]
    exact refl t
  · rw [heq]
    refine ⟨rfl, Nat.le_succ _, fun c hc => ?_, fun c hc d hd => ?_, (refl t).aside⟩
    all_goals rcases List.mem_append.mp hc with hc | hc
    · exact .inr ⟨c, hc, rfl⟩
    · rw [List.mem_singleton.mp hc]
      exact .inl (Nat.le_refl _)
    · exact .inr ⟨c, hc, rfl, rfl, hd⟩
    · rw [List.mem_singleton.mp hc] at hd
      simp [Cell.new] at hd

theorem change (t : Table α) (n : Nat) {f : Cell α → Cell α} (hf : ∀ c, (f c).StemsFrom c) :
    (t.change n f).Succeeds none t := by
  have hstem {cs : List (Cell α)} : ∀ c' ∈ cs.map (fun c => if c.id = n then f c else c),
      ∃ c ∈ cs, c'.StemsFrom c := by
    intro c' hc'
    obtain ⟨c, hc, rfl⟩ := List.mem_map.mp hc'
    refine ⟨c, hc, ?_⟩
    split
    · exact hf c
    · exact .refl c
  exact of_stems rfl (Nat.le_refl _) hstem hstem

theorem clear (t : Table α) (n : Nat) : (t.change n Cell.clear).Succeeds none t :=
  change t n fun _ => ⟨rfl, rfl, fun d hd => by simp [Cell.clear] at hd⟩

theorem remove (t : Table α) (n : Nat) : (t.remove n).Succeeds none t :=
  of_subset rfl (Nat.le_refl _) (fun _ hc => (List.mem_filter.mp hc).1)
    fun _ hc => (List.mem_filter.mp hc).1

theorem leave (t : Table α) (n : Nat) (task : TaskId) : (t.leave n task).Succeeds none t := by
  have hleft := change t n (f := fun c => c.leave task) fun _ => ⟨rfl, rfl, fun _ hd => hd⟩
  have hpruned : (t.leave n task).Succeeds none (t.change n fun c => c.leave task) :=
    of_subset rfl (Nat.le_refl _) (fun _ hc => hc) fun _ hc => (List.mem_filter.mp hc).1
  exact hpruned.trans hleft

theorem takeReady {t t' : Table α} {key : String} {a : α} (h : t.takeReady? key = some (a, t')) :
    t'.Succeeds none t := by
  obtain ⟨c, -, -, -, -, rfl⟩ := takeReady?_eq_some h
  split
  · exact remove t _
  · exact clear t _

theorem takeAwaited {t t' : Table α} {n : Nat} {a : α} (h : t.takeAwaited? n = some (a, t')) :
    t'.Succeeds none t := by
  obtain ⟨c, -, -, -, -, rfl⟩ := takeAwaited?_eq_some h
  split
  · exact remove t _
  · exact clear t _

theorem enter (t : Table α) (n : Nat) (task : TaskId) :
    (t.change n fun c => c.enter task).Succeeds none t :=
  change t n fun _ => ⟨rfl, rfl, fun _ hd => hd⟩

theorem sleep (t : Table α) (n : Nat) (task : TaskId) :
    (t.change n fun c => c.sleep task).Succeeds none t := by
  refine change t n fun c => ?_
  rw [Cell.sleep_eq]
  exact ⟨rfl, rfl, fun _ hd => hd⟩

/-- The value goes to the cell in reach of its key. -/
theorem deposit {t : Table α} {crowd : Crowd} {queue : List TaskId} (h : t.Hosts crowd queue)
    (now : Nat) (key : String) (a : α) :
    (t.deposit now key a).1.Succeeds (some (key, ⟨a, now⟩)) t := by
  have hw := h.withCell now key
  obtain ⟨hmem, hkey⟩ := find?_eq_some (t.find?_withCell now key)
  refine trans ?_ (withCell t now key)
  rw [fst_deposit]
  refine ⟨rfl, Nat.le_refl _, ?_, ?_, ?_⟩
  · intro c' hc'
    obtain ⟨c, hc, rfl⟩ := List.mem_map.mp hc'
    refine .inr ⟨c, hc, ?_⟩
    split <;> rfl
  · intro c' hc' d hd
    obtain ⟨c, hc, rfl⟩ := List.mem_map.mp hc'
    by_cases hid : c.id = (t.withCell now key).2.id
    · obtain rfl := hw.eq_of_id (mem_known_of_mem_cells hc) (mem_known_of_mem_cells hmem) hid
      rw [if_pos rfl] at hd ⊢
      simp only [Cell.fill, Option.some.injEq] at hd ⊢
      exact .inl (by rw [hkey, hd])
    · rw [if_neg hid] at hd ⊢
      exact .inr ⟨c, hc, rfl, rfl, hd⟩
  · intro c' hc'
    obtain ⟨c, hc, rfl⟩ := List.mem_map.mp hc'
    have hne := Ne.symm (hw.id_ne_of_aside hmem hc)
    exact ⟨c, hc, by rw [if_neg hne]; exact .refl c⟩

end Succeeds

/-- A later table is what is left of an earlier one after one or more sweeps as of one instant. -/
structure SweptFrom (asOf : Int) (t' t : Table α) : Prop where
  retention_eq : t'.retention = t.retention
  nextId_eq : t'.nextId = t.nextId
  mem_cells : ∀ c, c ∈ t'.cells ↔
    c ∈ t.cells ∧ c.isExpired t.retention asOf = false ∧ c.isUnused t.retention asOf = false
  mem_aside : ∀ c, c ∈ t'.aside ↔
    c ∈ t.aside ∨ (c ∈ t.cells ∧ c.isExpired t.retention asOf = true ∧ c.waiters ≠ 0)

theorem sweptFrom_sweep (t : Table α) (asOf : Int) : SweptFrom asOf (t.sweep asOf).1 t where
  retention_eq := rfl
  nextId_eq := rfl
  mem_cells c := by simp [sweep]
  mem_aside c := by
    have hcomm := and_comm (a := c.waiters ≠ 0) (b := c.isExpired t.retention asOf = true)
    simp only [ne_eq] at hcomm
    simp [sweep, hcomm]

/-- Another sweep as of the same instant finds nothing more. -/
theorem SweptFrom.sweep {asOf : Int} {t' t : Table α} (h : SweptFrom asOf t' t) :
    SweptFrom asOf (t'.sweep asOf).1 t where
  retention_eq := h.retention_eq
  nextId_eq := h.nextId_eq
  mem_cells c := by
    rw [(sweptFrom_sweep t' asOf).mem_cells, h.mem_cells, h.retention_eq, and_assoc, and_self]
  mem_aside c := by
    rw [(sweptFrom_sweep t' asOf).mem_aside, h.mem_aside, h.retention_eq]
    refine or_iff_left ?_
    rintro ⟨hc, hx, -⟩
    rw [((h.mem_cells c).mp hc).2.1] at hx
    exact Bool.false_ne_true hx

theorem SweptFrom.sweepTimes {now n : Nat} {t' t : Table α} (h : SweptFrom now t' t) :
    SweptFrom now (t'.sweepTimes now n).1 t := by
  induction n generalizing t' with
  | zero => exact h
  | succ n ih => exact ih h.sweep

end Table

namespace WaitingRoom

open Table

/-- The value that a move brings, and its key. -/
def brought? (w : WaitingRoom α) : Move α → Option (String × Deposit α)
  | .deposit key a => some (key, ⟨a, w.now⟩)
  | _ => none

theorem SweepsAsOf.unique {w : WaitingRoom α} {m : Move α} {asOf asOf' : Int}
    (h : w.SweepsAsOf m asOf) (h' : w.SweepsAsOf m asOf') : asOf = asOf' := by
  cases m with
  | sweep offset => exact h.trans h'.symm
  | turn id => exact h.1.trans h'.1.symm
  | _ => exact h.elim

theorem Turned.sweptFrom {w v : WaitingRoom α} {id : TaskId} (h : Turned w id v) {asOf : Int}
    (hs : w.SweepsAsOf (.turn id) asOf) : SweptFrom asOf v.shared.table w.shared.table := by
  obtain ⟨rfl, ha', s, htask', hp', htimes⟩ := hs
  cases h with
  | nobody htask => simp [htask'] at htask
  | withdrawn wait _ ha => exact absurd ha ha'
  | dropped task _ ha _ => exact absurd ha ha'
  | fetched key limit a t htask _ _ => simp [htask'] at htask
  | entered key limit htask _ _ => simp [htask'] at htask
  | received wait a t htask _ _ => simp [htask'] at htask
  | timedOut wait htask _ _ _ => simp [htask'] at htask
  | stayed wait htask _ _ _ => simp [htask'] at htask
  | idled sweeper htask _ hp =>
    obtain rfl : s = sweeper := by simpa [htask'] using htask
    exact absurd hp hp'
  | ticked sweeper htask _ _ =>
    obtain rfl : s = sweeper := by simpa [htask'] using htask
    obtain ⟨n, hn⟩ := Nat.exists_eq_succ_of_ne_zero htimes
    rw [table_rest, hn]
    exact (sweptFrom_sweep w.shared.table w.now).sweepTimes

theorem Turned.succeeds {w v : WaitingRoom α} {id : TaskId} (h : Turned w id v)
    (hs : ∀ asOf, ¬w.SweepsAsOf (.turn id) asOf) :
    v.shared.table.Succeeds none w.shared.table := by
  cases h with
  | nobody _ => exact .refl _
  | withdrawn wait _ _ => exact .leave _ _ _
  | dropped task _ _ _ => exact .refl _
  | fetched key limit a t _ _ ht =>
    rw [table_close]
    exact (Succeeds.countStats _ _).trans (.takeReady ht)
  | entered key limit _ _ _ =>
    rw [table_rest]
    exact (Succeeds.enter _ _ id).trans (.withCell _ _ _)
  | received wait a t _ _ ht =>
    rw [table_close]
    exact (Succeeds.countStats _ _).trans ((Succeeds.leave _ _ _).trans (.takeAwaited ht))
  | timedOut wait _ _ _ _ =>
    rw [table_close]
    exact (Succeeds.countStats _ _).trans (.leave _ _ _)
  | stayed wait _ _ _ _ =>
    rw [table_rest]
    exact .sleep _ _ _
  | idled sweeper _ _ _ => exact .refl _
  | ticked sweeper htask ha hp =>
    rw [table_rest]
    by_cases htimes : (sweeper.tick w.clock).1 = 0
    · rw [htimes]
      exact .refl _
    · exact absurd ⟨rfl, ha, sweeper, htask, hp, htimes⟩ (hs w.now)

theorem table_deposit (w : WaitingRoom α) (key : String) (a : α) :
    (w.deposit key a).2.shared.table = (w.shared.table.deposit w.now key a).1 := by
  simp only [deposit, Scheduler.change, Scheduler.callAll_eq]

theorem table_sweep (w : WaitingRoom α) (offset : Int) :
    (w.sweep offset).2.shared.table = (w.shared.table.sweep (w.now + offset)).1 := by
  simp only [sweep, Scheduler.change, Scheduler.callAll_eq]

theorem sweptFrom_move {w : WaitingRoom α} {m : Move α} {asOf : Int} (h : w.SweepsAsOf m asOf) :
    SweptFrom asOf (w.move m).shared.table w.shared.table := by
  cases m with
  | sweep offset =>
    obtain rfl : asOf = w.now + offset := h
    rw [move, table_sweep]
    exact sweptFrom_sweep _ _
  | turn id => exact (turned w id).sweptFrom h
  | _ => exact h.elim

theorem succeeds_move {w : WaitingRoom α} {orders : List RoomTask} (hw : w.Orderly orders)
    {m : Move α} (h : ∀ asOf, ¬w.SweepsAsOf m asOf) :
    (w.move m).shared.table.Succeeds (w.brought? m) w.shared.table := by
  cases m with
  | fetch key limit => exact .refl _
  | startSweeper period => exact .refl _
  | deposit key a =>
    rw [move, table_deposit]
    exact .deposit hw.hosts _ _ _
  | sweep offset => exact absurd rfl (h _)
  | advance ms => exact .refl _
  | abort id =>
    rw [move]
    rcases Scheduler.abort_cases w id with heq | heq
    all_goals
      rw [heq]
      exact .refl _
  | turn id => exact (turned w id).succeeds h
  | ring =>
    simp only [move, Scheduler.ring, Scheduler.callAll_eq]
    exact .refl _

end WaitingRoom
end EbmsMessaging.Correlation
