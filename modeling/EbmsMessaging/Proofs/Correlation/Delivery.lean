import EbmsMessaging.Proofs.Correlation.Evolution

/-!
# Where values go

A value leaves its cell in three ways. The turn of a task takes it away and returns it, a later
value of the same key replaces it, or a sweep removes the cell. Every other move keeps all cells in
reach with their values.
-/
namespace EbmsMessaging.Correlation

variable {α : Type}

namespace Table

/-- The value under a key that nobody has fetched yet. -/
def valueAt? (t : Table α) (key : String) : Option (Deposit α) := (t.find? key).bind Cell.slot

/-- A known cell has a value. -/
def Stores (t : Table α) (n : Nat) (key : String) (d : Deposit α) : Prop :=
  ∃ c ∈ t.known, c.id = n ∧ c.key = key ∧ c.slot = some d

theorem Hosts.valueAt?_eq_some_iff {t : Table α} {crowd : Crowd} {queue : List TaskId}
    (h : t.Hosts crowd queue) {key : String} {d : Deposit α} :
    t.valueAt? key = some d ↔ ∃ c ∈ t.cells, c.key = key ∧ c.slot = some d := by
  simp only [valueAt?, Option.bind_eq_some_iff, h.find?_eq_some_iff, and_assoc]

theorem Succeeds.stores {brought : Option (String × Deposit α)} {t' t : Table α}
    (h : t'.Succeeds brought t) {n : Nat} {key : String} {d : Deposit α}
    (hd : t'.Stores n key d) : t.Stores n key d ∨
      (brought = some (key, d) ∧ ∃ c ∈ t'.cells, c.id = n ∧ c.key = key) := by
  obtain ⟨c', hc', hid, hkey, hslot⟩ := hd
  rcases List.mem_append.mp hc' with hc' | hc'
  · rcases h.values c' hc' d hslot with hb | ⟨c, hc, hid', hkey', hd⟩
    · exact .inr ⟨hkey ▸ hb, c', hc', hid, hkey⟩
    · exact .inl ⟨c, mem_known_of_mem_cells hc, hid'.symm.trans hid, hkey'.symm.trans hkey, hd⟩
  · obtain ⟨c, hc, hstem⟩ := h.aside c' hc'
    exact .inl ⟨c, mem_known_of_mem_aside hc, hstem.id_eq.symm.trans hid,
      hstem.key_eq.symm.trans hkey, hstem.slot_eq d hslot⟩

theorem SweptFrom.stores {asOf : Int} {t' t : Table α} (h : SweptFrom asOf t' t) {n : Nat}
    {key : String} {d : Deposit α} (hd : t'.Stores n key d) : t.Stores n key d := by
  obtain ⟨c, hc, hrest⟩ := hd
  refine ⟨c, ?_, hrest⟩
  rcases List.mem_append.mp hc with hc | hc
  · exact mem_known_of_mem_cells ((h.mem_cells c).mp hc).1
  · rcases (h.mem_aside c).mp hc with hc | ⟨hc, -⟩
    · exact mem_known_of_mem_aside hc
    · exact mem_known_of_mem_cells hc

/-- A later table has every cell in reach with its value, except perhaps the cell with a number. -/
def Keeps (except : Option Nat) (t' t : Table α) : Prop :=
  ∀ c ∈ t.cells, except ≠ some c.id → ∃ c' ∈ t'.cells,
    c'.id = c.id ∧ c'.key = c.key ∧ c'.slot = c.slot

namespace Keeps

variable {except : Option Nat}

theorem refl (t : Table α) : Keeps except t t := fun c hc _ => ⟨c, hc, rfl, rfl, rfl⟩

theorem trans {t'' t' t : Table α} (h' : Keeps except t'' t') (h : Keeps except t' t) :
    Keeps except t'' t := by
  intro c hc hne
  obtain ⟨c', hc', hid, hkey, hslot⟩ := h c hc hne
  obtain ⟨c'', hc'', hid', hkey', hslot'⟩ := h' c' hc' (by rw [hid]; exact hne)
  exact ⟨c'', hc'', hid'.trans hid, hkey'.trans hkey, hslot'.trans hslot⟩

theorem countStats (t : Table α) (f : Stats → Stats) : Keeps except (t.countStats f) t := refl t

theorem withCell (t : Table α) (now : Nat) (key : String) :
    Keeps except (t.withCell now key).1 t := by
  rcases t.withCell_cases now key with ⟨c, -, heq⟩ | ⟨-, heq⟩
  · rw [heq]
    exact refl t
  · rw [heq]
    exact fun c hc _ => ⟨c, List.mem_append_left _ hc, rfl, rfl, rfl⟩

/-- A change of one cell matters only there. -/
theorem change_except (t : Table α) (n : Nat) (f : Cell α → Cell α) :
    Keeps (some n) (t.change n f) t := by
  intro c hc hne
  have hid : ¬c.id = n := fun heq => hne (by rw [heq])
  exact ⟨c, List.mem_map.mpr ⟨c, hc, if_neg hid⟩, rfl, rfl, rfl⟩

/-- A change that leaves the value alone does not matter. -/
theorem change (t : Table α) (n : Nat) {f : Cell α → Cell α}
    (hf : ∀ c, (f c).id = c.id ∧ (f c).key = c.key ∧ (f c).slot = c.slot) :
    Keeps except (t.change n f) t := by
  intro c hc _
  refine ⟨_, List.mem_map_of_mem hc, ?_⟩
  split
  · exact hf c
  · exact ⟨rfl, rfl, rfl⟩

theorem remove (t : Table α) (n : Nat) : Keeps (some n) (t.remove n) t := by
  intro c hc hne
  have hid : c.id ≠ n := fun heq => hne (by rw [heq])
  exact ⟨c, List.mem_filter.mpr ⟨hc, by simpa using hid⟩, rfl, rfl, rfl⟩

theorem enter (t : Table α) (n : Nat) (task : TaskId) :
    Keeps except (t.change n fun c => c.enter task) t := change t n fun _ => ⟨rfl, rfl, rfl⟩

theorem leave (t : Table α) (n : Nat) (task : TaskId) : Keeps except (t.leave n task) t :=
  change t n (f := fun c => c.leave task) fun _ => ⟨rfl, rfl, rfl⟩

theorem sleep (t : Table α) (n : Nat) (task : TaskId) :
    Keeps except (t.change n fun c => c.sleep task) t := by
  refine change t n fun c => ?_
  rw [Cell.sleep_eq]
  exact ⟨rfl, rfl, rfl⟩

theorem deposit (t : Table α) (now : Nat) (key : String) (a : α) :
    Keeps (some (t.withCell now key).2.id) (t.deposit now key a).1 t := by
  rw [fst_deposit]
  exact (countStats _ _).trans ((change_except _ _ _).trans (withCell t now key))

end Keeps

/-- A later table lacks the value of one cell. -/
structure Emptied (n : Nat) (t' t : Table α) : Prop where
  keeps : Keeps (some n) t' t
  empty : ∀ c ∈ t'.known, c.id = n → c.slot = none

theorem emptied_remove (t : Table α) (n : Nat) : Emptied n (t.remove n) t := by
  refine ⟨.remove t n, fun c hc hid => ?_⟩
  rw [known_remove] at hc
  exact absurd hid (by simpa using (List.mem_filter.mp hc).2)

theorem emptied_clear (t : Table α) (n : Nat) : Emptied n (t.change n Cell.clear) t := by
  refine ⟨.change_except t n _, fun c' hc' hid => ?_⟩
  rw [known_change] at hc'
  obtain ⟨c, -, rfl⟩ := List.mem_map.mp hc'
  by_cases hc : c.id = n
  · rw [if_pos hc]
    rfl
  · rw [if_neg hc] at hid
    exact absurd hid hc

theorem Emptied.leave {n : Nat} {t' t : Table α} (h : Emptied n t' t) (m : Nat) (task : TaskId) :
    Emptied n (t'.leave m task) t := by
  refine ⟨(Keeps.leave t' m task).trans h.keeps, fun c' hc' hid => ?_⟩
  have hknown : c' ∈ (t'.change m fun c => c.leave task).known := by
    rcases List.mem_append.mp hc' with hc' | hc'
    · exact mem_known_of_mem_cells hc'
    · exact mem_known_of_mem_aside (List.mem_filter.mp hc').1
  rw [known_change] at hknown
  obtain ⟨c, hc, rfl⟩ := List.mem_map.mp hknown
  by_cases hm : c.id = m
  · rw [if_pos hm] at hid ⊢
    exact h.empty c hc hid
  · rw [if_neg hm] at hid ⊢
    exact h.empty c hc hid

theorem Emptied.countStats {n : Nat} {t' t : Table α} (h : Emptied n t' t) (f : Stats → Stats) :
    Emptied n (t'.countStats f) t := ⟨h.keeps, h.empty⟩

theorem takeReady?_emptied {t t' : Table α} {key : String} {a : α}
    (h : t.takeReady? key = some (a, t')) :
    ∃ c d, t.find? key = some c ∧ c.slot = some d ∧ d.value = a ∧ Emptied c.id t' t := by
  obtain ⟨c, d, hc, hd, ha, rfl⟩ := takeReady?_eq_some h
  refine ⟨c, d, hc, hd, ha, ?_⟩
  split
  · exact emptied_remove t c.id
  · exact emptied_clear t c.id

theorem takeAwaited?_emptied {t t' : Table α} {n : Nat} {a : α}
    (h : t.takeAwaited? n = some (a, t')) :
    ∃ c d, t.cell? n = some c ∧ c.slot = some d ∧ d.value = a ∧ Emptied n t' t := by
  obtain ⟨c, d, hc, hd, ha, rfl⟩ := takeAwaited?_eq_some h
  refine ⟨c, d, hc, hd, ha, ?_⟩
  split
  · exact emptied_remove t n
  · exact emptied_clear t n

end Table

namespace WaitingRoom

open Table

/-- The value in a result. -/
def fetched? : Option (Outcome α) → Option α
  | some (.value a) => some a
  | _ => none

/-- The tasks that returned a value, each with its value. -/
def returned (w : WaitingRoom α) : List (TaskId × α) :=
  w.results.filterMap fun r => (fetched? r.2).map fun a => (r.1, a)

theorem returned_close (w : WaitingRoom α) (id : TaskId) (t : Table α)
    (results : List (Option (Outcome α))) : (w.close id t results).returned =
      w.returned ++ (results.filterMap fetched?).map fun a => (id, a) := by
  simp only [returned, close, List.filterMap_append, List.filterMap_map, List.map_filterMap]
  rfl

/-- A task returns the value of a cell of the key that it fetches. -/
structure Delivers (orders : List RoomTask) (w v : WaitingRoom α) (id : TaskId) (c : Cell α)
    (d : Deposit α) : Prop where
  known : c ∈ w.shared.table.known
  slot_eq : c.slot = some d
  order : ∃ limit, orders[id]? = some (.fetching c.key limit)
  returned_eq : v.returned = w.returned ++ [(id, d.value)]
  emptied : Emptied c.id v.shared.table w.shared.table

/-- Nothing is returned and no value leaves its cell. -/
structure Spares (except : Option Nat) (w v : WaitingRoom α) : Prop where
  returned_eq : v.returned = w.returned
  keeps : Keeps except v.shared.table w.shared.table

section Takes

variable {orders : List RoomTask} {w : WaitingRoom α} {id : TaskId} {a : α} {t : Table α}

/-- A value that is ready for its key is returned at once. -/
theorem delivers_of_takeReady? (hw : w.Orderly orders) {key : String} {limit : Nat}
    (htask : w.task? id = some (.fetching key limit))
    (ht : w.shared.table.takeReady? key = some (a, t)) (g : Stats → Stats) :
    ∃ c d, Delivers orders w (w.close id (t.countStats g) [some (.value a)]) id c d := by
  obtain ⟨c, d, hc, hd, rfl, he⟩ := takeReady?_emptied ht
  obtain ⟨hmem, rfl⟩ := find?_eq_some hc
  refine ⟨c, d, mem_known_of_mem_cells hmem, hd, ⟨limit, ?_⟩, ?_, ?_⟩
  · obtain ⟨order, horder, hstem⟩ := hw.stems _ (Scheduler.mem_of_lookup htask)
    rw [horder, show order = .fetching c.key limit from hstem]
  · rw [returned_close]
    rfl
  · rw [table_close]
    exact he.countStats g

/-- A value that a task waited for is returned; its cell has the key of the task. -/
theorem delivers_of_takeAwaited? (hw : w.Orderly orders) {wait : Wait}
    (htask : w.task? id = some (.waiting wait))
    (ht : w.shared.table.takeAwaited? wait.cell = some (a, t)) (g : Stats → Stats) :
    ∃ c d, Delivers orders w
      (w.close id ((t.leave wait.cell id).countStats g) [some (.value a)]) id c d := by
  obtain ⟨c, d, hc, hd, rfl, he⟩ := takeAwaited?_emptied ht
  obtain ⟨hmem, hid⟩ := cell?_eq_some hc
  have hentry := Scheduler.mem_of_lookup htask
  obtain ⟨c', hc', hid', hkey, -⟩ := hw.hosts.placed _ (mem_crowdOf.mpr hentry)
  obtain rfl := hw.hosts.eq_of_id hmem hc' (hid.trans hid'.symm)
  obtain ⟨order, horder, limit, rfl, -⟩ := hw.stems _ hentry
  refine ⟨c, d, hmem, hd, ⟨limit, ?_⟩, ?_, ?_⟩
  · rw [horder, hkey]
  · rw [returned_close]
    rfl
  · rw [table_close, hid]
    exact (he.leave _ _).countStats g

end Takes

theorem Turned.delivers_or_spares {orders : List RoomTask} {w v : WaitingRoom α} {id : TaskId}
    (hw : w.Orderly orders) (h : Turned w id v) (hs : ∀ asOf, ¬w.SweepsAsOf (.turn id) asOf) :
    (∃ c d, Delivers orders w v id c d) ∨ Spares none w v := by
  have hclosed {t : Table α} {result : List (Option (Outcome α))}
      (hresult : result.filterMap fetched? = []) (ht : Keeps none t w.shared.table) :
      Spares none w (w.close id t result) := by
    refine ⟨?_, by rw [table_close]; exact ht⟩
    rw [returned_close, hresult]
    simp
  cases h with
  | nobody _ => exact .inr ⟨rfl, .refl _⟩
  | withdrawn wait _ _ => exact .inr (hclosed rfl (.leave _ _ _))
  | dropped task _ _ _ => exact .inr (hclosed rfl (.refl _))
  | fetched key limit a t htask _ ht => exact .inl (delivers_of_takeReady? hw htask ht _)
  | entered key limit _ _ _ =>
    refine .inr ⟨rfl, ?_⟩
    rw [table_rest]
    exact (Keeps.enter _ _ id).trans (.withCell _ _ _)
  | received wait a t htask _ ht => exact .inl (delivers_of_takeAwaited? hw htask ht _)
  | timedOut wait _ _ _ _ => exact .inr (hclosed rfl (.leave _ _ _))
  | stayed wait _ _ _ _ =>
    refine .inr ⟨rfl, ?_⟩
    rw [table_rest]
    exact .sleep _ _ _
  | idled sweeper _ _ _ => exact .inr (hclosed rfl (.refl _))
  | ticked sweeper htask ha hp =>
    refine .inr ⟨rfl, ?_⟩
    rw [table_rest]
    by_cases htimes : (sweeper.tick w.clock).1 = 0
    · rw [htimes]
      exact .refl _
    · exact absurd ⟨rfl, ha, sweeper, htask, hp, htimes⟩ (hs w.now)

theorem Turned.returned_of_sweepsAsOf {w v : WaitingRoom α} {id : TaskId} (h : Turned w id v)
    {asOf : Int} (hs : w.SweepsAsOf (.turn id) asOf) : v.returned = w.returned := by
  obtain ⟨-, -, s, htask', -⟩ := hs
  cases h with
  | fetched key limit a t htask _ _ => simp [htask'] at htask
  | received wait a t htask _ _ => simp [htask'] at htask
  | timedOut wait htask _ _ _ => simp [htask'] at htask
  | withdrawn wait htask _ => simp [htask'] at htask
  | dropped task _ _ _ => simp [returned_close]
  | idled sweeper _ _ _ => simp [returned_close, fetched?]
  | _ => rfl

theorem returned_of_not_turn (w : WaitingRoom α) {m : Move α} (h : ∀ id, m ≠ .turn id) :
    (w.move m).returned = w.returned := by
  rw [returned, (tasks_and_results_of_not_turn w h).1]
  rfl

theorem returned_of_sweepsAsOf {w : WaitingRoom α} {m : Move α} {asOf : Int}
    (h : w.SweepsAsOf m asOf) : (w.move m).returned = w.returned := by
  by_cases hm : ∃ id, m = .turn id
  · obtain ⟨id, rfl⟩ := hm
    exact (turned w id).returned_of_sweepsAsOf h
  · exact returned_of_not_turn w (not_exists.mp hm)

theorem spares_deposit (w : WaitingRoom α) (key : String) (a : α) :
    Spares (some (w.shared.table.withCell w.now key).2.id) w (w.move (.deposit key a)) := by
  constructor
  · exact returned_of_not_turn w (by simp)
  · rw [move, table_deposit]
    exact .deposit _ _ _ _

/-- Neither a sweep nor a deposit: a task returns a value, or all values stay where they are. -/
theorem delivers_or_spares_move {orders : List RoomTask} {w : WaitingRoom α}
    (hw : w.Orderly orders) {m : Move α} (hs : ∀ asOf, ¬w.SweepsAsOf m asOf)
    (hb : w.brought? m = none) :
    (∃ id c d, Delivers orders w (w.move m) id c d) ∨ Spares none w (w.move m) := by
  cases m with
  | fetch key limit => exact .inr ⟨rfl, .refl _⟩
  | startSweeper period => exact .inr ⟨rfl, .refl _⟩
  | deposit key a => simp [brought?] at hb
  | sweep offset => exact absurd rfl (hs _)
  | advance ms => exact .inr ⟨rfl, .refl _⟩
  | abort id =>
    rw [move]
    rcases Scheduler.abort_cases w id with heq | heq
    all_goals
      rw [heq]
      exact .inr ⟨rfl, .refl _⟩
  | turn id => exact ((turned w id).delivers_or_spares hw hs).imp_left fun h => ⟨id, h⟩
  | ring =>
    simp only [move, Scheduler.ring, Scheduler.callAll_eq]
    exact .inr ⟨rfl, .refl _⟩

end WaitingRoom
end EbmsMessaging.Correlation
