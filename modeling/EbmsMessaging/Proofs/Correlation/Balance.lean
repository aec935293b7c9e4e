import Mathlib.Algebra.GroupWithZero.Nat
import EbmsMessaging.Proofs.Correlation.Hosting

/-!
# Where values are accounted for

Every value that came was fetched, replaced or swept away, or it still lies in reach. Each operation
of the table keeps this up, a sweep only if nobody waits at a cell with a value: otherwise it would
count a value that a task takes later, from the cell set aside.
-/
namespace EbmsMessaging.Correlation

variable {α : Type}

/-- How many attempts to fetch a value have ended. -/
def Stats.ended (s : Stats) : Nat := s.fetchedAtOnce + s.fetchedAfterWait + s.timeouts

/-- What sweeps have removed so far. -/
def Stats.removals (s : Stats) : Removals := ⟨s.sweptExpired, s.sweptUnused⟩

/-- What some sweeps removed together. -/
def Removals.sum (reports : List Removals) : Removals :=
  ⟨(reports.map Removals.expired).sum, (reports.map Removals.unused).sum⟩

namespace Table

/-- How many values lie in reach. -/
def held (t : Table α) : Nat := t.cells.countP Cell.hasValue

/-- Every value that came is accounted for, and no cell is out of reach. -/
structure Balanced (t : Table α) : Prop where
  reach : t.aside = []
  deposits : t.stats.deposited = t.stats.fetchedAtOnce + t.stats.fetchedAfterWait +
    t.stats.replaced + t.stats.sweptExpired + t.held

/-- Nobody waits at a cell with a value. -/
def Clear (t : Table α) : Prop := ∀ c ∈ t.cells, c.hasValue → c.waiters = 0

/-- Whoever waits at a cell with a value was called for it. -/
theorem Hosts.mem_queue_of_hasValue {t : Table α} {crowd : Crowd} {queue : List TaskId}
    (h : t.Hosts crowd queue) {c : Cell α} (hc : c ∈ t.known) (hvalue : c.hasValue)
    {e : TaskId × Wait} (he : e ∈ crowd) (hcell : e.2.cell = c.id) : e.1 ∈ queue := by
  obtain ⟨d, hd, hid, -, hs⟩ := h.placed e he
  obtain rfl := h.eq_of_id hd hc (hid.trans hcell)
  rw [h.awake d hd hvalue] at hs
  exact hs.resolve_left List.not_mem_nil

/-- The cells before and behind one of them. -/
theorem Hosts.split {t : Table α} {crowd : Crowd} {queue : List TaskId} (h : t.Hosts crowd queue)
    {c : Cell α} (hc : c ∈ t.cells) : ∃ before rest, t.cells = before ++ c :: rest ∧
      (t.remove c.id).cells = before ++ rest ∧
      ∀ f, (t.change c.id f).cells = before ++ f c :: rest := by
  obtain ⟨before, rest, hsplit⟩ := List.append_of_mem hc
  have hn : (t.cells.map Cell.id).Nodup :=
    h.ids_nodup.sublist ((List.sublist_append_left _ _).map _)
  rw [hsplit, List.map_append, List.map_cons, List.nodup_middle, List.nodup_cons,
    ← List.map_append] at hn
  have hne : ∀ d ∈ before ++ rest, d.id ≠ c.id := fun d hd heq =>
    hn.1 (heq ▸ List.mem_map_of_mem hd)
  obtain ⟨hbefore, hrest⟩ := List.forall_mem_append.mp hne
  have hkept {cs : List (Cell α)} (hcs : ∀ d ∈ cs, d.id ≠ c.id) :
      (cs.filter fun d => d.id ≠ c.id) = cs :=
    List.filter_eq_self.mpr fun d hd => by simpa using hcs d hd
  have hsame {cs : List (Cell α)} (hcs : ∀ d ∈ cs, d.id ≠ c.id) (f : Cell α → Cell α) :
      (cs.map fun d => if d.id = c.id then f d else d) = cs := by
    conv_rhs => rw [← List.map_id cs]
    exact List.map_congr_left fun d hd => if_neg (hcs d hd)
  refine ⟨before, rest, hsplit, ?_, fun f => ?_⟩
  · change t.cells.filter (fun d => d.id ≠ c.id) = _
    rw [hsplit, List.filter_append, List.filter_cons_of_neg (by simp), hkept hbefore, hkept hrest]
  · change t.cells.map (fun d => if d.id = c.id then f d else d) = _
    rw [hsplit, List.map_append, List.map_cons, if_pos rfl, hsame hbefore, hsame hrest]

@[simp] theorem held_countStats (t : Table α) (f : Stats → Stats) :
    (t.countStats f).held = t.held :=
  rfl

@[simp] theorem stats_countStats (t : Table α) (f : Stats → Stats) :
    (t.countStats f).stats = f t.stats := rfl

theorem aside_change (t : Table α) (n : Nat) (f : Cell α → Cell α) :
    (t.change n f).aside = t.aside.map fun c => if c.id = n then f c else c := rfl

@[simp] theorem stats_change (t : Table α) (n : Nat) (f : Cell α → Cell α) :
    (t.change n f).stats = t.stats := rfl

@[simp] theorem stats_leave (t : Table α) (n : Nat) (id : TaskId) :
    (t.leave n id).stats = t.stats := rfl

theorem stats_withCell (t : Table α) (now : Nat) (key : String) :
    (t.withCell now key).1.stats = t.stats := by
  rcases t.withCell_cases now key with ⟨c, -, heq⟩ | ⟨-, heq⟩
  all_goals rw [heq]

theorem stats_takeReady {t t' : Table α} {key : String} {a : α}
    (h : t.takeReady? key = some (a, t')) : t'.stats = t.stats := by
  obtain ⟨c, d, -, -, -, rfl⟩ := takeReady?_eq_some h
  split <;> rfl

theorem stats_takeAwaited {t t' : Table α} {n : Nat} {a : α}
    (h : t.takeAwaited? n = some (a, t')) : t'.stats = t.stats := by
  obtain ⟨c, d, -, -, -, rfl⟩ := takeAwaited?_eq_some h
  split <;> rfl

section Held

variable {t t' : Table α} {crowd : Crowd} {queue : List TaskId} {c : Cell α}

theorem held_remove (h : t.Hosts crowd queue) (hc : c ∈ t.cells) (hvalue : c.hasValue) :
    (t.remove c.id).held + 1 = t.held := by
  obtain ⟨before, rest, heq, hremove, -⟩ := h.split hc
  rw [held, held, hremove, heq, List.countP_append, List.countP_append, List.countP_cons,
    if_pos hvalue]
  rfl

theorem held_change (h : t.Hosts crowd queue) (hc : c ∈ t.cells) (f : Cell α → Cell α) :
    (t.change c.id f).held + (if c.hasValue then 1 else 0) =
      t.held + if (f c).hasValue then 1 else 0 := by
  obtain ⟨before, rest, heq, -, hchange⟩ := h.split hc
  rw [held, held, hchange, heq, List.countP_append, List.countP_append, List.countP_cons,
    List.countP_cons]
  omega

/-- A change that leaves the value alone does not matter. -/
theorem held_touch (t : Table α) (n : Nat) {f : Cell α → Cell α}
    (hf : ∀ c, (f c).slot = c.slot) : (t.change n f).held = t.held := by
  rw [held, held, change, List.countP_map]
  refine List.countP_congr fun c _ => ?_
  by_cases hc : c.id = n <;> simp [Function.comp, hc, Cell.hasValue, hf]

theorem held_withCell (t : Table α) (now : Nat) (key : String) :
    (t.withCell now key).1.held = t.held := by
  rcases t.withCell_cases now key with ⟨c, -, heq⟩ | ⟨-, heq⟩
  · rw [heq]
  · rw [heq, held, held, List.countP_append]
    rfl

theorem hasValue_of_isExpired {p : Retention} {asOf : Int} (h : c.isExpired p asOf) :
    c.hasValue := by
  unfold Cell.isExpired at h
  split at h
  · next hslot =>
    rw [Cell.hasValue, hslot]
    rfl
  · simp at h

theorem held_sweep (t : Table α) (asOf : Int) :
    (t.sweep asOf).1.held + (t.sweep asOf).2.expired = t.held := by
  have hunused : ∀ c ∈ t.cells, c.hasValue → !c.isUnused t.retention asOf := by
    intro c _ hv
    obtain ⟨d, hslot⟩ := Option.isSome_iff_exists.mp hv
    simp [Cell.isUnused, hslot]
  simp only [held, sweep]
  rw [List.countP_eq_countP_filter_add t.cells Cell.hasValue (Cell.isExpired t.retention asOf),
    List.countP_filter, List.countP_filter, List.countP_filter, ← List.countP_eq_length_filter,
    Nat.add_comm]
  congr 1
  · refine List.countP_congr fun c hc => ?_
    have hvalue : c.isExpired t.retention asOf → c.hasValue := hasValue_of_isExpired
    simp_all
  · refine List.countP_congr fun c hc => ?_
    have := hunused c hc
    simp_all

end Held

/-! ## Operations keep the balance -/

namespace Balanced

variable {t t' : Table α} {crowd : Crowd} {queue : List TaskId} {c : Cell α}

theorem empty (p : Retention) : (empty p : Table α).Balanced := ⟨rfl, rfl⟩

/-- What neither moves a value nor counts one does not matter. -/
theorem touch (h : t.Balanced) (hreach : t'.aside = []) (hstats : t'.stats = t.stats)
    (hheld : t'.held = t.held) : t'.Balanced := by
  refine ⟨hreach, ?_⟩
  rw [hstats, hheld]
  exact h.deposits

theorem withCell (h : t.Balanced) (now : Nat) (key : String) :
    (t.withCell now key).1.Balanced := by
  have heq : (t.withCell now key).1.aside = t.aside ∧ (t.withCell now key).1.stats = t.stats := by
    rcases t.withCell_cases now key with ⟨c, -, heq⟩ | ⟨-, heq⟩
    all_goals
      rw [heq]
      exact ⟨rfl, rfl⟩
  exact h.touch (heq.1.trans h.reach) heq.2 (held_withCell t now key)

theorem change (h : t.Balanced) (n : Nat) {f : Cell α → Cell α} (hf : ∀ c, (f c).slot = c.slot) :
    (t.change n f).Balanced :=
  h.touch (by simp [Table.change, h.reach]) rfl (held_touch t n hf)

theorem leave (h : t.Balanced) (n : Nat) (id : TaskId) : (t.leave n id).Balanced := by
  have hleft := h.change n (f := fun c => c.leave id) fun _ => rfl
  refine hleft.touch ?_ rfl rfl
  rw [Table.leave, hleft.reach, List.filter_nil]

theorem sleep (h : t.Balanced) (n : Nat) (id : TaskId) :
    (t.change n fun c => c.sleep id).Balanced :=
  h.change n fun c => c.slot_sleep id

theorem deposit (h : t.Balanced) (hhosts : t.Hosts crowd queue) (now : Nat) (key : String) (a : α) :
    (t.deposit now key a).1.Balanced := by
  have hw := h.withCell now key
  have hdeposits := hw.deposits
  have hheld := held_change (hhosts.withCell now key) (find?_eq_some (t.find?_withCell now key)).1
    fun c => c.fill now a
  have hfull (c : Cell α) : (c.fill now a).hasValue = true := rfl
  rw [if_pos (hfull _)] at hheld
  rw [fst_deposit]
  refine ⟨(aside_change _ _ _).trans (by rw [hw.reach, List.map_nil]), ?_⟩
  simp only [stats_countStats, stats_change, held_countStats]
  omega

/-- A task stops waiting, which is counted as a timeout. -/
theorem giveUp (h : t.Balanced) (n : Nat) (id : TaskId) :
    ((t.leave n id).countStats fun s => { s with timeouts := s.timeouts + 1 }).Balanced :=
  ⟨(h.leave n id).reach, (h.leave n id).deposits⟩

theorem sweep (h : t.Balanced) (hclear : t.Clear) (asOf : Int) : (t.sweep asOf).1.Balanced := by
  constructor
  case reach =>
    have hnobody : ∀ c ∈ t.cells.filter (Cell.isExpired t.retention asOf), ¬c.waiters ≠ 0 := by
      intro c hc
      obtain ⟨hc, hx⟩ := List.mem_filter.mp hc
      exact not_not_intro (hclear c hc (hasValue_of_isExpired hx))
    change t.aside ++ (t.cells.filter (Cell.isExpired t.retention asOf)).filter
      (fun c => c.waiters ≠ 0) = []
    rw [h.reach, List.filter_eq_nil_iff.mpr (by simpa using hnobody), List.append_nil]
  case deposits =>
    have hdeposits := h.deposits
    have hheld := held_sweep t asOf
    change t.stats.deposited = t.stats.fetchedAtOnce + t.stats.fetchedAfterWait +
      t.stats.replaced + (t.stats.sweptExpired + (t.sweep asOf).2.expired) + (t.sweep asOf).1.held
    omega

theorem sweepTimes (h : t.Balanced) (hclear : t.Clear) (now n : Nat) :
    (t.sweepTimes now n).1.Balanced := by
  induction n generalizing t with
  | zero => exact h
  | succ n ih => exact ih (h.sweep hclear now) fun c hc => hclear c (List.mem_of_mem_filter hc)

end Balanced

/-- A value was taken away and not counted yet. -/
structure Taken (t' t : Table α) : Prop where
  reach : t'.aside = []
  stats : t'.stats = t.stats
  held : t'.held + 1 = t.held

namespace Taken

variable {t t' : Table α} {crowd : Crowd} {queue : List TaskId} {a : α}

theorem of_cell (h : t.Balanced) (hhosts : t.Hosts crowd queue) {c : Cell α} (hc : c ∈ t.cells)
    (hvalue : c.hasValue) (p : Prop) [Decidable p] :
    Taken (if p then t.remove c.id else t.change c.id Cell.clear) t := by
  split
  · exact ⟨by simp [remove, h.reach], rfl, held_remove hhosts hc hvalue⟩
  · have hheld := held_change hhosts hc Cell.clear
    rw [if_pos hvalue] at hheld
    exact ⟨by rw [aside_change, h.reach, List.map_nil], rfl, hheld⟩

theorem takeReady (h : t.Balanced) (hhosts : t.Hosts crowd queue) {key : String}
    (ht : t.takeReady? key = some (a, t')) : Taken t' t := by
  obtain ⟨c, d, hc, hslot, -, rfl⟩ := takeReady?_eq_some ht
  exact of_cell h hhosts (find?_eq_some hc).1 (by rw [Cell.hasValue, hslot]; rfl) _

theorem takeAwaited (h : t.Balanced) (hhosts : t.Hosts crowd queue) {n : Nat}
    (ht : t.takeAwaited? n = some (a, t')) : Taken t' t := by
  obtain ⟨c, d, hcell, hslot, -, rfl⟩ := takeAwaited?_eq_some ht
  obtain ⟨hc, rfl⟩ := cell?_eq_some hcell
  rw [known, h.reach, List.append_nil] at hc
  exact of_cell h hhosts hc (by rw [Cell.hasValue, hslot]; rfl) _

theorem leave (h : Taken t' t) (n : Nat) (id : TaskId) : Taken (t'.leave n id) t where
  reach := by simp [Table.leave, Table.change, h.reach]
  stats := h.stats
  held := (congrArg (· + 1) (held_touch t' n (f := fun c => c.leave id) fun _ => rfl)).trans h.held

/-- Once it is counted the balance is kept. -/
theorem balanced (ht : Taken t' t) (h : t.Balanced) {f : Stats → Stats}
    (hdeposited : ∀ s, (f s).deposited = s.deposited)
    (hfetched : ∀ s, (f s).fetchedAtOnce + (f s).fetchedAfterWait =
      s.fetchedAtOnce + s.fetchedAfterWait + 1)
    (hlost : ∀ s, (f s).replaced + (f s).sweptExpired = s.replaced + s.sweptExpired) :
    (t'.countStats f).Balanced := by
  refine ⟨ht.reach, ?_⟩
  have hdeposits := h.deposits
  have hheld := ht.held
  have hfetched := hfetched t.stats
  have hlost := hlost t.stats
  rw [stats_countStats, held_countStats, ht.stats, hdeposited]
  omega

end Taken

/-! ## Nobody waits at a value -/

namespace Clear

variable {t t' : Table α} {crowd : Crowd} {queue : List TaskId} {a : α}

/-- Where no waiting task is called nobody waits at a value. -/
theorem of_nobody_called (h : t.Hosts crowd queue) (hnobody : ∀ e ∈ crowd, e.1 ∉ queue) :
    t.Clear := by
  intro c hc hvalue
  have hknown := mem_known_of_mem_cells hc
  rw [h.waiters_eq c hknown]
  refine List.countP_eq_zero.mpr fun e he => ?_
  simpa using fun hcell => hnobody e he (h.mem_queue_of_hasValue hknown hvalue he hcell)

theorem countStats (h : t.Clear) (f : Stats → Stats) : (t.countStats f).Clear := h

/-- A change of cells that brings no value and nobody to a value. -/
theorem change (h : t.Clear) (n : Nat) {f : Cell α → Cell α}
    (hf : ∀ c ∈ t.cells, c.id = n → (f c).hasValue → c.hasValue ∧ (f c).waiters ≤ c.waiters) :
    (t.change n f).Clear := by
  intro c' hc' hvalue
  obtain ⟨c, hc, rfl⟩ := List.mem_map.mp hc'
  by_cases hid : c.id = n
  · rw [if_pos hid] at hvalue ⊢
    obtain ⟨hv, hle⟩ := hf c hc hid hvalue
    have := h c hc hv
    omega
  · rw [if_neg hid] at hvalue ⊢
    exact h c hc hvalue

theorem remove (h : t.Clear) (n : Nat) : (t.remove n).Clear :=
  fun c hc => h c (List.mem_of_mem_filter hc)

theorem clear (h : t.Clear) (n : Nat) : (t.change n Cell.clear).Clear :=
  h.change n fun _ _ _ hv => by simp [Cell.clear, Cell.hasValue] at hv

theorem leave (h : t.Clear) (n : Nat) (id : TaskId) : (t.leave n id).Clear :=
  h.change n (f := fun c => c.leave id) fun _ _ _ hv => ⟨hv, Nat.sub_le _ _⟩

theorem sleep (h : t.Clear) (n : Nat) (id : TaskId) : (t.change n fun c => c.sleep id).Clear := by
  refine h.change n fun c _ _ hv => ⟨?_, Nat.le_of_eq (c.waiters_sleep id)⟩
  rwa [Cell.hasValue, c.slot_sleep] at hv

theorem withCell (h : t.Clear) (now : Nat) (key : String) : (t.withCell now key).1.Clear := by
  rcases t.withCell_cases now key with ⟨c, -, heq⟩ | ⟨-, heq⟩
  · rw [heq]
    exact h
  · rw [heq]
    refine List.forall_mem_append.mpr ⟨h, List.forall_mem_singleton.mpr fun _ => rfl⟩

/-- A task enters an empty cell. -/
theorem enter (h : t.Clear) (n : Nat) (id : TaskId)
    (hempty : ∀ c ∈ t.cells, c.id = n → c.slot = none) :
    (t.change n fun c => c.enter id).Clear :=
  h.change n fun c hc hid hv => by simp [Cell.enter, Cell.hasValue, hempty c hc hid] at hv

theorem takeReady (h : t.Clear) {key : String} (ht : t.takeReady? key = some (a, t')) :
    t'.Clear := by
  obtain ⟨c, d, -, -, -, rfl⟩ := takeReady?_eq_some ht
  split
  · exact h.remove c.id
  · exact h.clear c.id

theorem takeAwaited (h : t.Clear) {n : Nat} (ht : t.takeAwaited? n = some (a, t')) : t'.Clear := by
  obtain ⟨c, d, -, -, -, rfl⟩ := takeAwaited?_eq_some ht
  split
  · exact h.remove n
  · exact h.clear n

theorem sweep (h : t.Clear) (asOf : Int) : (t.sweep asOf).1.Clear :=
  fun c hc => h c (List.mem_of_mem_filter hc)

theorem sweepTimes (h : t.Clear) (now n : Nat) : (t.sweepTimes now n).1.Clear := by
  induction n generalizing t with
  | zero => exact h
  | succ n ih => exact ih (h.sweep now)

end Clear

section SweepTimes

variable (now n : Nat)

theorem ended_sweepTimes (t : Table α) : (t.sweepTimes now n).1.stats.ended = t.stats.ended := by
  induction n generalizing t with
  | zero => rfl
  | succ n ih => exact ih _

theorem removals_sweep {t : Table α} {reports : List Removals}
    (h : t.stats.removals = .sum reports) (asOf : Int) :
    (t.sweep asOf).1.stats.removals = .sum (reports ++ [(t.sweep asOf).2]) := by
  obtain ⟨hexpired, hunused⟩ := Removals.mk.inj h
  rw [Removals.sum, List.map_append, List.map_append, List.sum_append, List.sum_append,
    ← hexpired, ← hunused]
  rfl

theorem removals_sweepTimes {t : Table α} {reports : List Removals}
    (h : t.stats.removals = .sum reports) :
    (t.sweepTimes now n).1.stats.removals = .sum (reports ++ (t.sweepTimes now n).2) := by
  induction n generalizing t reports with
  | zero => rwa [sweepTimes, List.append_nil]
  | succ n ih =>
    have hrest := ih (removals_sweep h now)
    rwa [List.append_assoc, List.singleton_append] at hrest

end SweepTimes

end Table

theorem Removals.sum_perm {reports reports' : List Removals} (h : reports.Perm reports') :
    sum reports = sum reports' := by
  rw [sum, sum, (h.map expired).sum_nat, (h.map unused).sum_nat]

end EbmsMessaging.Correlation
