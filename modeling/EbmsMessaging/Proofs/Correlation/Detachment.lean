import EbmsMessaging.Proofs.Correlation.Evolution

/-!
# Tasks cut off from their key

A sweep removes a cell for the age of its value, even when tasks wait there that were called for
that value and have not come yet. Those tasks keep the cell, but later values of the key go past
them. This is the only way to lose touch with a key. All other tasks wait at the cell in reach of
their key, which counts them.
-/
namespace EbmsMessaging.Correlation.WaitingRoom

variable {α : Type}

/-- A sweep takes a cell away from tasks that wait there. -/
def CutsOff (w : WaitingRoom α) (m : Move α) (n : Nat) : Prop :=
  ∃ asOf, w.SweepsAsOf m asOf ∧ ∃ c ∈ w.shared.table.cells,
    c.id = n ∧ c.isExpired w.shared.table.retention asOf = true ∧ c.waiters ≠ 0

/-- Some sweep of a run took a cell away from tasks that waited there. -/
def SweptAway (p : Retention) (moves : List (Move α)) (n : Nat) : Prop :=
  Occurs p moves fun w m => w.CutsOff m n

theorem sweptAway_append {p : Retention} {moves : List (Move α)} {m : Move α} {n : Nat} :
    SweptAway p (moves ++ [m]) n ↔ SweptAway p moves n ∨ (after p moves).CutsOff m n :=
  occurs_append

/-- The cells set aside are those that were swept away, and none of these is in reach again. -/
structure Separated (p : Retention) (moves : List (Move α)) : Prop where
  aside : ∀ c ∈ (after p moves).shared.table.aside, SweptAway p moves c.id
  gone : ∀ n, SweptAway p moves n → n < (after p moves).shared.table.nextId ∧
    ∀ c ∈ (after p moves).shared.table.cells, c.id ≠ n

/-- A sweep sets aside what it takes away from tasks. -/
theorem Separated.append_sweep {p : Retention} {moves : List (Move α)} (h : Separated p moves)
    {m : Move α} {asOf : Int} (hs : (after p moves).SweepsAsOf m asOf) :
    Separated p (moves ++ [m]) := by
  have hswept := sweptFrom_move hs
  have hhosts := (orderly_after p moves).hosts
  constructor
  · intro c hc
    rw [after_append] at hc
    rw [sweptAway_append]
    rcases (hswept.mem_aside c).mp hc with hc | ⟨hc, hx, hw⟩
    · exact .inl (h.aside c hc)
    · exact .inr ⟨asOf, hs, c, hc, rfl, hx, hw⟩
  · intro n hn
    rw [after_append, hswept.nextId_eq]
    rcases sweptAway_append.mp hn with hn | ⟨asOf', hs', c, hc, rfl, hx, -⟩
    · exact ⟨(h.gone n hn).1, fun c hc => (h.gone n hn).2 c ((hswept.mem_cells c).mp hc).1⟩
    · obtain rfl := hs.unique hs'
      have hknown := Table.mem_known_of_mem_cells hc
      refine ⟨hhosts.id_lt c hknown, fun d hd hid => ?_⟩
      obtain ⟨hd, hfresh, -⟩ := (hswept.mem_cells d).mp hd
      rw [hhosts.eq_of_id (Table.mem_known_of_mem_cells hd) hknown hid, hx] at hfresh
      exact Bool.noConfusion hfresh

theorem Separated.append_other {p : Retention} {moves : List (Move α)} (h : Separated p moves)
    {m : Move α} (hs : ∀ asOf, ¬(after p moves).SweepsAsOf m asOf) :
    Separated p (moves ++ [m]) := by
  have hnext := succeeds_move (orderly_after p moves) hs
  have hsame (n : Nat) : SweptAway p (moves ++ [m]) n ↔ SweptAway p moves n :=
    sweptAway_append.trans (or_iff_left fun ⟨asOf, hasOf, _⟩ => hs asOf hasOf)
  constructor
  · intro c' hc'
    rw [after_append] at hc'
    obtain ⟨c, hc, hstem⟩ := hnext.aside c' hc'
    rw [hsame, hstem.id_eq]
    exact h.aside c hc
  · intro n hn
    obtain ⟨hlt, hgone⟩ := h.gone n ((hsame n).mp hn)
    rw [after_append]
    refine ⟨Nat.lt_of_lt_of_le hlt hnext.nextId_le, fun c' hc' => ?_⟩
    rcases hnext.cells c' hc' with hid | ⟨c, hc, hid⟩
    · exact Nat.ne_of_gt (Nat.lt_of_lt_of_le hlt hid)
    · rw [hid]
      exact hgone c hc

theorem separated (p : Retention) (moves : List (Move α)) : Separated p moves := by
  induction moves using List.reverseRecOn with
  | nil =>
    constructor
    · intro c hc
      simp [start, Scheduler.start, Table.empty] at hc
    · intro n hn
      exact absurd hn (not_occurs_nil p _)
  | append_singleton moves m ih =>
    by_cases hs : ∃ asOf, (after p moves).SweepsAsOf m asOf
    · obtain ⟨asOf, hs⟩ := hs
      exact ih.append_sweep hs
    · exact ih.append_other (not_exists.mp hs)

/-- The tasks that a sweep cuts off were called for the value that it removes. -/
theorem called_of_cutsOff {w : WaitingRoom α} {orders : List RoomTask} (hw : w.Orderly orders)
    {m : Move α} {n : Nat} (h : w.CutsOff m n) :
    (∃ e ∈ w.crowd, e.2.cell = n) ∧ ∀ e ∈ w.crowd, e.2.cell = n → e.1 ∈ w.queue := by
  obtain ⟨asOf, -, c, hc, rfl, hx, hwaiters⟩ := h
  have hknown := Table.mem_known_of_mem_cells hc
  have hvalue : c.hasValue = true := by
    cases hslot : c.slot with
    | none => simp [Cell.isExpired, hslot] at hx
    | some d => simp [Cell.hasValue, hslot]
  constructor
  · rw [hw.hosts.waiters_eq c hknown] at hwaiters
    obtain ⟨e, he, hcell⟩ := List.countP_pos_iff.mp (Nat.pos_of_ne_zero hwaiters)
    exact ⟨e, he, by simpa using hcell⟩
  · intro e he hcell
    obtain ⟨d, hd, hid, -, hs⟩ := hw.hosts.placed e he
    obtain rfl := hw.hosts.eq_of_id hd hknown (hid.trans hcell)
    rw [hw.hosts.awake d hd hvalue] at hs
    exact hs.resolve_left List.not_mem_nil

/-- Whoever sweeps only when no waiting task is called cuts nobody off. -/
theorem not_sweptAway_of_quiet {p : Retention} {moves : List (Move α)}
    (h : ¬Occurs p moves fun w m => (∃ asOf, w.SweepsAsOf m asOf) ∧ ∃ e ∈ w.crowd, e.1 ∈ w.queue)
    (n : Nat) : ¬SweptAway p moves n := by
  rintro ⟨before, m, hp, hcut⟩
  obtain ⟨⟨e, he, hcell⟩, hcalled⟩ := called_of_cutsOff (orderly_after p before) hcut
  obtain ⟨asOf, hs, -⟩ := hcut
  exact h ⟨before, m, hp, ⟨asOf, hs⟩, e, he, hcalled e he hcell⟩

/-- A task has its cell; and it is the one in reach of its key if no sweep took it away. -/
theorem find?_key_iff {p : Retention} {moves : List (Move α)} {e : TaskId × Wait}
    (he : e ∈ (after p moves).crowd) : ∃ c, (after p moves).shared.table.cell? e.2.cell = some c ∧
      c.key = e.2.key ∧ (e.1 ∈ c.sleepers ∨ e.1 ∈ (after p moves).queue) ∧
      ((after p moves).shared.table.find? e.2.key = some c ↔ ¬SweptAway p moves e.2.cell) := by
  have hhosts := (orderly_after p moves).hosts
  have hsep := separated p moves
  obtain ⟨c, hc, hid, hkey, hs⟩ := hhosts.placed e he
  refine ⟨c, hhosts.cell?_eq_some_iff.mpr ⟨hc, hid⟩, hkey, hs, ?_⟩
  rw [hhosts.find?_eq_some_iff, and_iff_left hkey, ← hid]
  constructor
  · intro hcells hgone
    exact (hsep.gone c.id hgone).2 c hcells rfl
  · intro hreach
    exact (List.mem_append.mp hc).resolve_right fun haside => hreach (hsep.aside c haside)

/-- The tasks at the cell in reach of a key are those of the key that no sweep cut off. -/
theorem cell_eq_iff {p : Retention} {moves : List (Move α)} {key : String} {c : Cell α}
    (hc : (after p moves).shared.table.find? key = some c) {e : TaskId × Wait}
    (he : e ∈ (after p moves).crowd) :
    e.2.cell = c.id ↔ e.2.key = key ∧ ¬SweptAway p moves e.2.cell := by
  have hhosts := (orderly_after p moves).hosts
  obtain ⟨d, hd, hkey, -, hreach⟩ := find?_key_iff he
  obtain ⟨hmem, hckey⟩ := hhosts.find?_eq_some_iff.mp hc
  constructor
  · intro hcell
    rw [hcell, hhosts.cell?_eq_some_iff.mpr ⟨Table.mem_known_of_mem_cells hmem, rfl⟩,
      Option.some.injEq] at hd
    subst hd
    have hk : e.2.key = key := hkey.symm.trans hckey
    exact ⟨hk, hreach.mp (by rw [hk, hc])⟩
  · rintro ⟨rfl, hn⟩
    rw [hreach.mpr hn, Option.some.injEq] at hc
    rw [← hc]
    exact (Table.cell?_eq_some hd).2.symm

theorem waiters_pos_iff {p : Retention} {moves : List (Move α)} {key : String} {c : Cell α}
    (hc : (after p moves).shared.table.find? key = some c) : 0 < c.waiters ↔
      ∃ e ∈ (after p moves).crowd, e.2.key = key ∧ ¬SweptAway p moves e.2.cell := by
  have hmem := Table.mem_known_of_mem_cells (Table.find?_eq_some hc).1
  rw [(orderly_after p moves).hosts.waiters_eq c hmem, Crowd.countAt, List.countP_pos_iff]
  refine exists_congr fun e => and_congr_right fun he => ?_
  rw [decide_eq_true_iff]
  exact cell_eq_iff hc he

/-- The cell in reach of a key counts all tasks of the key unless some were cut off. -/
theorem waiters_eq_iff {p : Retention} {moves : List (Move α)} {key : String} {c : Cell α}
    (hc : (after p moves).shared.table.find? key = some c) :
    c.waiters = ((after p moves).crowd.countP fun e => e.2.key = key) ↔
      ∀ e ∈ (after p moves).crowd, e.2.key = key → ¬SweptAway p moves e.2.cell := by
  have hmem := Table.mem_known_of_mem_cells (Table.find?_eq_some hc).1
  have hat : ∀ e ∈ (after p moves).crowd,
      (e.2.cell = c.id ↔ e.2.key = key ∧ ¬SweptAway p moves e.2.cell) := fun e => cell_eq_iff hc
  have hsplit := List.countP_eq_countP_filter_add (after p moves).crowd
    (fun e => decide (e.2.key = key)) fun e => decide (e.2.cell = c.id)
  simp only [List.countP_filter] at hsplit
  have hfirst : ((after p moves).crowd.countP fun e =>
      decide (e.2.key = key) && decide (e.2.cell = c.id)) = c.waiters := by
    rw [(orderly_after p moves).hosts.waiters_eq c hmem, Crowd.countAt]
    refine List.countP_congr fun e he => ?_
    simp only [Bool.and_eq_true, decide_eq_true_eq]
    exact and_iff_right_of_imp fun hcell => ((hat e he).mp hcell).1
  rw [hsplit, hfirst, Nat.left_eq_add, List.countP_eq_zero]
  refine forall₂_congr fun e he => ?_
  simp only [Bool.and_eq_true, Bool.not_eq_true', decide_eq_true_eq, decide_eq_false_iff_not]
  rw [hat e he, not_and, not_not]
  exact forall_congr' fun hkey => and_iff_right hkey

/-! ## What a deposit reaches -/

theorem fst_deposit_eq_decide (w : WaitingRoom α) (key : String) (a : α) :
    (w.deposit key a).1 = decide (0 < (w.shared.table.withCell w.now key).2.waiters) := rfl

theorem queue_deposit (w : WaitingRoom α) (key : String) (a : α) : (w.deposit key a).2.queue =
    Scheduler.enqueue w.queue (w.shared.table.withCell w.now key).2.sleepers := by
  simp only [deposit, Scheduler.change, Scheduler.callAll_eq]
  rfl

theorem deposit_waited_iff {p : Retention} {moves : List (Move α)} {key : String} {a : α} :
    ((after p moves).deposit key a).1 = true ↔
      ∃ e ∈ (after p moves).crowd, e.2.key = key ∧ ¬SweptAway p moves e.2.cell := by
  rw [fst_deposit_eq_decide, decide_eq_true_iff]
  rcases (after p moves).shared.table.withCell_cases (after p moves).now key with
    ⟨c, hc, heq⟩ | ⟨hnone, heq⟩
  · rw [heq]
    exact waiters_pos_iff hc
  · rw [heq]
    refine iff_of_false (Nat.lt_irrefl 0) ?_
    rintro ⟨e, he, rfl, hn⟩
    obtain ⟨c, -, -, -, hreach⟩ := find?_key_iff he
    simp [hnone] at hreach
    exact hn hreach

theorem mem_queue_deposit {p : Retention} {moves : List (Move α)} {e : TaskId × Wait}
    (he : e ∈ (after p moves).crowd) (hn : ¬SweptAway p moves e.2.cell) (a : α) :
    e.1 ∈ ((after p moves).deposit e.2.key a).2.queue := by
  obtain ⟨c, -, -, hs, hreach⟩ := find?_key_iff he
  rcases (after p moves).shared.table.withCell_cases (after p moves).now e.2.key with
    ⟨d, hd, heq⟩ | ⟨hnone, heq⟩
  · rw [queue_deposit, Scheduler.mem_enqueue, heq]
    rw [hreach.mpr hn, Option.some.injEq] at hd
    subst hd
    exact hs.symm
  · rw [hreach.mpr hn] at hnone
    simp at hnone

/-- Every waiting task keeps its cell, which either calls it for the next value or has called it. It
stays at the cell in reach of its key, is counted there and hears of the next value, exactly if no
sweep came between its call for a value and its turn and took this value away for its age. -/
theorem attached_iff_not_sweptAway (p : Retention) (moves : List (Move α)) :
    (∀ e ∈ (after p moves).crowd, ∃ c,
      (after p moves).shared.table.cell? e.2.cell = some c ∧ c.key = e.2.key ∧
      (e.1 ∈ c.sleepers ∨ e.1 ∈ (after p moves).queue) ∧
      ((after p moves).shared.table.find? e.2.key = some c ↔ ¬SweptAway p moves e.2.cell)) ∧
    (∀ key c, (after p moves).shared.table.find? key = some c →
      c.waiters = (after p moves).crowd.countAt c.id ∧
      (c.waiters = ((after p moves).crowd.countP fun e => e.2.key = key) ↔
        ∀ e ∈ (after p moves).crowd, e.2.key = key → ¬SweptAway p moves e.2.cell)) ∧
    (∀ key a, ((after p moves).deposit key a).1 = true ↔
      ∃ e ∈ (after p moves).crowd, e.2.key = key ∧ ¬SweptAway p moves e.2.cell) ∧
    (∀ a, ∀ e ∈ (after p moves).crowd, ¬SweptAway p moves e.2.cell →
      e.1 ∈ ((after p moves).deposit e.2.key a).2.queue) ∧
    ∀ n, SweptAway p moves n → Occurs p moves fun w m => w.CutsOff m n ∧
      ∀ e ∈ w.crowd, e.2.cell = n → e.1 ∈ w.queue := by
  refine ⟨fun e he => find?_key_iff he, fun key c hc => ⟨?_, waiters_eq_iff hc⟩,
    fun key a => deposit_waited_iff, fun a e he hn => mem_queue_deposit he hn a, ?_⟩
  · exact (orderly_after p moves).hosts.waiters_eq c
      (Table.mem_known_of_mem_cells (Table.find?_eq_some hc).1)
  · rintro n ⟨before, m, hp, hcut⟩
    exact ⟨before, m, hp, hcut, (called_of_cutsOff (orderly_after p before) hcut).2⟩

/-- Two tasks wait for one key and are called for its value. A sweep removes the cell for the age of
that value. The first task takes the value from the cell set aside; the second one waits there for
ever, and the next value of the key finds nobody. -/
theorem not_attached_after_sweep :
    let w := after ⟨10, none⟩ [.fetch "k" 0, .fetch "k" 0, .turn 0, .turn 1, .deposit "k" 1,
      .sweep 11, .turn 0, .turn 1]
    w.crowd = [(1, ⟨"k", 0, 0, none⟩)] ∧ w.queue = [] ∧ w.shared.table.find? "k" = none ∧
      (w.deposit "k" 2).1 = false ∧ (w.deposit "k" 2).2.queue = [] := by
  decide

end EbmsMessaging.Correlation.WaitingRoom
