import EbmsMessaging.Proofs.Correlation.Balance

/-!
# Sweeps one after the other

What is stale at an instant is stale at every later one, and a sweep leaves the rest as it is. So a sweep
finds what an earlier one left of what it would have found without it, and two sweeps remove and report
together what the later one would have alone. The second of two sweeps as of one instant finds nothing.
-/
namespace EbmsMessaging.Correlation

variable {α : Type}

/-- If `q` holds wherever `p` does, and of what satisfies `q` all but what satisfies `p` is kept, then
the former and what is kept of the latter make up the latter. -/
theorem filter_append_filter_perm {p q kept : α → Prop} [DecidablePred p]
    [DecidablePred q] [DecidablePred kept] (hpq : ∀ x, p x → q x)
    (hkept : ∀ x, q x → (kept x ↔ ¬p x)) (xs : List α) :
    (xs.filter (p ·) ++ (xs.filter (kept ·)).filter (q ·)).Perm (xs.filter (q ·)) := by
  have hfirst : xs.filter (p ·) = (xs.filter (q ·)).filter (p ·) := by
    rw [List.filter_filter]
    refine List.filter_congr fun x _ => ?_
    simpa using hpq x
  have hsecond : (xs.filter (kept ·)).filter (q ·) = (xs.filter (q ·)).filter (¬p ·) := by
    rw [List.filter_filter, List.filter_filter]
    refine List.filter_congr fun x _ => ?_
    have := hkept x
    grind
  rw [hfirst, hsecond]
  simpa only [decide_not] using List.filter_append_perm (p ·) (xs.filter (q ·))

namespace Cell

variable {p : Retention} {asOf later : Int} {c : Cell α}

/-- An instant before the time counts as no age. -/
theorem cast_age (asOf : Int) (time : Nat) : (age asOf time : Int) = max 0 (asOf - time) := by
  unfold age
  omega

theorem age_mono (h : asOf ≤ later) (time : Nat) : age asOf time ≤ age later time := by
  unfold age
  omega

/-- It holds a value that is too old. -/
def Expired (p : Retention) (asOf : Int) (c : Cell α) : Prop :=
  ∃ d, c.slot = some d ∧ p.valueLimit < age asOf d.time

/-- It is empty, nobody waits at it, and it is too old, if there is a limit. -/
def Unused (p : Retention) (asOf : Int) (c : Cell α) : Prop :=
  c.slot = none ∧ c.waiters = 0 ∧ ∃ limit, p.emptyLimit = some limit ∧ limit < age asOf c.createdAt

theorem isExpired_iff : c.isExpired p asOf = true ↔ c.Expired p asOf := by
  unfold isExpired Expired
  cases c.slot <;> simp

theorem isUnused_iff : c.isUnused p asOf = true ↔ c.Unused p asOf := by
  unfold isUnused Unused
  cases c.slot <;> cases p.emptyLimit <;> simp [and_comm]

instance (p : Retention) (asOf : Int) (c : Cell α) : Decidable (c.Expired p asOf) :=
  decidable_of_iff _ isExpired_iff

instance (p : Retention) (asOf : Int) (c : Cell α) : Decidable (c.Unused p asOf) :=
  decidable_of_iff _ isUnused_iff

theorem Expired.not_unused (h : c.Expired p asOf) (later : Int) : ¬c.Unused p later := by
  obtain ⟨d, hslot, -⟩ := h
  rintro ⟨hempty, -, -⟩
  simp [hslot] at hempty

theorem Expired.mono (h : c.Expired p asOf) (hle : asOf ≤ later) : c.Expired p later := by
  obtain ⟨d, hslot, hage⟩ := h
  exact ⟨d, hslot, Nat.lt_of_lt_of_le hage (age_mono hle d.time)⟩

theorem Unused.mono (h : c.Unused p asOf) (hle : asOf ≤ later) : c.Unused p later := by
  obtain ⟨hslot, hwaiters, limit, hlimit, hage⟩ := h
  exact ⟨hslot, hwaiters, limit, hlimit, Nat.lt_of_lt_of_le hage (age_mono hle c.createdAt)⟩

end Cell

namespace Table

/-! ## What one sweep does -/

theorem cells_sweep (t : Table α) (asOf : Int) : (t.sweep asOf).1.cells =
    t.cells.filter fun c => ¬c.Expired t.retention asOf ∧ ¬c.Unused t.retention asOf := by
  refine List.filter_congr fun c _ => ?_
  rw [Bool.eq_iff_iff, decide_eq_true_iff, ← Cell.isExpired_iff, ← Cell.isUnused_iff]
  simp

theorem aside_sweep (t : Table α) (asOf : Int) : (t.sweep asOf).1.aside =
    t.aside ++ t.cells.filter fun c => c.Expired t.retention asOf ∧ c.waiters ≠ 0 := by
  simp only [sweep, List.filter_filter]
  congr 1
  refine List.filter_congr fun c _ => ?_
  rw [Bool.eq_iff_iff, decide_eq_true_iff, ← Cell.isExpired_iff]
  simp [and_comm]

theorem report_sweep (t : Table α) (asOf : Int) : (t.sweep asOf).2 =
    ⟨t.cells.countP fun c => c.Expired t.retention asOf,
      t.cells.countP fun c => c.Unused t.retention asOf⟩ := by
  simp only [sweep, ← List.countP_eq_length_filter]
  congr 1 <;>
    exact List.countP_congr fun c _ => by simp [Cell.isExpired_iff, Cell.isUnused_iff]

/-! ## A sweep after a sweep -/

/-- No cell is stale. -/
def Clean (t : Table α) (asOf : Int) : Prop :=
  ∀ c ∈ t.cells, ¬c.Expired t.retention asOf ∧ ¬c.Unused t.retention asOf

theorem clean_sweep (t : Table α) (asOf : Int) : (t.sweep asOf).1.Clean asOf := by
  intro c hc
  rw [cells_sweep] at hc
  exact of_decide_eq_true (List.mem_filter.mp hc).2

theorem Clean.sweep_eq {t : Table α} {asOf : Int} (h : t.Clean asOf) :
    t.sweep asOf = (t, ⟨0, 0⟩) := by
  have hexpired : t.cells.filter (Cell.isExpired t.retention asOf) = [] :=
    List.filter_eq_nil_iff.mpr fun c hc => mt Cell.isExpired_iff.mp (h c hc).1
  have hunused : t.cells.filter (Cell.isUnused t.retention asOf) = [] :=
    List.filter_eq_nil_iff.mpr fun c hc => mt Cell.isUnused_iff.mp (h c hc).2
  have hkept : (t.cells.filter fun c =>
      !c.isExpired t.retention asOf && !c.isUnused t.retention asOf) = t.cells := by
    refine List.filter_eq_self.mpr fun c hc => ?_
    have hc := h c hc
    rw [← Cell.isExpired_iff, ← Cell.isUnused_iff] at hc
    simpa using hc
  simp only [sweep, hexpired, hunused, hkept, List.filter_nil, List.append_nil, List.length_nil,
    Nat.add_zero]

section Later

variable (t : Table α) {asOf later : Int}

theorem cells_sweep_sweep (h : asOf ≤ later) :
    ((t.sweep asOf).1.sweep later).1.cells = (t.sweep later).1.cells := by
  have hretention : (t.sweep asOf).1.retention = t.retention := rfl
  rw [cells_sweep, cells_sweep, cells_sweep, List.filter_filter, hretention]
  refine List.filter_congr fun c _ => ?_
  have hexpired : c.Expired t.retention asOf → c.Expired t.retention later := fun hc => hc.mono h
  have hunused : c.Unused t.retention asOf → c.Unused t.retention later := fun hc => hc.mono h
  grind

theorem expired_sweep_sweep (h : asOf ≤ later) :
    (t.cells.filter (fun c => c.Expired t.retention asOf) ++
      (t.sweep asOf).1.cells.filter fun c => c.Expired t.retention later).Perm
    (t.cells.filter fun c => c.Expired t.retention later) := by
  rw [cells_sweep]
  refine filter_append_filter_perm (fun c hc => hc.mono h) (fun c hc => ?_) t.cells
  exact and_iff_left (hc.not_unused asOf)

theorem unused_sweep_sweep (h : asOf ≤ later) :
    (t.cells.filter (fun c => c.Unused t.retention asOf) ++
      (t.sweep asOf).1.cells.filter fun c => c.Unused t.retention later).Perm
    (t.cells.filter fun c => c.Unused t.retention later) := by
  rw [cells_sweep]
  refine filter_append_filter_perm (fun c hc => hc.mono h) (fun c hc => ?_) t.cells
  exact and_iff_right fun hexpired => hexpired.not_unused later hc

/-- Which cells are set aside does not depend on the sweep between, only in which order. -/
theorem aside_sweep_sweep (h : asOf ≤ later) :
    ((t.sweep asOf).1.sweep later).1.aside.Perm (t.sweep later).1.aside := by
  have hretention : (t.sweep asOf).1.retention = t.retention := rfl
  have hwaited := (expired_sweep_sweep t h).filter fun c => c.waiters ≠ 0
  rw [aside_sweep, aside_sweep, aside_sweep, hretention, List.append_assoc]
  refine List.Perm.append_left t.aside ?_
  simpa only [List.filter_append, List.filter_filter, Bool.decide_and, Bool.and_comm] using hwaited

theorem reports_sweep_sweep (h : asOf ≤ later) :
    .sum [(t.sweep asOf).2, ((t.sweep asOf).1.sweep later).2] = (t.sweep later).2 := by
  have hretention : (t.sweep asOf).1.retention = t.retention := rfl
  rw [report_sweep, report_sweep, report_sweep, hretention]
  simp only [Removals.sum, List.map_cons, List.map_nil, List.sum_cons, List.sum_nil, Nat.add_zero,
    List.countP_eq_length_filter, ← List.length_append]
  rw [(expired_sweep_sweep t h).length_eq, (unused_sweep_sweep t h).length_eq]

/-- A sweep removes the values that are too old and the empty cells that nobody needs, counts both and
leaves the rest as it is. What is left for a later sweep is what that one would have found by itself, and
nothing is left for the same instant. -/
theorem sweeps_compose (h : asOf ≤ later) :
    (∀ time, (Cell.age asOf time : Int) = max 0 (asOf - time)) ∧
    (t.sweep asOf).1.cells =
      (t.cells.filter fun c => ¬c.Expired t.retention asOf ∧ ¬c.Unused t.retention asOf) ∧
    (t.sweep asOf).2 = ⟨t.cells.countP fun c => c.Expired t.retention asOf,
      t.cells.countP fun c => c.Unused t.retention asOf⟩ ∧
    ((t.sweep asOf).1.sweep later).1.cells = (t.sweep later).1.cells ∧
    ((t.sweep asOf).1.sweep later).1.aside.Perm (t.sweep later).1.aside ∧
    .sum [(t.sweep asOf).2, ((t.sweep asOf).1.sweep later).2] = (t.sweep later).2 ∧
    (t.sweep asOf).1.sweep asOf = ((t.sweep asOf).1, ⟨0, 0⟩) :=
  ⟨Cell.cast_age asOf, cells_sweep t asOf, report_sweep t asOf, cells_sweep_sweep t h,
    aside_sweep_sweep t h, reports_sweep_sweep t h, (clean_sweep t asOf).sweep_eq⟩

end Later

/-- A value that a called task did not come for yet, an empty cell, an empty one at which a task sleeps,
and a value that comes after the first sweep. -/
def crowded : Table String where
  retention := ⟨40, some 40⟩
  cells := [⟨0, "a", some ⟨"x", 10⟩, 10, 1, []⟩, ⟨1, "b", none, 50, 0, []⟩, ⟨2, "c", none, 0, 1, [4]⟩,
    ⟨3, "d", some ⟨"y", 80⟩, 0, 0, []⟩]
  aside := []
  nextId := 4
  stats := .zero

theorem crowded_swept_twice :
    (60 : Int) ≤ 100 ∧
    ((crowded.sweep 60).1.sweep 100).1.cells =
      [⟨2, "c", none, 0, 1, [4]⟩, ⟨3, "d", some ⟨"y", 80⟩, 0, 0, []⟩] ∧
    .sum [(crowded.sweep 60).2, ((crowded.sweep 60).1.sweep 100).2] = (⟨1, 1⟩ : Removals) := by
  have hle : (60 : Int) ≤ 100 := by decide
  obtain ⟨-, -, -, hcells, -, hreports, -⟩ := crowded.sweeps_compose hle
  rw [hcells, hreports]
  exact ⟨hle, by decide, by decide⟩

end Table
end EbmsMessaging.Correlation
