import EbmsMessaging.Text.Split
import Mathlib.Data.List.Infix

/-!
# Where a sequence is cut

A sequence is cut at the first occurrence of a separator. A separator whose first element does not
come again in it cannot straddle the end of what stands before it, so it is found right there unless
it occurs earlier. Nor can a sequence straddle an element that it does not hold.
-/
namespace EbmsMessaging.Text

variable {α : Type}

/-- What holds an element is found on one side of another element that it does not hold. -/
theorem infix_append_cons {l xs ys : List α} {x : α} (hx : x ∉ l) :
    l <:+: xs ++ x :: ys ↔ l <:+: xs ∨ l <:+: ys := by
  constructor
  · rintro ⟨u, v, h⟩
    rw [List.append_assoc] at h
    rcases List.append_eq_append_iff.mp h with ⟨w, rfl, hw⟩ | ⟨w, rfl, hw⟩
    · rcases List.append_eq_append_iff.mp hw with ⟨z, rfl, -⟩ | ⟨z, hz, hv⟩
      · exact .inl ⟨u, z, by simp⟩
      · cases z with
        | nil => exact .inl ⟨u, [], by simp [hz]⟩
        | cons z zs =>
          obtain ⟨rfl, -⟩ := List.cons.inj hv
          exact absurd (by simp [hz]) hx
    · cases w with
      | nil =>
        cases l with
        | nil => exact .inl List.nil_infix
        | cons z zs =>
          obtain ⟨rfl, -⟩ := List.cons.inj hw
          exact absurd List.mem_cons_self hx
      | cons z zs =>
        obtain ⟨-, rfl⟩ := List.cons.inj hw
        exact .inr ⟨zs, v, by simp⟩
  · rintro (h | h)
    · exact h.trans (List.prefix_append _ _).isInfix
    · exact h.trans ((List.suffix_cons x ys).trans (List.suffix_append xs _)).isInfix

/-- What shares no element with the beginning is found behind it. -/
theorem infix_of_infix_append {l xs ys : List α} (hxs : ∀ x ∈ xs, x ∉ l) (h : l <:+: xs ++ ys) :
    l <:+: ys := by
  induction xs with
  | nil => exact h
  | cons x xs ih =>
    obtain ⟨hx, hxs⟩ := List.forall_mem_cons.mp hxs
    rcases List.infix_cons_iff.mp h with hp | h
    · cases l with
      | nil => exact List.nil_infix
      | cons z l =>
        obtain ⟨rfl, -⟩ := List.cons_prefix_cons.mp hp
        exact absurd List.mem_cons_self hx
    · exact ih hxs h

section Cut

variable [BEq α] [LawfulBEq α] {sep before after cs ds : List α}

omit [LawfulBEq α] in
theorem cutFrom_eq (passed : List α) : cutFrom sep passed cs =
    (cut sep cs).map fun r => (passed.reverse ++ r.1, r.2) := by
  induction cs generalizing passed with
  | nil =>
    unfold cut cutFrom
    split <;> simp
  | cons c cs ih =>
    rw [cut, cutFrom, cutFrom]
    split
    · simp
    · rw [ih, ih [c], Option.map_map]
      congr 1
      funext r
      simp

omit [LawfulBEq α] in
theorem cut_cons (c : α) (cs : List α) : cut sep (c :: cs) =
    if sep.isPrefixOf (c :: cs) then some ([], (c :: cs).drop sep.length)
    else (cut sep cs).map fun r => (c :: r.1, r.2) := by
  rw [cut, cutFrom, cutFrom_eq]
  simp

/-- The rest behind a separator at the very beginning. -/
theorem cut_append_self (sep after : List α) : cut sep (sep ++ after) = some ([], after) := by
  cases h : sep ++ after with
  | nil =>
    obtain ⟨rfl, rfl⟩ := List.append_eq_nil_iff.mp h
    rfl
  | cons c cs =>
    have hprefix : sep.isPrefixOf (sep ++ after) := by simp
    rw [cut_cons, ← h, if_pos hprefix, List.drop_left]

theorem cut_eq_none : cut sep cs = none ↔ ¬sep <:+: cs := by
  induction cs with
  | nil => simp [cut, cutFrom, List.infix_nil]
  | cons c cs ih =>
    rw [cut_cons, List.infix_cons_iff]
    by_cases h : sep <+: c :: cs
    · simp [h]
    · simp [h, ih]

/-- What comes behind the first occurrence does not matter. -/
theorem cut_append (h : cut sep cs = some (before, after)) (ds : List α) :
    cut sep (cs ++ ds) = some (before, after ++ ds) := by
  induction cs generalizing before with
  | nil =>
    obtain ⟨rfl, rfl, rfl⟩ : sep = [] ∧ before = [] ∧ after = [] := by
      unfold cut cutFrom at h
      split at h <;> simp_all
    exact cut_append_self [] ds
  | cons c cs ih =>
    rw [cut_cons] at h
    rw [List.cons_append, cut_cons]
    by_cases hp : sep <+: c :: cs
    · obtain ⟨rest, hrest⟩ := hp
      rw [← hrest] at h
      rw [← List.cons_append, ← hrest]
      simpa using h
    · have hlater : ¬sep.isPrefixOf (c :: cs) := by simpa using hp
      rw [if_neg hlater] at h
      obtain ⟨⟨b, a⟩, hcut, heq⟩ := Option.map_eq_some_iff.mp h
      simp only [Prod.mk.injEq] at heq
      obtain ⟨rfl, rfl⟩ := heq
      -- The separator is no longer than what stands before the end of its first occurrence.
      have hlen : sep.length ≤ (c :: cs).length := by
        have := congrArg List.length (eq_of_cut hcut)
        simp only [List.length_append, List.length_cons] at this ⊢
        omega
      have hearlier : ¬sep.isPrefixOf (c :: (cs ++ ds)) := by
        intro hp'
        rw [List.isPrefixOf_iff_prefix, ← List.cons_append] at hp'
        exact hp (List.prefix_of_prefix_length_le hp' (List.prefix_append _ _) hlen)
      rw [if_neg hearlier, ih hcut]
      rfl

/-- A separator does not occur in what stands before its first occurrence. -/
theorem not_infix_of_cut (hsep : sep ≠ []) (h : cut sep cs = some (before, after)) :
    ¬sep <:+: before := by
  intro hoccurs
  cases hcut : cut sep before with
  | none => exact cut_eq_none.mp hcut hoccurs
  | some r =>
    have hearlier := cut_append hcut (sep ++ after)
    rw [← List.append_assoc, ← eq_of_cut h, h, Option.some.injEq, Prod.mk.injEq] at hearlier
    have := congrArg List.length hearlier.2
    have := List.length_pos_iff.mpr hsep
    simp only [List.length_append] at *
    omega

/-- A separator is found at its first occurrence. -/
theorem cut_of_first (h : ∀ u v, before = u ++ v → v ≠ [] → ¬sep <+: v ++ sep ++ after) :
    cut sep (before ++ sep ++ after) = some (before, after) := by
  induction before with
  | nil => exact cut_append_self sep after
  | cons b before ih =>
    have hhere : ¬sep.isPrefixOf (b :: (before ++ sep ++ after)) := by
      simpa using h [] (b :: before) rfl (by simp)
    have hlater := ih fun u v heq hv => h (b :: u) v (by rw [heq, List.cons_append]) hv
    rw [List.cons_append, List.cons_append, cut_cons, if_neg hhere, hlater]
    rfl

/-- A separator whose first element does not come again in it is found right behind whatever does
not hold it. -/
theorem cut_of_not_infix {c : α} {s : List α} (hc : c ∉ s) (h : ¬c :: s <:+: before) :
    cut (c :: s) (before ++ c :: s ++ after) = some (before, after) := by
  refine cut_of_first fun u v heq hv hp => h ?_
  obtain ⟨w, hw⟩ := hp
  rw [List.append_assoc] at hw
  rcases List.append_eq_append_iff.mp hw with ⟨z, rfl, -⟩ | ⟨z, hz, hrest⟩
  · exact ⟨u, z, by simp [heq]⟩
  · cases z with
    | nil => exact ⟨u, [], by simp [heq, hz]⟩
    | cons z zs =>
      -- Straddling the end it would begin twice.
      obtain ⟨d, ds, rfl⟩ := List.exists_cons_of_ne_nil hv
      obtain ⟨rfl, hs⟩ := List.cons.inj hz
      obtain ⟨rfl, -⟩ := List.cons.inj hrest
      exact absurd (by simp [hs]) hc

/-- The same for a separator that does not hold the last element of what stands before it. -/
theorem cut_of_getLast {x : α} (hx : x ∉ sep) (h : ¬sep <:+: before ++ [x]) :
    cut sep (before ++ [x] ++ sep ++ after) = some (before ++ [x], after) := by
  refine cut_of_first fun u v heq hv hp => h ?_
  obtain ⟨v, rfl⟩ : ∃ v', v = v' ++ [x] := by
    obtain ⟨v', y, rfl⟩ := (List.eq_nil_or_concat v).resolve_left hv
    rw [List.concat_eq_append, ← List.append_assoc] at heq
    rw [List.concat_eq_append]
    exact ⟨v', by rw [(List.append_inj' heq rfl).2]⟩
  obtain ⟨w, hw⟩ := hp
  rw [List.append_assoc, List.append_assoc] at hw
  rcases List.append_eq_append_iff.mp hw with ⟨z, rfl, -⟩ | ⟨z, rfl, hrest⟩
  · exact ⟨u, z ++ [x], by simp [heq]⟩
  · cases z with
    | nil => exact ⟨u, [x], by simp [heq]⟩
    | cons z zs =>
      obtain ⟨rfl, -⟩ := List.cons.inj hrest
      exact absurd (by simp) hx

/-- What stands behind any occurrence stands behind the first one. -/
theorem suffix_of_cut (h : cut sep (cs ++ sep ++ ds) = some (before, after)) : ds <:+ after := by
  induction cs generalizing before after with
  | nil =>
    rw [List.nil_append, cut_append_self, Option.some.injEq, Prod.mk.injEq] at h
    exact h.2 ▸ List.suffix_rfl
  | cons c cs ih =>
    rw [List.cons_append, List.cons_append, cut_cons] at h
    split at h
    · have hlen : sep.length ≤ (c :: (cs ++ sep)).length := by
        simp only [List.length_append, List.length_cons]
        omega
      rw [Option.some.injEq, Prod.mk.injEq, ← List.cons_append,
        List.drop_append_of_le_length hlen] at h
      exact h.2 ▸ List.suffix_append _ _
    · obtain ⟨⟨b, a⟩, hcut, heq⟩ := Option.map_eq_some_iff.mp h
      simp only [Prod.mk.injEq] at heq
      exact heq.2 ▸ ih hcut

end Cut

section SplitAll

variable [DecidableEq α] {sep : α} {xs ys : List α}

theorem splitAll_of_not_mem (h : sep ∉ xs) : splitAll sep xs = [xs] := by
  induction xs with
  | nil => rfl
  | cons x xs ih =>
    rw [List.mem_cons, not_or] at h
    rw [splitAll, if_neg (Ne.symm h.1), ih h.2]

theorem splitAll_append_cons (h : sep ∉ xs) :
    splitAll sep (xs ++ sep :: ys) = xs :: splitAll sep ys := by
  induction xs with
  | nil => simp [splitAll]
  | cons x xs ih =>
    rw [List.mem_cons, not_or] at h
    rw [List.cons_append, splitAll, if_neg (Ne.symm h.1), ih h.2]

end SplitAll
end EbmsMessaging.Text
