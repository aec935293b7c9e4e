/-!
# Cutting at separators

A sequence is cut at the first occurrence of a separator, or at every occurrence of one. Putting the
separator back between the pieces gives the sequence again.
-/
namespace EbmsMessaging.Text

variable {α : Type}

/-- Cuts at the first occurrence of `sep`; `before` holds what was passed so far, reversed. -/
def cutFrom [BEq α] (sep : List α) (before : List α) : List α → Option (List α × List α)
  | [] => if sep.isEmpty then some (before.reverse, []) else none
  | c :: cs =>
    if sep.isPrefixOf (c :: cs) then some (before.reverse, (c :: cs).drop sep.length)
    else cutFrom sep (c :: before) cs

/-- The part before the first occurrence of `sep` and the part after it. -/
def cut [BEq α] (sep cs : List α) : Option (List α × List α) := cutFrom sep [] cs

/-- The pieces between the elements that equal `sep`, in order; always at least one. -/
def splitAll [DecidableEq α] (sep : α) : List α → List (List α)
  | [] => [[]]
  | c :: cs =>
    if c = sep then [] :: splitAll sep cs
    else match splitAll sep cs with
      | [] => [[c]]
      | piece :: pieces => (c :: piece) :: pieces

theorem eq_of_cutFrom [BEq α] [LawfulBEq α] {sep passed cs before after : List α}
    (h : cutFrom sep passed cs = some (before, after)) :
    passed.reverse ++ cs = before ++ sep ++ after := by
  induction cs generalizing passed with
  | nil =>
    unfold cutFrom at h
    split at h <;> simp_all
  | cons c cs ih =>
    unfold cutFrom at h
    split at h
    next hp =>
      obtain ⟨t, ht⟩ := List.isPrefixOf_iff_prefix.1 hp
      simp only [Option.some.injEq, Prod.mk.injEq] at h
      obtain ⟨rfl, rfl⟩ := h
      simp [← ht]
    next => simpa using ih h

/-- What stands before and after the separator gives the whole sequence back. -/
theorem eq_of_cut [BEq α] [LawfulBEq α] {sep cs before after : List α}
    (h : cut sep cs = some (before, after)) : cs = before ++ sep ++ after := by
  simpa using eq_of_cutFrom h

/-- What stands behind a separator that is not empty is shorter than the whole. -/
theorem length_of_cut [BEq α] [LawfulBEq α] {sep cs before after : List α} (hs : sep ≠ [])
    (h : cut sep cs = some (before, after)) : after.length < cs.length := by
  have := congrArg List.length (eq_of_cut h)
  have := List.length_pos_iff.2 hs
  simp only [List.length_append] at *
  omega

theorem splitAll_ne_nil [DecidableEq α] (sep : α) (cs : List α) : splitAll sep cs ≠ [] := by
  cases cs with
  | nil => simp [splitAll]
  | cons c cs =>
    unfold splitAll
    split
    · simp
    · split <;> simp

/-- Joining the pieces with the separator gives the sequence back. -/
theorem intercalate_splitAll [DecidableEq α] (sep : α) (cs : List α) :
    [sep].intercalate (splitAll sep cs) = cs := by
  induction cs with
  | nil => simp [splitAll, List.intercalate]
  | cons c cs ih =>
    unfold splitAll
    have hne := splitAll_ne_nil sep cs
    split
    next hc =>
      subst hc
      cases h : splitAll c cs with
      | nil => exact absurd h hne
      | cons p ps => simpa [List.intercalate, h] using ih
    next =>
      cases h : splitAll sep cs with
      | nil => exact absurd h hne
      | cons p ps =>
        rw [h] at ih
        cases ps with
        | nil => simpa [List.intercalate] using ih
        | cons q qs => simpa [List.intercalate] using ih

end EbmsMessaging.Text
