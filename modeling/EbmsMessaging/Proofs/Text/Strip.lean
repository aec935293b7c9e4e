import EbmsMessaging.Text.Blank
import Mathlib.Data.List.DropRight

/-!
# Texts without blanks around them

Stripping a text takes away what is to be stripped at its ends, up to the first and the last character
that is not. Such a text is left as it is, and comes out of whatever is put around it that is to be
stripped.
-/
namespace EbmsMessaging.Text

variable {p : Char → Bool} {cs : List Char}

/-- Neither the first nor the last character is to be stripped. -/
def Bare (p : Char → Bool) (cs : List Char) : Prop :=
  (∀ c ∈ cs.head?, p c = false) ∧ ∀ c ∈ cs.getLast?, p c = false

theorem bare_of_forall (h : ∀ c ∈ cs, p c = false) : Bare p cs :=
  ⟨fun c hc => h c (List.mem_of_mem_head? hc), fun c hc => h c (List.mem_of_getLast? hc)⟩

theorem dropWhile_of_head (h : ∀ c ∈ cs.head?, p c = false) : cs.dropWhile p = cs := by
  cases cs with
  | nil => rfl
  | cons c cs => exact List.dropWhile_cons_of_neg (by simp [h c rfl])

/-- Of a bare text with something around it that is to be stripped the text is left. -/
theorem stripChars_append {front back : List Char} (hfront : ∀ c ∈ front, p c = true)
    (hback : ∀ c ∈ back, p c = true) (hcs : Bare p cs) :
    stripChars p (front ++ cs ++ back) = cs := by
  rw [stripChars, List.append_assoc, List.dropWhile_append_of_pos hfront]
  cases cs with
  | nil =>
    have hnil : back.dropWhile p = [] := List.dropWhile_eq_nil_iff.mpr hback
    rw [List.nil_append, hnil]
    rfl
  | cons c cs =>
    have hfirst : (c :: cs ++ back).dropWhile p = c :: cs ++ back := dropWhile_of_head hcs.1
    have hlast : (c :: cs).reverse.dropWhile p = (c :: cs).reverse := by
      apply dropWhile_of_head
      rw [List.head?_reverse]
      exact hcs.2
    have hbehind : ∀ d ∈ back.reverse, p d = true := fun d hd => hback d (List.mem_reverse.mp hd)
    rw [hfirst, List.reverse_append, List.dropWhile_append_of_pos hbehind, hlast,
      List.reverse_reverse]

theorem stripChars_of_bare (h : Bare p cs) : stripChars p cs = cs := by
  have hnone : ∀ c ∈ ([] : List Char), p c = true := List.forall_mem_nil _
  simpa using stripChars_append hnone hnone h

theorem stripChars_eq_rdropWhile (p : Char → Bool) (cs : List Char) :
    stripChars p cs = (cs.dropWhile p).rdropWhile p := rfl

theorem bare_stripChars (p : Char → Bool) (cs : List Char) : Bare p (stripChars p cs) := by
  rw [stripChars_eq_rdropWhile]
  constructor
  · intro c hc
    have hprefix := List.rdropWhile_prefix p (l := cs.dropWhile p)
    obtain ⟨ds, hds⟩ := List.head?_eq_some_iff.mp hc
    have hfirst := List.head?_dropWhile_not p cs
    obtain ⟨rest, hrest⟩ := hprefix
    rw [← hrest, hds] at hfirst
    simpa using hfirst
  · intro c hc
    obtain ⟨hne, rfl⟩ := List.mem_getLast?_eq_getLast hc
    simpa using List.rdropWhile_last_not p _ hne

/-- A text is bare exactly if nothing is stripped. -/
theorem stripChars_eq_self_iff : stripChars p cs = cs ↔ Bare p cs :=
  ⟨fun h => h ▸ bare_stripChars p cs, stripChars_of_bare⟩

instance (p : Char → Bool) (cs : List Char) : Decidable (Bare p cs) :=
  decidable_of_iff _ stripChars_eq_self_iff

end EbmsMessaging.Text
