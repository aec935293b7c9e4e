import EbmsMessaging.Identifier
import EbmsMessaging.Proofs.Text.Cut
import Mathlib.Data.Set.Function

/-!
# URI forms

The URI form of an identifier is cut at its first separator. That is where the scheme ends, unless a
separator begins earlier: inside the scheme, or with the colon at its end. So an identifier is read back
from its URI form exactly if its scheme holds no separator and does not end in a colon. The value may
hold any separators, and begin with colons.
-/
namespace EbmsMessaging.Identifier

/-- Made from its parts, none of them blank. -/
def Made (i : Identifier) : Prop := ∃ scheme value, ofParts scheme value = .ok i

theorem Made.ofParts_eq {i : Identifier} (h : i.Made) : ofParts i.scheme i.value = .ok i := by
  obtain ⟨scheme, value, hi⟩ := h
  obtain ⟨rfl, _⟩ := ofParts_eq_ok.mp hi
  exact hi

theorem Made.scheme_ne {i : Identifier} (h : i.Made) : i.scheme ≠ "" := by
  intro hempty
  have hblank := (ofParts_eq_ok.mp h.ofParts_eq).2.1
  rw [hempty] at hblank
  exact absurd hblank (by decide)

/-- A URI form holds a colon. -/
theorem colon_mem_uri (i : Identifier) : ':' ∈ i.uri.toList := by
  simp [uri]

theorem toList_uri (i : Identifier) :
    i.uri.toList = i.scheme.toList ++ separator ++ i.value.toList := by
  simp [uri, separator]

/-- No separator begins before the end of the scheme, so that the URI form is cut there. -/
structure Separable (i : Identifier) : Prop where
  no_separator : ¬separator <:+: i.scheme.toList
  getLast_ne : i.scheme.toList.getLast? ≠ some ':'

instance (i : Identifier) : Decidable i.Separable :=
  decidable_of_iff (¬separator <:+: i.scheme.toList ∧ i.scheme.toList.getLast? ≠ some ':')
    ⟨fun h => ⟨h.1, h.2⟩, fun h => ⟨h.no_separator, h.getLast_ne⟩⟩

/-! ## Where a URI form is cut -/

section Cut

variable {before after : List Char}

/-- A colon before the separator begins a separator itself, one place earlier. -/
theorem getLast_ne_of_cut
    (h : Text.cut separator (before ++ separator ++ after) = some (before, after)) :
    before.getLast? ≠ some ':' := by
  intro hlast
  obtain ⟨front, rfl⟩ := List.getLast?_eq_some_iff.mp hlast
  have hearlier : front ++ [':'] ++ separator ++ after = front ++ separator ++ ':' :: after := by
    simp [separator]
  rw [hearlier] at h
  have hlen := (Text.suffix_of_cut h).length_le
  rw [List.length_cons] at hlen
  omega

theorem cut_separator_eq_some : Text.cut separator (before ++ separator ++ after) =
    some (before, after) ↔ ¬separator <:+: before ∧ before.getLast? ≠ some ':' := by
  refine ⟨fun h => ⟨Text.not_infix_of_cut (by decide) h, getLast_ne_of_cut h⟩, fun h => ?_⟩
  obtain ⟨hseparator, hlast⟩ := h
  rcases List.eq_nil_or_concat before with rfl | ⟨front, c, rfl⟩
  · exact Text.cut_append_self separator after
  · rw [List.concat_eq_append] at hseparator hlast ⊢
    have hc : c ≠ ':' := by simpa using hlast
    exact Text.cut_of_getLast (by simpa [separator] using hc) hseparator

end Cut

/-- A URI form is cut behind its scheme exactly if the scheme can be told from the rest. -/
theorem cut_uri {i : Identifier} : Text.cut separator i.uri.toList =
    some (i.scheme.toList, i.value.toList) ↔ i.Separable := by
  rw [toList_uri, cut_separator_eq_some]
  exact ⟨fun h => ⟨h.1, h.2⟩, fun h => ⟨h.no_separator, h.getLast_ne⟩⟩

/-! ## What is read from a text -/

/-- Read from its URI form, an identifier is made from its parts again, if they can be. -/
theorem ofUri_uri {i : Identifier} (h : i.Separable) : ofUri i.uri = ofParts i.scheme i.value := by
  simp [ofUri, cut_uri.mpr h]

/-- The texts that are read are the URI forms of what can be read back. -/
theorem ofUri_eq_ok {s : String} {i : Identifier} :
    ofUri s = .ok i ↔ i.uri = s ∧ i.Made ∧ i.Separable := by
  constructor
  · intro h
    unfold ofUri at h
    split at h
    · next scheme value hcut =>
      obtain ⟨rfl, -⟩ := ofParts_eq_ok.mp h
      have huri : (⟨String.ofList scheme, String.ofList value⟩ : Identifier).uri = s := by
        rw [← String.toList_inj, toList_uri, Text.eq_of_cut hcut, String.toList_ofList,
          String.toList_ofList]
      refine ⟨huri, ⟨_, _, h⟩, cut_uri.mp ?_⟩
      rw [huri, hcut, String.toList_ofList, String.toList_ofList]
    · simp at h
  · rintro ⟨rfl, hmade, hseparable⟩
    rw [ofUri_uri hseparable, hmade.ofParts_eq]

/-- What is said to have no separator has none. -/
theorem ofUri_eq_missingSeparator {s text : String} :
    ofUri s = .error (.missingSeparator text) ↔ text = s ∧ ¬separator <:+: s.toList := by
  rw [← Text.cut_eq_none, ofUri]
  cases Text.cut separator s.toList with
  | none => simp [eq_comm]
  | some parts =>
    have hparts (scheme value : String) :
        ofParts scheme value ≠ .error (.missingSeparator text) := by
      unfold ofParts
      split
      · simp
      · split <;> simp
    simpa using hparts _ _

/-- An identifier that was made is read back from its URI form exactly if its scheme holds no separator
and does not end in a colon. Whatever is read from a text, the text is its URI form and its scheme is
like that, and a text is said to have no separator exactly if it has none. So no two identifiers that
are read have the same URI form. -/
theorem uri_read_back_iff :
    (∀ scheme value i, ofParts scheme value = .ok i → (ofUri i.uri = .ok i ↔ i.Separable)) ∧
    (∀ s i, ofUri s = .ok i → i.uri = s ∧ i.Separable) ∧
    (∀ s text, ofUri s = .error (.missingSeparator text) ↔
      text = s ∧ ¬separator <:+: s.toList) ∧
    Set.InjOn uri {i | ∃ s, ofUri s = .ok i} := by
  refine ⟨fun scheme value i hi => ?_, fun s i hread => ?_, fun s text => ofUri_eq_missingSeparator,
    ?_⟩
  · rw [ofUri_eq_ok]
    exact ⟨fun h => h.2.2, fun hseparable => ⟨rfl, ⟨scheme, value, hi⟩, hseparable⟩⟩
  · obtain ⟨huri, -, hseparable⟩ := ofUri_eq_ok.mp hread
    exact ⟨huri, hseparable⟩
  · rintro i ⟨s, hi⟩ j ⟨t, hj⟩ heq
    -- Each is what its own URI form is read as.
    rw [← (ofUri_eq_ok.mp hi).1] at hi
    rw [← (ofUri_eq_ok.mp hj).1, ← heq, hi] at hj
    exact Except.ok.inj hj

/-- Two identifiers with the URI form `a:::b`. It is read as the one whose value begins with a colon. -/
theorem colon_read_back :
    ofParts "a" ":b" = .ok ⟨"a", ":b"⟩ ∧ ofUri "a:::b" = .ok ⟨"a", ":b"⟩ ∧
      ofParts "a:" "b" = .ok ⟨"a:", "b"⟩ ∧ ofUri "a:::b" ≠ .ok ⟨"a:", "b"⟩ := by
  obtain ⟨hback, -, -, hinj⟩ := uri_read_back_iff
  have hvalue : ofParts "a" ":b" = .ok ⟨"a", ":b"⟩ := by decide
  have hscheme : ofParts "a:" "b" = .ok ⟨"a:", "b"⟩ := by decide
  have hread : ofUri "a:::b" = .ok ⟨"a", ":b"⟩ := (hback _ _ _ hvalue).mpr (by decide)
  refine ⟨hvalue, hread, hscheme, fun hother => ?_⟩
  exact absurd (hinj ⟨_, hread⟩ ⟨_, hother⟩ (by decide)) (by decide)

end EbmsMessaging.Identifier
