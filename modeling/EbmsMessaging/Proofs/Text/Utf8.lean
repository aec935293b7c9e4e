import EbmsMessaging.Proofs.Text.Cut
import EbmsMessaging.Text.Utf8

/-!
# Text inside of UTF-8

A string is written character by character, and the octets of one that is beyond ASCII are beyond
ASCII too. So where ASCII text occurs in written text, it occurs in the text itself.
-/
namespace EbmsMessaging.Utf8

theorem encode_eq_flatMap (s : String) : encode s = s.toList.flatMap encodeChar := by
  rw [encode, ← String.utf8Encode_toList, List.utf8Encode, List.toList_data_toByteArray]
  rfl

/-- The UTF-8 forms of characters make the UTF-8 form of a string. -/
theorem decode?_flatMap_encodeChar (s : String) :
    decode? (s.toList.flatMap encodeChar) = some s := by
  rw [← encode_eq_flatMap, decode?_encode]

/-- Beyond ASCII every octet has its highest bit set. -/
theorem le_of_mem_encodeChar {c : Char} (hc : 0x80 ≤ c.toNat) {b : UInt8} (hb : b ∈ encodeChar c) :
    0x80 ≤ b.toNat := by
  have hval : c.val.toNat = c.toNat := rfl
  unfold encodeChar String.utf8EncodeChar at hb
  simp only [hval] at hb
  rw [if_neg (by omega)] at hb
  split at hb
  · simp only [List.mem_cons, List.not_mem_nil, or_false] at hb
    rcases hb with rfl | rfl <;> simp only [UInt8.toNat_ofNat'] <;> omega
  · split at hb
    · simp only [List.mem_cons, List.not_mem_nil, or_false] at hb
      rcases hb with rfl | rfl | rfl <;> simp only [UInt8.toNat_ofNat'] <;> omega
    · simp only [List.mem_cons, List.not_mem_nil, or_false] at hb
      rcases hb with rfl | rfl | rfl | rfl <;> simp only [UInt8.toNat_ofNat'] <;> omega

theorem encodeChar_of_lt {c : Char} (hc : c.toNat < 0x80) :
    encodeChar c = [UInt8.ofNat c.toNat] := by
  have hval : c.val.toNat = c.toNat := rfl
  unfold encodeChar String.utf8EncodeChar
  simp only [hval]
  rw [if_pos (by omega)]

theorem encodeChar_ne_nil (c : Char) : encodeChar c ≠ [] := by
  unfold encodeChar String.utf8EncodeChar
  dsimp only
  split
  · simp
  · split
    · simp
    · split <;> simp

/-- In ASCII no octet has its highest bit set. -/
theorem lt_of_mem_flatMap_encodeChar {t : List Char} (ht : ∀ c ∈ t, c.toNat < 0x80) {b : UInt8}
    (hb : b ∈ t.flatMap encodeChar) : b.toNat < 0x80 := by
  obtain ⟨c, hc, hb⟩ := List.mem_flatMap.mp hb
  have hlt := ht c hc
  rw [encodeChar_of_lt hlt, List.mem_singleton] at hb
  rw [hb, UInt8.toNat_ofNat']
  omega

/-- Written ASCII text stands at the beginning of written text only where the text begins with it. -/
theorem prefix_of_flatMap_encodeChar {t s : List Char} (ht : ∀ c ∈ t, c.toNat < 0x80)
    (h : t.flatMap encodeChar <+: s.flatMap encodeChar) : t <+: s := by
  induction t generalizing s with
  | nil => exact List.nil_prefix
  | cons a t ih =>
    obtain ⟨ha, ht⟩ := List.forall_mem_cons.mp ht
    rw [List.flatMap_cons, encodeChar_of_lt ha] at h
    cases s with
    | nil => simp at h
    | cons c s =>
      rw [List.flatMap_cons] at h
      by_cases hc : c.toNat < 0x80
      · rw [encodeChar_of_lt hc] at h
        obtain ⟨hac, h⟩ := List.cons_prefix_cons.mp h
        have heq : a = c := by
          have := congrArg UInt8.toNat hac
          simp only [UInt8.toNat_ofNat'] at this
          exact Char.toNat_inj.mp (by omega)
        rw [heq]
        exact List.cons_prefix_cons.mpr ⟨rfl, ih ht h⟩
      · -- The first octet of what is beyond ASCII is none of ASCII.
        obtain ⟨b, bs, hb⟩ := List.exists_cons_of_ne_nil (encodeChar_ne_nil c)
        have hle := le_of_mem_encodeChar (Nat.le_of_not_lt hc) (b := b) (by simp [hb])
        rw [hb] at h
        obtain ⟨hab, -⟩ := List.cons_prefix_cons.mp h
        rw [← hab, UInt8.toNat_ofNat'] at hle
        omega

/-- Where written ASCII text occurs in written text, the text occurs in the text. -/
theorem infix_of_flatMap_encodeChar {t s : List Char} (ht : ∀ c ∈ t, c.toNat < 0x80)
    (h : t.flatMap encodeChar <:+: s.flatMap encodeChar) : t <:+: s := by
  induction s with
  | nil =>
    rw [List.flatMap_nil, List.infix_nil, ← List.flatMap_nil (f := encodeChar)] at h
    exact (prefix_of_flatMap_encodeChar ht (h ▸ List.prefix_rfl)).isInfix
  | cons c s ih =>
    by_cases hp : t.flatMap encodeChar <+: (c :: s).flatMap encodeChar
    · exact (prefix_of_flatMap_encodeChar ht hp).isInfix
    have hrest : t.flatMap encodeChar <:+: s.flatMap encodeChar := by
      rw [List.flatMap_cons] at h hp
      by_cases hc : c.toNat < 0x80
      · rw [encodeChar_of_lt hc, List.singleton_append] at h hp
        exact (List.infix_cons_iff.mp h).resolve_left hp
      · refine Text.infix_of_infix_append (fun b hb hmem => ?_) h
        have hle := le_of_mem_encodeChar (Nat.le_of_not_lt hc) hb
        have hlt := lt_of_mem_flatMap_encodeChar ht hmem
        omega
    exact (ih hrest).trans (List.suffix_cons c s).isInfix

/-- An ASCII character stands in written text only if it stands in the text. -/
theorem not_mem_encode {s : String} {d : Char} (hlt : d.toNat < 0x80) (hd : d ∉ s.toList) :
    UInt8.ofNat d.toNat ∉ encode s := by
  rw [encode_eq_flatMap, List.mem_flatMap]
  rintro ⟨c, hc, hmem⟩
  by_cases hascii : c.toNat < 0x80
  · rw [encodeChar_of_lt hascii, List.mem_singleton] at hmem
    have hnat := congrArg UInt8.toNat hmem
    simp only [UInt8.toNat_ofNat'] at hnat
    have heq : d = c := Char.toNat_inj.mp (by omega)
    exact hd (heq ▸ hc)
  · have hle := le_of_mem_encodeChar (Nat.le_of_not_lt hascii) hmem
    rw [UInt8.toNat_ofNat'] at hle
    omega

end EbmsMessaging.Utf8
