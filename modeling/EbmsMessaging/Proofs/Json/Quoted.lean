import EbmsMessaging.Json.Reader
import EbmsMessaging.Proofs.Json.Numeral
import EbmsMessaging.Proofs.Text.Utf8

/-!
# Written strings are read back

Inside a string a reader takes an escape as a whole and all other octets one by one. So it takes
what is written for a character as a whole, and what it collects is the UTF-8 form of the string.
-/
namespace EbmsMessaging

namespace Json

/-- Stands for itself inside a string. -/
def IsPlain (b : UInt8) : Prop := b ≠ quote ∧ b ≠ backslash ∧ ¬b < 0x20

theorem quotedOctets_append {octets : Bytes} (h : ∀ b ∈ octets, IsPlain b) (before rest : Bytes) :
    quotedOctets before (octets ++ rest) = quotedOctets (octets.reverse ++ before) rest := by
  induction octets generalizing before with
  | nil => rfl
  | cons b octets ih =>
    obtain ⟨⟨hquote, hbackslash, hlow⟩, h⟩ := List.forall_mem_cons.mp h
    rw [List.cons_append, quotedOctets, if_neg hquote, if_neg hbackslash, if_neg hlow, ih h]
    simp

theorem quotedOctets_escape {octets input rest : Bytes} (h : escape input = .ok (octets, rest))
    (before : Bytes) :
    quotedOctets before (backslash :: input) = quotedOctets (octets.reverse ++ before) rest := by
  rw [quotedOctets, if_neg (by decide), if_pos rfl]
  split
  · next e he => simp [h] at he
  · next octets' rest' he =>
    obtain ⟨rfl, rfl⟩ := Prod.mk.inj (Except.ok.inj (h.symm.trans he))
    rfl

/-- A one-letter escape is read as the character that it was written for. -/
theorem escape_letter {c : Char} {letter : UInt8} (h : escapeLetter? c = some letter)
    (rest : Bytes) : escape (letter :: rest) = .ok (Utf8.encodeChar c, rest) := by
  have hc : c = Char.ofNat c.toNat := (Char.ofNat_toNat c).symm
  unfold escapeLetter? at h
  split at h
  all_goals
    first
    | (next hn =>
        rw [hn] at hc
        obtain rfl := Option.some.inj h
        subst hc
        rfl)
    | simp at h

theorem hexDigit?_hexDigit {n : Nat} (h : n < 16) : hexDigit? (hexDigit n) = some n := by
  revert n
  decide

/-- A numbered escape is read as the character that it was written for. -/
theorem escape_number {c : Char} (h : c.toNat < 0x20) (rest : Bytes) :
    escape (0x75 :: 0x30 :: 0x30 :: hexDigit (c.toNat / 16) :: hexDigit (c.toNat % 16) :: rest) =
      .ok (Utf8.encodeChar c, rest) := by
  have hzero : hexDigit? 0x30 = some 0 := by decide
  have hhigh := hexDigit?_hexDigit (n := c.toNat / 16) (by omega)
  have hlow := hexDigit?_hexDigit (n := c.toNat % 16) (by omega)
  have hsum : ((0 * 16 + 0) * 16 + c.toNat / 16) * 16 + c.toNat % 16 = c.toNat := by omega
  simp only [escape, if_true, numberedEscape, fourDigits, hzero, hhigh, hlow, hsum, bind,
    Except.bind]
  rw [if_neg (by omega), if_neg (by omega), Char.ofNat_toNat]

/-- Characters that are not escaped stand for themselves. -/
theorem isPlain_of_mem_encodeChar {c : Char} (hletter : escapeLetter? c = none)
    (hlow : ¬c.toNat < 0x20) {b : UInt8} (hb : b ∈ Utf8.encodeChar c) : IsPlain b := by
  by_cases hc : c.toNat < 0x80
  · rw [Utf8.encodeChar_of_lt hc, List.mem_singleton] at hb
    have hnat : b.toNat = c.toNat := by
      rw [hb, UInt8.toNat_ofNat']
      omega
    refine ⟨?_, ?_, ?_⟩
    · rintro rfl
      rw [escapeLetter?, ← hnat] at hletter
      exact absurd hletter (by decide)
    · rintro rfl
      rw [escapeLetter?, ← hnat] at hletter
      exact absurd hletter (by decide)
    · rw [UInt8.lt_iff_toNat_lt, hnat]
      exact hlow
  · have hle := Utf8.le_of_mem_encodeChar (Nat.le_of_not_lt hc) hb
    refine ⟨?_, ?_, ?_⟩
    · rintro rfl
      exact absurd hle (by decide)
    · rintro rfl
      exact absurd hle (by decide)
    · rw [UInt8.lt_iff_toNat_lt]
      simp
      omega

/-- What is written for a character is read as its UTF-8 form. -/
theorem quotedOctets_writeChar (c : Char) (before rest : Bytes) :
    quotedOctets before (writeChar c ++ rest) =
      quotedOctets ((Utf8.encodeChar c).reverse ++ before) rest := by
  unfold writeChar
  split
  · next letter hletter => exact quotedOctets_escape (escape_letter hletter rest) before
  · next hletter =>
    split
    · next hlow => exact quotedOctets_escape (escape_number hlow rest) before
    · next hlow =>
      exact quotedOctets_append (fun b hb => isPlain_of_mem_encodeChar hletter hlow hb) before rest

theorem quotedOctets_flatMap_writeChar (cs : List Char) (before rest : Bytes) :
    quotedOctets before (cs.flatMap writeChar ++ quote :: rest) =
      .ok (before.reverse ++ cs.flatMap Utf8.encodeChar, rest) := by
  induction cs generalizing before with
  | nil => simp [quotedOctets]
  | cons c cs ih =>
    rw [List.flatMap_cons, List.append_assoc, quotedOctets_writeChar, ih]
    simp

/-- A written string is read back where it stands, after its opening quote. -/
theorem quoted_writeChars (s : String) (rest : Bytes) :
    quoted (s.toList.flatMap writeChar ++ quote :: rest) = .ok (s, rest) := by
  rw [quoted, quotedOctets_flatMap_writeChar]
  simp only [bind, Except.bind, List.reverse_nil, List.nil_append,
    Utf8.decode?_flatMap_encodeChar]

theorem writeString_append (s : String) (rest : Bytes) :
    writeString s ++ rest = quote :: (s.toList.flatMap writeChar ++ quote :: rest) := by
  simp [writeString]

/-- A written string is read back where it stands. -/
theorem text_writeString (s : String) (rest : Bytes) :
    text (writeString s ++ rest) = .ok (s, rest) := by
  rw [writeString_append, text, skipBlanks_cons (by decide)]
  exact quoted_writeChars s rest

end Json
end EbmsMessaging
