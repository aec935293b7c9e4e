import EbmsMessaging.Json.Reader

/-!
# Written numbers are read back

A written number is a run of decimal digits without a leading zero. It ends where punctuation or the
end of the text follows, as it does everywhere inside a written value.
-/
namespace EbmsMessaging.Json

/-- What can follow a written value: the end of the text, or punctuation. -/
inductive Stops : Bytes → Prop where
  | nil : Stops []
  | comma (rest : Bytes) : Stops (comma :: rest)
  | closeBracket (rest : Bytes) : Stops (closeBracket :: rest)
  | closeBrace (rest : Bytes) : Stops (closeBrace :: rest)

theorem toNat_of_isDigit {c : Char} (h : c.isDigit) : 48 ≤ c.toNat ∧ c.toNat ≤ 57 := by
  simp only [Char.isDigit, Bool.and_eq_true, decide_eq_true_eq, ge_iff_le] at h
  exact ⟨h.1, h.2⟩

theorem toNat_digitOctet {c : Char} (h : c.isDigit) : c.toNat.toUInt8.toNat = c.toNat := by
  have := toNat_of_isDigit h
  simp only [Nat.toUInt8, UInt8.toNat_ofNat']
  omega

theorem isDigit_digitOctet {c : Char} (h : c.isDigit) : isDigit c.toNat.toUInt8 = true := by
  have hbounds := toNat_of_isDigit h
  have hoctet := toNat_digitOctet h
  simp only [isDigit, Bool.and_eq_true, decide_eq_true_eq, UInt8.le_iff_toNat_le, hoctet]
  exact hbounds

theorem isDigit_of_mem_toDigits {n : Nat} {c : Char} (h : c ∈ Nat.toDigits 10 n) : c.isDigit :=
  Nat.isDigit_of_mem_toDigits (by decide) (by decide) h

theorem isDigit_of_mem_writeNumber {n : Nat} {b : UInt8} (h : b ∈ writeNumber n) :
    isDigit b = true := by
  obtain ⟨c, hc, rfl⟩ := List.mem_map.mp h
  exact isDigit_digitOctet (isDigit_of_mem_toDigits hc)

/-- Punctuation is no digit. -/
theorem Stops.takeWhile {rest : Bytes} (h : Stops rest) : rest.takeWhile isDigit = [] := by
  cases h <;> rfl

theorem Stops.dropWhile {rest : Bytes} (h : Stops rest) : rest.dropWhile isDigit = rest := by
  cases h <;> rfl

theorem digits_writeNumber (n : Nat) {rest : Bytes} (h : Stops rest) :
    digits (writeNumber n ++ rest) = ((Nat.toDigits 10 n).map fun c => c.toNat - 48, rest) := by
  have hdigits : ∀ b ∈ writeNumber n, isDigit b = true := fun b => isDigit_of_mem_writeNumber
  rw [digits, List.takeWhile_append_of_pos hdigits, List.dropWhile_append_of_pos hdigits,
    h.takeWhile, h.dropWhile, List.append_nil, writeNumber, List.map_map]
  congr 1
  refine List.map_congr_left fun c hc => ?_
  have hoctet := toNat_digitOctet (isDigit_of_mem_toDigits hc)
  simp only [Function.comp_apply, hoctet]

theorem ofDigits_toDigits (n : Nat) :
    ofDigits ((Nat.toDigits 10 n).map fun c => c.toNat - 48) = n := by
  rw [ofDigits, List.foldl_map]
  exact Nat.ofDigitChars_ten_toDigits

/-- Only zero is written with a zero in front. -/
theorem head_toDigits {n : Nat} (hn : 0 < n) {d : Nat} {ds : List Nat}
    (h : (Nat.toDigits 10 n).map (fun c => c.toNat - 48) = d :: ds) : d ≠ 0 := by
  induction n using Nat.strongRecOn generalizing ds with
  | _ n ih =>
    by_cases hlt : n < 10
    · rw [Nat.toDigits_of_lt_base hlt, List.map_singleton,
        Nat.toNat_digitChar_sub_48_of_lt_ten hlt] at h
      obtain ⟨rfl, -⟩ := List.cons.inj h
      exact Nat.ne_of_gt hn
    · rw [Nat.toDigits_of_base_le (by decide) (Nat.le_of_not_lt hlt), List.map_append] at h
      cases hfront : (Nat.toDigits 10 (n / 10)).map fun c => c.toNat - 48 with
      | nil => simp at hfront
      | cons e es =>
        rw [hfront, List.cons_append] at h
        obtain ⟨rfl, -⟩ := List.cons.inj h
        exact ih (n / 10) (by omega) (by omega) hfront

theorem wholePart_writeNumber (n : Nat) {rest : Bytes} (h : Stops rest) :
    wholePart (writeNumber n ++ rest) =
      .ok ((Nat.toDigits 10 n).map fun c => c.toNat - 48, rest) := by
  have hsome : someDigits (writeNumber n ++ rest) =
      .ok ((Nat.toDigits 10 n).map fun c => c.toNat - 48, rest) := by
    rw [someDigits, digits_writeNumber n h]
    cases hds : (Nat.toDigits 10 n).map fun c => c.toNat - 48 with
    | nil => simp at hds
    | cons d ds => rfl
  rw [wholePart, hsome]
  by_cases hn : n = 0
  · subst hn
    rfl
  · cases hds : (Nat.toDigits 10 n).map fun c => c.toNat - 48 with
    | nil => rfl
    | cons d ds =>
      have hd := head_toDigits (Nat.pos_of_ne_zero hn) hds
      cases d with
      | zero => exact absurd rfl hd
      | succ d => rfl

theorem numeral_writeNumber (n : Nat) {rest : Bytes} (h : Stops rest) :
    numeral (writeNumber n ++ rest) =
      .ok (⟨(Nat.toDigits 10 n).map fun c => c.toNat - 48, [], 0, true⟩, rest) := by
  rw [numeral, wholePart_writeNumber n h]
  cases h <;> rfl

/-- A written number starts with a digit. -/
theorem writeNumber_cons (n : Nat) : ∃ b bs, writeNumber n = b :: bs ∧ isDigit b = true := by
  cases hw : writeNumber n with
  | nil => simp [writeNumber] at hw
  | cons b bs =>
    have hmem : b ∈ writeNumber n := by rw [hw]; exact List.mem_cons_self
    exact ⟨b, bs, rfl, isDigit_of_mem_writeNumber hmem⟩

theorem ne_minus_of_isDigit {b : UInt8} (h : isDigit b = true) : b ≠ minus := by
  rintro rfl
  exact absurd h (by decide)

theorem isBlank_of_isDigit {b : UInt8} (h : isDigit b = true) : isBlank b = false := by
  cases hblank : isBlank b with
  | false => rfl
  | true =>
    simp only [isBlank, Bool.or_eq_true, beq_iff_eq] at hblank
    rcases hblank with ((rfl | rfl) | rfl) | rfl <;> exact absurd h (by decide)

theorem number_writeNumber {n : Nat} (hn : n < UInt64.size) {rest : Bytes} (h : Stops rest) :
    number (writeNumber n ++ rest) = .ok (.natural n, rest) := by
  have hnumeral := numeral_writeNumber n h
  obtain ⟨b, bs, hw, hb⟩ := writeNumber_cons n
  rw [hw, List.cons_append] at hnumeral ⊢
  rw [number, if_neg (ne_minus_of_isDigit hb), hnumeral]
  simp only [bind, Except.bind, Numeral.value, ofDigits_toDigits]
  rw [if_pos ⟨trivial, trivial, hn⟩]

/-- A written number is read back where it stands. -/
theorem natural_writeNumber {bound n : Nat} (hbound : n < bound) (hn : n < UInt64.size)
    {rest : Bytes} (h : Stops rest) : natural bound (writeNumber n ++ rest) = .ok (n, rest) := by
  have hnumber := number_writeNumber hn h
  obtain ⟨b, bs, hw, hb⟩ := writeNumber_cons n
  rw [hw, List.cons_append] at hnumber ⊢
  rw [natural, skipBlanks_cons (isBlank_of_isDigit hb)]
  simp only [hb, or_true, if_true, hnumber, bind, Except.bind]
  rw [if_pos hbound]

end EbmsMessaging.Json
