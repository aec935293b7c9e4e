import EbmsMessaging.Timestamp.Reader

/-!
# Written timestamps are read back

Every number in the text of a timestamp has a fixed count of digits, except for a year with a sign,
which ends at the next hyphen. The zone is universal time, so neither date nor time of day moves.
-/
namespace EbmsMessaging.Timestamp

open Text (isBlank)

/-! ## Padded numbers -/

theorem isDigit_of_mem_padded {width n : Nat} {c : Char} (h : c ∈ (padded width n).toList) :
    c.isDigit = true := by
  rw [padded, String.toList_ofList, List.mem_append] at h
  rcases h with h | h
  · rw [(List.mem_replicate.mp h).2]
    rfl
  · exact Nat.isDigit_of_mem_toDigits (by decide) (by decide) h

theorem digitsValue_padded (width n : Nat) : digitsValue (padded width n).toList = n := by
  have hfold (cs : List Char) : digitsValue cs = Nat.ofDigitChars 10 cs 0 := rfl
  rw [padded, String.toList_ofList, hfold, Nat.ofDigitChars_append,
    Nat.ofDigitChars_replicate_zero, Nat.mul_zero, Nat.ofDigitChars_ten_toDigits]

theorem padded_ne_nil (width n : Nat) : (padded width n).toList ≠ [] := by
  simp [padded]

theorem padded_ne_empty (width n : Nat) : padded width n ≠ "" :=
  fun h => padded_ne_nil width n (by rw [h]; rfl)

theorem length_padded {width n : Nat} (h : (Nat.toDigits 10 n).length ≤ width) :
    (padded width n).toList.length = width := by
  simp only [padded, String.toList_ofList, List.length_append, List.length_replicate]
  omega

/-- A run of digits that is not too long and that no other digit follows is read as a whole. -/
theorem number?_append {digits rest : List Char} {most : Nat} (hdigits : ∀ c ∈ digits, c.isDigit)
    (hne : digits ≠ []) (hlen : digits.length ≤ most)
    (hstop : (rest.take (most - digits.length)).takeWhile Char.isDigit = []) :
    number? most (digits ++ rest) = some (digitsValue digits, rest) := by
  have htake : ((digits ++ rest).take most).takeWhile Char.isDigit = digits := by
    rw [List.take_append, List.take_of_length_le hlen, List.takeWhile_append_of_pos hdigits, hstop,
      List.append_nil]
  rw [number?, htake]
  simp [hne]

/-- A padded number fills its field. -/
theorem number?_padded {width n : Nat} (h : (Nat.toDigits 10 n).length ≤ width)
    (rest : List Char) : number? width ((padded width n).toList ++ rest) = some (n, rest) := by
  have hlen := length_padded h
  rw [number?_append (fun c => isDigit_of_mem_padded) (padded_ne_nil width n) (Nat.le_of_eq hlen)
    (by simp [hlen]), digitsValue_padded]

theorem isBlank_of_isDigit {c : Char} (h : c.isDigit = true) : isBlank c = false := by
  simp only [Char.isDigit, Bool.and_eq_true, decide_eq_true_eq, ge_iff_le] at h
  have hlow : 48 ≤ c.toNat := h.1
  have hhigh : c.toNat ≤ 57 := h.2
  simp only [isBlank]
  grind

theorem skipBlanks_cons {c : Char} (h : isBlank c = false) (cs : List Char) :
    skipBlanks (c :: cs) = c :: cs := by
  simp [skipBlanks, h]

theorem skipBlanks_padded (width n : Nat) (rest : List Char) :
    skipBlanks ((padded width n).toList ++ rest) = (padded width n).toList ++ rest := by
  cases hp : (padded width n).toList with
  | nil => exact absurd hp (padded_ne_nil width n)
  | cons c cs =>
    have hc : c.isDigit = true := isDigit_of_mem_padded (by rw [hp]; exact List.mem_cons_self)
    exact skipBlanks_cons (isBlank_of_isDigit hc) _

/-! ## The parts of a timestamp -/

/-- A year with a sign ends at the hyphen. -/
theorem number?_signed (n : Nat) (rest : List Char) :
    number? ((padded 4 n).toList ++ '-' :: rest).length ((padded 4 n).toList ++ '-' :: rest) =
      some (n, '-' :: rest) := by
  have hhyphen : ¬('-'.isDigit = true) := by decide
  rw [number?_append (fun c => isDigit_of_mem_padded) (padded_ne_nil 4 n) (by simp)
    (by simp [hhyphen]), digitsValue_padded]

theorem year?_yearText (year : Int) (rest : List Char) :
    year? (skipBlanks ((yearText year).toList ++ '-' :: rest)) = some (year, '-' :: rest) := by
  unfold yearText
  split
  · next h =>
    have hdigits : (Nat.toDigits 10 year.toNat).length ≤ 4 :=
      (Nat.length_toDigits_le_iff (by decide) (by decide)).mpr (by omega)
    rw [skipBlanks_padded]
    have hnumber := number?_padded hdigits ('-' :: rest)
    cases hp : (padded 4 year.toNat).toList with
    | nil => exact absurd hp (padded_ne_nil _ _)
    | cons c cs =>
      have hc : c.isDigit = true := isDigit_of_mem_padded (by rw [hp]; exact List.mem_cons_self)
      rw [hp] at hnumber
      have hyear : year? (c :: cs ++ '-' :: rest) =
          (number? 4 (c :: cs ++ '-' :: rest)).map fun r => ((r.1 : Int), r.2) := by
        unfold year?
        split
        · next heq => simp_all
        · next heq => simp_all
        · rfl
      rw [hyear, hnumber]
      simp only [Option.map_some, Int.toNat_of_nonneg h.1]
  · split
    · next h =>
      have hminus : ("-" ++ padded 4 year.natAbs).toList ++ '-' :: rest =
          '-' :: ((padded 4 year.natAbs).toList ++ '-' :: rest) := by simp
      have hvalue : -(year.natAbs : Int) = year := by omega
      rw [hminus, skipBlanks_cons (by decide), year?, number?_signed, Option.map_some]
      dsimp only
      rw [hvalue]
    · next h _ =>
      have hplus : ("+" ++ padded 4 year.natAbs).toList ++ '-' :: rest =
          '+' :: ((padded 4 year.natAbs).toList ++ '-' :: rest) := by simp
      have hvalue : (year.natAbs : Int) = year := by omega
      rw [hplus, skipBlanks_cons (by decide), year?, number?_signed, Option.map_some]
      dsimp only
      rw [hvalue]

/-- Decimals are read back where the zone follows. -/
theorem fraction?_fractionText {nano : Nat} (h : nano < 1000000000) :
    fraction? ((fractionText nano).toList ++ ['Z']) = some (nano, ['Z']) := by
  have hpadded {width n : Nat} (hw : 0 < width) (hle : width ≤ 9) (hn : n < 10 ^ width) :
      fraction? (("." ++ padded width n).toList ++ ['Z']) =
        some (n * 10 ^ (9 - width), ['Z']) := by
    have hlen := length_padded ((Nat.length_toDigits_le_iff (by decide) hw).mpr hn)
    have htake : ((padded width n).toList ++ ['Z']).takeWhile Char.isDigit =
        (padded width n).toList := by
      rw [List.takeWhile_append_of_pos fun c => isDigit_of_mem_padded]
      simp
    have hpoint : ("." ++ padded width n).toList ++ ['Z'] =
        '.' :: ((padded width n).toList ++ ['Z']) := by simp
    rw [hpoint, fraction?, htake]
    simp [padded_ne_empty, List.take_of_length_le (Nat.le_trans (Nat.le_of_eq hlen) hle), hlen,
      digitsValue_padded]
  unfold fractionText
  split
  · next hzero =>
    subst hzero
    rfl
  · split
    · rw [hpadded (by decide) (by decide) (by omega)]
      simp
      omega
    · split
      · rw [hpadded (by decide) (by decide) (by omega)]
        simp
        omega
      · rw [hpadded (by decide) (by decide) (by omega)]
        simp

/-- A padded number of two digits is read back after any blanks. -/
theorem number?_two {n : Nat} (hn : n < 100) (rest : List Char) :
    number? 2 (skipBlanks ((padded 2 n).toList ++ rest)) = some (n, rest) := by
  rw [skipBlanks_padded]
  exact number?_padded ((Nat.length_toDigits_le_iff (by decide) (by decide)).mpr (by omega)) rest

/-- A mark is read where it stands. -/
theorem mark?_self {c : Char} (hc : isBlank c = false) (rest : List Char) :
    mark? c (skipBlanks (c :: rest)) = some rest := by
  rw [skipBlanks_cons hc, mark?, if_pos rfl]

/-- In universal time the local time is the time. -/
theorem ofLocal?_zero (t : Timestamp) :
    ofLocal? t.date t.hour t.minute t.second t.nano 0 = some t := by
  have hrange := t.in_range
  have hhour : (60 * (t.hour : Int) + t.minute - 0) % 1440 = 60 * t.hour + t.minute := by omega
  have hdiv : (60 * (t.hour : Int) + t.minute).toNat / 60 = t.hour := by omega
  have hmod : (60 * (t.hour : Int) + t.minute).toNat % 60 = t.minute := by omega
  unfold ofLocal?
  rw [if_neg (by omega), if_neg (by omega)]
  simp only [Option.bind_eq_bind, Option.bind_some, hhour, hdiv, hmod]
  rw [dif_pos hrange]

/-- The text of a timestamp stands for it. -/
theorem ofText?_text (t : Timestamp) : ofText? t.text = some t := by
  have htext : t.text.toList = (yearText t.date.year).toList ++ '-' ::
      ((padded 2 t.date.month).toList ++ '-' :: ((padded 2 t.date.day).toList ++ 'T' ::
        ((padded 2 t.hour).toList ++ ':' :: ((padded 2 t.minute).toList ++ ':' ::
          ((padded 2 t.second).toList ++ ((fractionText t.nano).toList ++ ['Z'])))))) := by
    simp [text]
  obtain ⟨-, ⟨-, hmonth⟩, -, hday⟩ := t.date.exists_in_calendar
  obtain ⟨hhour, hminute, hsecond, hnano⟩ := t.in_range
  have hdays : daysInMonth t.date.year t.date.month ≤ 31 := by
    unfold daysInMonth
    repeat' split
    all_goals decide
  have hhyphen := fun rest => mark?_self (c := '-') (by decide) rest
  have hcolon := fun rest => mark?_self (c := ':') (by decide) rest
  have hseparator : ∀ rest, separator? ('T' :: rest) = some rest := fun _ => rfl
  have hzone : zone? (skipBlanks ['Z']) = some (0, []) := rfl
  have hguard : (guard (t.hour < 24 ∧ t.minute < 60) : Option Unit) = some () :=
    if_pos ⟨hhour, hminute⟩
  rw [ofText?, htext, ofChars?, year?_yearText]
  dsimp only [Option.bind_eq_bind, Option.bind_some]
  rw [hhyphen, Option.bind_some, number?_two (by omega)]
  dsimp only [Option.bind_some]
  rw [hhyphen, Option.bind_some, number?_two (by omega)]
  dsimp only [Option.bind_some]
  rw [hseparator, Option.bind_some, number?_two (by omega)]
  dsimp only [Option.bind_some]
  rw [hcolon, Option.bind_some, number?_two (by omega)]
  dsimp only [Option.bind_some]
  rw [hcolon, Option.bind_some, number?_two (by omega)]
  dsimp only [Option.bind_some]
  rw [fraction?_fractionText hnano]
  dsimp only [Option.bind_some]
  rw [hzone]
  dsimp only [Option.bind_some]
  rw [Date.of?_parts, Option.bind_some, hguard, Option.bind_some, ofLocal?_zero]
  rfl

end EbmsMessaging.Timestamp
