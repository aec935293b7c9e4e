import EbmsMessaging.Json.Lexical

/-!
# Quoted text

A string is written between quotes. Quotes, backslashes and the characters below U+0020 are escaped;
all other characters stand for themselves in UTF-8. A reader also takes escapes for characters that
need none, among them pairs of surrogates for the characters above U+FFFF. Strings that are only
passed over need not be UTF-8, and their escapes may name lone surrogates.
-/
namespace EbmsMessaging.Json

/-- The octet that a one-letter escape stands for. -/
def plainEscape? : UInt8 → Option UInt8
  | 0x22 => some 0x22
  | 0x5C => some 0x5C
  | 0x2F => some 0x2F
  | 0x62 => some 0x08
  | 0x66 => some 0x0C
  | 0x6E => some 0x0A
  | 0x72 => some 0x0D
  | 0x74 => some 0x09
  | _ => none

def hexDigit? (b : UInt8) : Option Nat :=
  if 0x30 ≤ b ∧ b ≤ 0x39 then some (b.toNat - 0x30)
  else if 0x41 ≤ b ∧ b ≤ 0x46 then some (b.toNat - 0x37)
  else if 0x61 ≤ b ∧ b ≤ 0x66 then some (b.toNat - 0x57)
  else none

/-- The number that four hexadecimal digits stand for. -/
def fourDigits : Bytes → Except Fault (Nat × Bytes)
  | a :: b :: c :: d :: rest =>
    match hexDigit? a, hexDigit? b, hexDigit? c, hexDigit? d with
    | some a, some b, some c, some d => .ok (((a * 16 + b) * 16 + c) * 16 + d, rest)
    | _, _, _, _ => .error .malformed
  | _ => .error .truncated

/-- The character of a leading surrogate and the trailing one that has to follow it. -/
def surrogatePair (high : Nat) : Bytes → Except Fault (Char × Bytes)
  | [] => .error .truncated
  | b :: rest =>
    if b ≠ backslash then .error .malformed
    else match rest with
      | [] => .error .truncated
      | u :: rest =>
        if u ≠ 0x75 then .error .malformed
        else do
          let (low, rest) ← fourDigits rest
          if 0xDC00 ≤ low ∧ low ≤ 0xDFFF then
            .ok (Char.ofNat ((high - 0xD800) * 0x400 + (low - 0xDC00) + 0x10000), rest)
          else .error .malformed

/-- The character of a numbered escape, after its letter. -/
def numberedEscape (input : Bytes) : Except Fault (Char × Bytes) := do
  let (n, rest) ← fourDigits input
  if 0xDC00 ≤ n ∧ n ≤ 0xDFFF then .error .malformed
  else if 0xD800 ≤ n ∧ n ≤ 0xDBFF then surrogatePair n rest
  else .ok (Char.ofNat n, rest)

/-- The octets of an escape, after its backslash. -/
def escape : Bytes → Except Fault (Bytes × Bytes)
  | [] => .error .truncated
  | b :: rest =>
    if b = 0x75 then do
      let (c, rest) ← numberedEscape rest
      .ok (Utf8.encodeChar c, rest)
    else match plainEscape? b with
      | some octet => .ok ([octet], rest)
      | none => .error .malformed

theorem length_of_fourDigits {input rest : Bytes} {n : Nat}
    (h : fourDigits input = .ok (n, rest)) : rest.length < input.length := by
  unfold fourDigits at h
  split at h
  · split at h
    · simp only [Except.ok.injEq, Prod.mk.injEq] at h
      obtain ⟨-, rfl⟩ := h
      simp only [List.length_cons]
      omega
    · simp at h
  · simp at h

theorem length_of_surrogatePair {high : Nat} {input rest : Bytes} {c : Char}
    (h : surrogatePair high input = .ok (c, rest)) : rest.length < input.length := by
  unfold surrogatePair at h
  split at h
  · simp at h
  · split at h
    · simp at h
    · split at h
      · simp at h
      · split at h
        · simp at h
        · next u tail _ =>
          cases hd : fourDigits tail with
          | error e => simp [hd, bind, Except.bind] at h
          | ok r =>
            obtain ⟨low, more⟩ := r
            have := length_of_fourDigits hd
            simp only [hd, bind, Except.bind] at h
            split at h
            · simp only [Except.ok.injEq, Prod.mk.injEq] at h
              obtain ⟨-, rfl⟩ := h
              simp only [List.length_cons]
              omega
            · simp at h

theorem length_of_numberedEscape {input rest : Bytes} {c : Char}
    (h : numberedEscape input = .ok (c, rest)) : rest.length < input.length := by
  unfold numberedEscape at h
  cases hd : fourDigits input with
  | error e => simp [hd, bind, Except.bind] at h
  | ok r =>
    obtain ⟨n, tail⟩ := r
    have := length_of_fourDigits hd
    simp only [hd, bind, Except.bind] at h
    split at h
    · simp at h
    · split at h
      · have := length_of_surrogatePair h
        omega
      · simp only [Except.ok.injEq, Prod.mk.injEq] at h
        obtain ⟨-, rfl⟩ := h
        assumption

/-- An escape takes up at least one octet. -/
theorem length_of_escape {input octets rest : Bytes}
    (h : escape input = .ok (octets, rest)) : rest.length < input.length := by
  unfold escape at h
  split at h
  · simp at h
  · next b tail =>
    split at h
    · cases hd : numberedEscape tail with
      | error e => simp [hd, bind, Except.bind] at h
      | ok r =>
        obtain ⟨c, more⟩ := r
        have := length_of_numberedEscape hd
        simp only [hd, bind, Except.bind, Except.ok.injEq, Prod.mk.injEq] at h
        obtain ⟨-, rfl⟩ := h
        simp only [List.length_cons]
        omega
    · split at h
      · simp only [Except.ok.injEq, Prod.mk.injEq] at h
        obtain ⟨-, rfl⟩ := h
        simp
      · simp at h

/-- The octets of a string up to its closing quote, after those in `before`, which are reversed. -/
def quotedOctets (before : Bytes) (input : Bytes) : Except Fault (Bytes × Bytes) :=
  match input with
  | [] => .error .truncated
  | b :: rest =>
    if b = quote then .ok (before.reverse, rest)
    else if b = backslash then
      match _h : escape rest with
      | .error e => .error e
      | .ok (octets, rest') => quotedOctets (octets.reverse ++ before) rest'
    else if b < 0x20 then .error .malformed
    else quotedOctets (b :: before) rest
termination_by input.length
decreasing_by
  · have := length_of_escape _h
    simp only [List.length_cons]
    omega
  · simp

/-- A string after its opening quote. -/
def quoted (input : Bytes) : Except Fault (String × Bytes) := do
  let (octets, rest) ← quotedOctets [] input
  match Utf8.decode? octets with
  | some s => .ok (s, rest)
  | none => .error .malformed

/-- What follows a string that is passed over, after its opening quote. -/
def skipQuoted (input : Bytes) : Except Fault Bytes :=
  match input with
  | [] => .error .truncated
  | b :: rest =>
    if b = quote then .ok rest
    else if b = backslash then
      match rest with
      | [] => .error .truncated
      | u :: rest =>
        if u = 0x75 then
          match _h : fourDigits rest with
          | .error e => .error e
          | .ok (_, rest') => skipQuoted rest'
        else if (plainEscape? u).isSome then skipQuoted rest
        else .error .malformed
    else if b < 0x20 then .error .malformed
    else skipQuoted rest
termination_by input.length
decreasing_by
  · have := length_of_fourDigits _h
    simp only [List.length_cons]
    omega
  · simp only [List.length_cons]
    omega
  · simp

/-- The lower-case hexadecimal digit for a number below 16. -/
def hexDigit (n : Nat) : UInt8 := (if n < 10 then 0x30 + n else 0x57 + n).toUInt8

/-- The letter of the one-letter escape that is written for a character. -/
def escapeLetter? (c : Char) : Option UInt8 :=
  match c.toNat with
  | 0x22 => some 0x22
  | 0x5C => some 0x5C
  | 0x08 => some 0x62
  | 0x0C => some 0x66
  | 0x0A => some 0x6E
  | 0x0D => some 0x72
  | 0x09 => some 0x74
  | _ => none

/-- The written form of one character inside a string. -/
def writeChar (c : Char) : Bytes :=
  match escapeLetter? c with
  | some letter => [backslash, letter]
  | none =>
    if c.toNat < 0x20 then
      [backslash, 0x75, 0x30, 0x30, hexDigit (c.toNat / 16), hexDigit (c.toNat % 16)]
    else Utf8.encodeChar c

/-- The written form of a string. -/
def writeString (s : String) : Bytes := quote :: s.toList.flatMap writeChar ++ [quote]

end EbmsMessaging.Json
