import EbmsMessaging.Proofs.Json.RoundTrip

/-!
# What is written shows

Control characters are escaped inside of strings and written nowhere else. So no octet of a written
value ends a line.
-/
namespace EbmsMessaging.Json

/-- Not the octet of a control character. -/
def Shows (b : UInt8) : Prop := 0x20 ≤ b.toNat

instance : DecidablePred Shows := fun b => inferInstanceAs (Decidable (0x20 ≤ b.toNat))

theorem shows_of_isDigit {b : UInt8} (h : isDigit b = true) : Shows b := by
  have hle : 0x30 ≤ b := by
    simp only [isDigit, Bool.and_eq_true, decide_eq_true_eq] at h
    exact h.1
  have hnat : 0x30 ≤ b.toNat := UInt8.le_iff_toNat_le.mp hle
  exact Nat.le_trans (by decide) hnat

theorem shows_of_escapeLetter? {c : Char} {letter : UInt8} (h : escapeLetter? c = some letter) :
    Shows letter := by
  unfold escapeLetter? at h
  split at h
  all_goals
    first
    | (obtain rfl := Option.some.inj h
       decide)
    | simp at h

theorem shows_hexDigit {n : Nat} (h : n < 16) : Shows (hexDigit n) := by
  revert n
  decide

theorem shows_of_mem_writeChar {c : Char} {b : UInt8} (hb : b ∈ writeChar c) : Shows b := by
  unfold writeChar at hb
  split at hb
  · next letter hletter =>
    simp only [List.mem_cons, List.not_mem_nil, or_false] at hb
    rcases hb with rfl | rfl
    · decide
    · exact shows_of_escapeLetter? hletter
  · next hletter =>
    split at hb
    · next hlow =>
      simp only [List.mem_cons, List.not_mem_nil, or_false] at hb
      rcases hb with rfl | rfl | rfl | rfl | rfl | rfl
      · decide
      · decide
      · decide
      · decide
      · exact shows_hexDigit (by omega)
      · exact shows_hexDigit (by omega)
    · next hlow =>
      have hplain := isPlain_of_mem_encodeChar hletter hlow hb
      have hnlt := hplain.2.2
      rw [UInt8.lt_iff_toNat_lt] at hnlt
      exact Nat.le_of_not_lt hnlt

theorem shows_of_mem_writeString {s : String} {b : UInt8} (hb : b ∈ writeString s) : Shows b := by
  simp only [writeString, List.cons_append, List.mem_cons, List.mem_append, List.mem_flatMap,
    List.not_mem_nil, or_false] at hb
  rcases hb with rfl | ⟨c, -, hb⟩ | rfl
  · decide
  · exact shows_of_mem_writeChar hb
  · decide

theorem shows_of_mem_separated {pieces : List Bytes} (h : ∀ p ∈ pieces, ∀ b ∈ p, Shows b)
    {b : UInt8} (hb : b ∈ separated pieces) : Shows b := by
  cases pieces with
  | nil => simp [separated] at hb
  | cons p ps =>
    obtain ⟨hp, hps⟩ := List.forall_mem_cons.mp h
    rw [separated_cons, List.mem_append, List.mem_flatMap] at hb
    rcases hb with hb | ⟨q, hq, hb⟩
    · exact hp b hb
    · rcases List.mem_cons.mp hb with rfl | hb
      · decide
      · exact hps q hq b hb

theorem shows_of_mem_writeHeld {α : Type} {value : α → Bytes} (h : ∀ a, ∀ b ∈ value a, Shows b)
    {rule : Rule} {held : rule.Held α} {written : Bytes}
    (hw : writeHeld value rule held = some written) {b : UInt8} (hb : b ∈ written) : Shows b := by
  cases rule with
  | required =>
    obtain rfl := Option.some.inj hw
    exact h _ b hb
  | defaulted =>
    obtain ⟨a, -, rfl⟩ := Option.map_eq_some_iff.mp hw
    exact h a b hb
  | optional =>
    obtain ⟨a, -, rfl⟩ := Option.map_eq_some_iff.mp hw
    exact h a b hb
  | nullable _ =>
    obtain rfl := Option.some.inj hw
    cases held with
    | none =>
      have hnull : ∀ b ∈ null, Shows b := by simp [null, Shows]
      exact hnull b hb
    | some a => exact h a b hb

mutual

/-- No octet of a written value is that of a control character. -/
theorem shows_of_mem_write (shape : Shape) (value : shape.Value) {b : UInt8}
    (hb : b ∈ write shape value) : Shows b := by
  cases shape with
  | text => exact shows_of_mem_writeString hb
  | octet => exact shows_of_isDigit (isDigit_of_mem_writeNumber hb)
  | word => exact shows_of_isDigit (isDigit_of_mem_writeNumber hb)
  | instant => exact shows_of_mem_writeString hb
  | list item =>
    rw [write, List.cons_append, List.mem_cons, List.mem_append, List.mem_singleton] at hb
    rcases hb with rfl | hb | rfl
    · decide
    · refine shows_of_mem_separated (fun p hp b hb => ?_) hb
      obtain ⟨v, -, rfl⟩ := List.mem_map.mp hp
      exact shows_of_mem_write item v hb
    · decide
  | record fields =>
    rw [write, List.cons_append, List.mem_cons, List.mem_append, List.mem_singleton] at hb
    rcases hb with rfl | hb | rfl
    · decide
    · exact shows_of_mem_separated (fun p hp b hb => shows_of_mem_writeMembers fields value hp hb) hb
    · decide

theorem shows_of_mem_writeMembers (fields : Fields) (values : fields.Values) {p : Bytes}
    (hp : p ∈ writeMembers fields values) {b : UInt8} (hb : b ∈ p) : Shows b := by
  cases fields with
  | nil => simp [writeMembers] at hp
  | cons name rule shape rest =>
    obtain ⟨held, values⟩ := values
    rw [writeMembers] at hp
    cases hw : writeHeld (write shape) rule held with
    | none =>
      rw [hw] at hp
      exact shows_of_mem_writeMembers rest values hp hb
    | some written =>
      rw [hw] at hp
      rcases List.mem_cons.mp hp with rfl | hp
      · rcases List.mem_append.mp hb with hb | hb
        · exact shows_of_mem_writeString hb
        rcases List.mem_cons.mp hb with rfl | hb
        · decide
        · exact shows_of_mem_writeHeld (fun v b hb => shows_of_mem_write shape v hb) hw hb
      · exact shows_of_mem_writeMembers rest values hp hb

end

theorem shows_of_mem_render {α : Type} [Schematic α] (a : α) {b : UInt8} (hb : b ∈ render a) :
    Shows b :=
  shows_of_mem_write _ _ hb

end EbmsMessaging.Json
