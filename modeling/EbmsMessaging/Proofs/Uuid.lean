import EbmsMessaging.Envelope.Agreement
import Mathlib.Algebra.Group.Nat.Defs

/-!
# Different draws, different texts

The text of a random identifier shows all its random bits at fixed places and always has the same
length. So message identifiers with different random parts differ, whatever their domains are.
-/
namespace EbmsMessaging

namespace Uuid

theorem hexDigit_inj {m n : Nat} (hm : m < 16) (hn : n < 16) (h : hexDigit m = hexDigit n) :
    m = n := by
  have hall : ∀ i < 16, ∀ j < 16, hexDigit i = hexDigit j → i = j := by decide
  exact hall m hm n hn h

/-- Digits tell the last places of a number. -/
theorem mod_eq_of_hexDigits_eq {width m n : Nat} (h : hexDigits width m = hexDigits width n) :
    m % 16 ^ width = n % 16 ^ width := by
  induction width generalizing m n with
  | zero => simp [Nat.mod_one]
  | succ width ih =>
    obtain ⟨hrest, hlast⟩ := List.append_inj' h rfl
    have hhigh := ih hrest
    have hlow := hexDigit_inj (Nat.mod_lt _ (by decide)) (Nat.mod_lt _ (by decide))
      (List.singleton_inj.mp hlast)
    rw [Nat.pow_succ', Nat.mod_mul, Nat.mod_mul, hhigh, hlow]

/-- Behind the same text there are the same groups of digits. -/
theorem groups_eq_of_text_eq {u v : Uuid} (h : u.text = v.text) : u.groups = v.groups := by
  have hchars := String.ofList_injective h
  simp only [groups, List.intercalate, List.intersperse, List.flatten_cons, List.flatten_nil,
    List.append_nil] at hchars
  obtain ⟨h₁, hchars⟩ := List.append_inj hchars (by simp)
  obtain ⟨-, hchars⟩ := List.append_inj hchars rfl
  obtain ⟨h₂, hchars⟩ := List.append_inj hchars (by simp)
  obtain ⟨-, hchars⟩ := List.append_inj hchars rfl
  obtain ⟨h₃, hchars⟩ := List.append_inj hchars (by simp)
  obtain ⟨-, hchars⟩ := List.append_inj hchars rfl
  obtain ⟨h₄, hchars⟩ := List.append_inj hchars (by simp)
  obtain ⟨-, h₅⟩ := List.append_inj hchars rfl
  simp only [groups, h₁, h₂, h₃, h₄, h₅]

theorem text_injective : Function.Injective text := by
  intro u v h
  obtain ⟨⟨m, hm⟩⟩ := u
  obtain ⟨⟨n, hn⟩⟩ := v
  have hgroups := groups_eq_of_text_eq h
  simp only [groups, List.cons.injEq, and_true] at hgroups
  obtain ⟨h₁, h₂, ⟨-, h₃⟩, ⟨h₄, h₅⟩, h₆⟩ := hgroups
  replace h₁ := mod_eq_of_hexDigits_eq h₁
  replace h₂ := mod_eq_of_hexDigits_eq h₂
  replace h₃ := mod_eq_of_hexDigits_eq h₃
  replace h₄ := hexDigit_inj (by omega) (by omega) h₄
  replace h₅ := mod_eq_of_hexDigits_eq h₅
  replace h₆ := mod_eq_of_hexDigits_eq h₆
  simp only [Nat.shiftRight_eq_div_pow, Nat.reducePow] at h₁ h₂ h₃ h₄ h₅ h₆
  simp only [Nat.shiftLeft_eq, Nat.one_mul, Nat.reducePow] at hm hn
  have heq : m = n := by omega
  simp [heq]

theorem length_text (u : Uuid) : u.text.toList.length = 36 := by
  simp [text, groups, List.intercalate, List.intersperse]

end Uuid

/-- The random part of a message identifier can be told from it. -/
theorem messageIdOf_inj {u v : Uuid} {domain domain' : String}
    (h : messageIdOf u domain = messageIdOf v domain') : u = v := by
  have hchars := congrArg String.toList h
  simp only [messageIdOf, String.toList_append, List.append_assoc] at hchars
  have htext := (List.append_inj hchars (u.length_text.trans v.length_text.symm)).1
  exact Uuid.text_injective (String.toList_inj.mp htext)

end EbmsMessaging
