import Mathlib.Tactic.IntervalCases
import Mathlib.Algebra.Order.Floor.Ring
import Mathlib.Data.Rat.Floor

/-!
# Hexadecimal digits of fixed width

A number below `16 ^ w` is printed with exactly `w` digits when `16 ^ w` is added to it
and the leading one is dropped. Numbers that print alike are equal, so that texts made
of such groups tell the numbers of each group.
-/

namespace Hex

/-- The `w` lowest digits of a number, the highest first. -/
def padded : Nat → Nat → List Char
  | 0, _ => []
  | w + 1, n => padded w (n / 16) ++ [(n % 16).digitChar]

def IsLower (c : Char) : Prop := '0' ≤ c ∧ c ≤ '9' ∨ 'a' ≤ c ∧ c ≤ 'f'

instance (c : Char) : Decidable (IsLower c) := inferInstanceAs (Decidable (_ ∨ _))

theorem digitChar_lower {d : Nat} (small : d < 16) : IsLower d.digitChar := by
  interval_cases d <;> decide

/-- Lower-case digits are not changed by the change to lower case. -/
theorem toLower_eq {c : Char} (lower : IsLower c) : c.toLower = c := by
  have large : ¬ (c ≥ 'A' ∧ c ≤ 'Z') := by
    rintro ⟨low, high⟩
    rcases lower with ⟨-, digit⟩ | ⟨letter, -⟩
    · exact absurd (Char.le_trans low digit) (by decide)
    · exact absurd (Char.le_trans letter high) (by decide)
  exact dif_neg large

theorem digitChar_inj {d e : Nat} (hd : d < 16) (he : e < 16) (same : d.digitChar = e.digitChar) :
    d = e := by
  have table : ∀ d : Fin 16, ∀ e : Fin 16, (d : Nat).digitChar = (e : Nat).digitChar → d = e := by
    decide
  exact congrArg Fin.val (table ⟨d, hd⟩ ⟨e, he⟩ same)

@[simp] theorem length_padded (w n : Nat) : (padded w n).length = w := by
  induction w generalizing n with
  | zero => rfl
  | succ w ih => simp [padded, ih]

theorem padded_lower (w n : Nat) : ∀ c ∈ padded w n, IsLower c := by
  induction w generalizing n with
  | zero => simp [padded]
  | succ w ih =>
    intro c hc
    rcases List.mem_append.mp hc with high | low
    · exact ih _ c high
    · rw [List.mem_singleton.mp low]
      exact digitChar_lower (by omega)

/-- Digits of one width tell the number. -/
theorem padded_inj {w m n : Nat} (hm : m < 16 ^ w) (hn : n < 16 ^ w)
    (same : padded w m = padded w n) : m = n := by
  induction w generalizing m n with
  | zero => omega
  | succ w ih =>
    have high_low := List.append_inj same (by simp)
    have high : m / 16 = n / 16 := by
      refine ih ?_ ?_ high_low.1
      · rw [pow_succ] at hm
        omega
      · rw [pow_succ] at hn
        omega
    have low : m % 16 = n % 16 :=
      digitChar_inj (by omega) (by omega) (List.singleton_inj.mp high_low.2)
    omega

/-- The one in front keeps the leading zeros. -/
theorem toDigits_eq {w n : Nat} (small : n < 16 ^ w) :
    Nat.toDigits 16 (16 ^ w + n) = '1' :: padded w n := by
  induction w generalizing n with
  | zero =>
    obtain rfl : n = 0 := by omega
    rfl
  | succ w ih =>
    have power : 16 ^ (w + 1) = 16 * 16 ^ w := by rw [pow_succ, mul_comm]
    have positive : 0 < 16 ^ w := by positivity
    have quotient : (16 ^ (w + 1) + n) / 16 = 16 ^ w + n / 16 := by omega
    have remainder : (16 ^ (w + 1) + n) % 16 = n % 16 := by omega
    rw [Nat.toDigits_of_base_le (by omega) (by omega), quotient, remainder, ih (by omega)]
    rfl

end Hex
