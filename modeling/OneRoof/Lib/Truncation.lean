import Mathlib.Algebra.Order.Floor.Ring
import Mathlib.Data.Rat.Floor
import Mathlib.Tactic.Linarith

/-!
# Quotients that are cut towards zero

A number in units of another, with a remainder that has its sign and is smaller than the unit.
The last result says which corrections of a number leave its units as they are.
-/

namespace Truncation

/-- A number without its fractional part. -/
def toward (q : ℚ) : Int := if q < 0 then ⌈q⌉ else ⌊q⌋

theorem toward_div (a : Int) {b : Nat} (pos : 0 < b) : toward (a / b) = a.tdiv b := by
  have positive : (0 : ℚ) < b := by exact_mod_cast pos
  have sign : (a / b : ℚ) < 0 ↔ a < 0 := by
    rw [div_lt_iff₀ positive, zero_mul]
    exact_mod_cast Iff.rfl
  unfold toward
  by_cases negative : a < 0
  · rw [if_pos (sign.mpr negative), Rat.ceil_intCast_div_natCast,
      ← Int.tdiv_eq_ediv_of_nonneg (by omega), Int.neg_tdiv, neg_neg]
  · rw [if_neg (fun h => negative (sign.mp h)), Rat.floor_intCast_div_natCast,
      Int.tdiv_eq_ediv_of_nonneg (by omega)]

/-- Units of units. -/
theorem tdiv_tdiv (a : Int) {b c : Int} (hb : 0 ≤ b) : (a.tdiv b).tdiv c = a.tdiv (b * c) := by
  have nonneg : ∀ n : Int, 0 ≤ n → (n.tdiv b).tdiv c = n.tdiv (b * c) := by
    intro n hn
    rw [Int.tdiv_eq_ediv_of_nonneg (Int.tdiv_nonneg hn hb), Int.tdiv_eq_ediv_of_nonneg hn,
      Int.tdiv_eq_ediv_of_nonneg hn, Int.ediv_ediv_of_nonneg hb]
  rcases le_total 0 a with sign | sign
  · exact nonneg a sign
  · have opposite := nonneg (-a) (by omega)
    rwa [Int.neg_tdiv, Int.neg_tdiv, Int.neg_tdiv, neg_inj] at opposite

/-- `q` is `d` units of `b` and `r` beyond them. -/
structure Splits (b q d r : Int) : Prop where
  whole : b * d + r = q
  small : |r| < b
  nonneg : 0 ≤ q → 0 ≤ d ∧ 0 ≤ r
  nonpos : q ≤ 0 → d ≤ 0 ∧ r ≤ 0

variable {a b d q r z : Int}

theorem splits_tdiv (pos : 0 < b) (q : Int) : Splits b q (q.tdiv b) (q.tmod b) where
  whole := Int.mul_tdiv_add_tmod q b
  small := by
    have bound := Int.natAbs_tmod q b
    have := Nat.mod_lt q.natAbs (show 0 < b.natAbs by omega)
    rw [abs_lt]
    omega
  nonneg h := ⟨Int.tdiv_nonneg h pos.le, Int.tmod_nonneg b h⟩
  nonpos h := by
    have quotient := Int.tdiv_nonneg (a := -q) (by omega) pos.le
    have rest := Int.tmod_nonneg (a := -q) b (by omega)
    rw [Int.neg_tdiv] at quotient
    rw [Int.neg_tmod] at rest
    omega

/-- Multiples of `b` that are less than `b` apart are equal. -/
theorem eq_of_close {d' : Int} (above : b * d < b * d' + b) (below : b * d' < b * d + b) :
    d = d' := by
  have pos : 0 < b := by linarith
  rcases lt_trichotomy d d' with less | same | more
  · have : b * (d + 1) ≤ b * d' := by gcongr; omega
    linarith
  · exact same
  · have : b * (d' + 1) ≤ b * d := by gcongr; omega
    linarith

theorem Splits.unique {d' r' : Int} (h : Splits b q d r) (h' : Splits b q d' r') :
    d = d' ∧ r = r' := by
  obtain ⟨whole, small, nonneg, nonpos⟩ := h
  obtain ⟨whole', small', nonneg', nonpos'⟩ := h'
  rw [abs_lt] at small small'
  have close : r' - r < b ∧ r - r' < b := by
    rcases le_total 0 q with sign | sign
    · have := nonneg sign
      have := nonneg' sign
      omega
    · have := nonpos sign
      have := nonpos' sign
      omega
  obtain rfl : d = d' := eq_of_close (b := b) (by linarith) (by linarith)
  exact ⟨rfl, by linarith⟩

/-- The quotient and the remainder are the only ones. -/
theorem splits_iff (pos : 0 < b) : Splits b q d r ↔ d = q.tdiv b ∧ r = q.tmod b := by
  constructor
  · intro splits
    exact splits.unique (splits_tdiv pos q)
  · rintro ⟨rfl, rfl⟩
    exact splits_tdiv pos q

/-- A correction leaves the units as they are: the remainder takes it without being used up. -/
theorem tdiv_sub_eq_iff (pos : 0 < b) : (a - z).tdiv b = a.tdiv b ↔
    |a.tmod b - z| < b ∧ (b ≤ a → 0 ≤ a.tmod b - z) ∧ (a ≤ -b → a.tmod b - z ≤ 0) := by
  have split := splits_tdiv pos a
  generalize a.tdiv b = d, a.tmod b = r at split ⊢
  obtain ⟨whole, small, nonneg, nonpos⟩ := split
  rw [abs_lt] at small
  have up : 0 < d → b ≤ b * d := fun h => le_mul_of_one_le_right pos.le h
  have down : d < 0 → b * d ≤ -b := fun h => by
    have : b * d ≤ b * (-1) := by gcongr; omega
    linarith
  constructor
  · intro same
    obtain ⟨whole', small', nonneg', nonpos'⟩ := splits_tdiv pos (a - z)
    have rest : (a - z).tmod b = r - z := by
      rw [same] at whole'
      linarith
    rw [rest] at small' nonneg' nonpos'
    rw [same] at nonneg' nonpos'
    refine ⟨small', fun large => ?_, fun large => ?_⟩
    · by_contra negative
      have : d ≤ 0 := by omega
      have : b * d ≤ 0 := mul_nonpos_of_nonneg_of_nonpos pos.le this
      omega
    · by_contra positive
      have : 0 ≤ d := by omega
      have : 0 ≤ b * d := mul_nonneg pos.le this
      omega
  · rintro ⟨close, above, below⟩
    have bounds := abs_lt.mp close
    have bounds := abs_lt.mp close
    have split : Splits b (a - z) d (r - z) := by
      rcases lt_trichotomy d 0 with negative | rfl | positive
      · have := down negative
        exact ⟨by linarith, close, by omega, by omega⟩
      · exact ⟨by linarith, close, by omega, by omega⟩
      · have := up positive
        exact ⟨by linarith, close, by omega, by omega⟩
    exact ((splits_iff pos).mp split).1.symm

end Truncation
