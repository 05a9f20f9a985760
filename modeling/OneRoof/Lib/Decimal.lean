import Mathlib.Data.Rat.Floor
import Mathlib.Tactic.IntervalCases

/-!
# Decimal numerals at the front of a text

The longest prefix that reads as a decimal numeral, with its value and what
follows it. Readers that stop at the first foreign character and readers that
insist on the whole text are both built from this scan. A whole number that is
printed reads as itself.
-/

namespace Decimal

def natOf (ds : List Char) : Nat :=
  ds.foldl (fun n c => 10 * n + (c.toNat - '0'.toNat)) 0

def sign : List Char → Int × List Char
  | '-' :: cs => (-1, cs)
  | '+' :: cs => (1, cs)
  | cs => (1, cs)

/-- `e` and its digits, when there is at least one of them. -/
def exponent (cs : List Char) : Int × List Char :=
  match cs with
  | c :: rest =>
    if (c = 'e' ∨ c = 'E') ∧ (sign rest).2.takeWhile Char.isDigit ≠ [] then
      ((sign rest).1 * natOf ((sign rest).2.takeWhile Char.isDigit),
        (sign rest).2.dropWhile Char.isDigit)
    else (0, cs)
  | [] => (0, [])

/-- The digits after a decimal point. -/
def fraction (cs : List Char) : List Char × List Char :=
  match cs with
  | '.' :: rest => (rest.takeWhile Char.isDigit, rest.dropWhile Char.isDigit)
  | cs => ([], cs)

def scale (m : ℚ) (e : Int) : ℚ :=
  if 0 ≤ e then m * (10 ^ e.toNat : Nat) else m / (10 ^ (-e).toNat : Nat)

def scan (cs : List Char) : Option (ℚ × List Char) :=
  let s := sign cs
  let whole := s.2.takeWhile Char.isDigit
  let f := fraction (s.2.dropWhile Char.isDigit)
  if whole = [] ∧ f.1 = [] then none
  else
    let e := exponent f.2
    some (scale (s.1 * natOf (whole ++ f.1)) (e.1 - f.1.length), e.2)

/-- The whole number of a text with a sign. -/
def intOf (cs : List Char) : Int := (sign cs).1 * natOf (sign cs).2

theorem natOf_append (ds : List Char) (c : Char) :
    natOf (ds ++ [c]) = 10 * natOf ds + (c.toNat - '0'.toNat) := by
  simp [natOf]

theorem digitChar_value {d : Nat} (small : d < 10) : d.digitChar.toNat - '0'.toNat = d := by
  interval_cases d <;> rfl

theorem natOf_toDigits (n : Nat) : natOf (Nat.toDigits 10 n) = n := by
  induction n using Nat.strongRecOn with
  | ind n ih =>
    by_cases small : n < 10
    · rw [Nat.toDigits_of_lt_base small, ← List.nil_append [n.digitChar], natOf_append,
        digitChar_value small]
      simp [natOf]
    · rw [Nat.toDigits_of_base_le (by omega) (by omega), natOf_append, ih (n / 10) (by omega),
        digitChar_value (by omega)]
      omega

theorem sign_digits {ds : List Char} (all : ∀ c ∈ ds, c.isDigit = true) : sign ds = (1, ds) := by
  unfold sign
  split
  · exact absurd (all '-' List.mem_cons_self) (by decide)
  · exact absurd (all '+' List.mem_cons_self) (by decide)
  · rfl

/-- A number that is printed and read again. -/
theorem intOf_toString (n : Int) : intOf (toString n).toList = n := by
  cases n with
  | ofNat m =>
    have printed : toString (Int.ofNat m) = Nat.repr m := rfl
    have digits : ∀ c ∈ Nat.toDigits 10 m, c.isDigit = true := fun c mem =>
      Nat.isDigit_of_mem_toDigits (by decide) (by decide) mem
    rw [printed, Nat.repr, String.toList_ofList, intOf, sign_digits digits, natOf_toDigits, one_mul]
    rfl
  | negSucc m =>
    have printed : toString (Int.negSucc m) = "-" ++ Nat.repr (m + 1) := rfl
    simp only [printed, Nat.repr, String.toList_append, String.toList_ofList]
    change -1 * (natOf (Nat.toDigits 10 (m + 1)) : Int) = Int.negSucc m
    rw [natOf_toDigits]
    omega

theorem toString_inj {m n : Int} (same : toString m = toString n) : m = n := by
  rw [← intOf_toString m, same, intOf_toString]

example : scan "-12.50e1x".toList = some (-125, ['x']) := by decide +kernel

end Decimal
