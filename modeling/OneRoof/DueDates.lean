import OneRoof.Details
import OneRoof.Lib.Truncation

/-!
# When a task is due

`prettifyDue` of `feed.js` prints the days from now to the due date and the hours beyond
them. Both are differences of `moment.js`, which counts days by the clock on the wall and
hours by the time that passes.
-/

namespace OneRoof

open Truncation

/-- An instant in milliseconds, and the minutes the local clock is ahead of UTC at it. -/
structure Moment where
  time : Int
  utcOffset : Int
  deriving DecidableEq, Repr

/-- The units of `diff` but for months, quarters and years, which go by the calendar. -/
inductive DiffUnits where
  | millisecond | second | minute | hour | day | week

namespace Moment

def absFloor (number : ℚ) : Int := if number < 0 then ⌈number⌉ else ⌊number⌋

/-- How far the local clock was put back or forward between the two. -/
def zoneDelta (this that : Moment) : Int := (that.utcOffset - this.utcOffset) * 60000

def diff (this that : Moment) (units : DiffUnits) : Int :=
  let delta := this.time - that.time
  let output : ℚ := match units with
    | .second => (delta : ℚ) / 1000
    | .minute => (delta : ℚ) / 60000
    | .hour => (delta : ℚ) / 3600000
    | .day => ((delta - this.zoneDelta that : Int) : ℚ) / 86400000
    | .week => ((delta - this.zoneDelta that : Int) : ℚ) / 604800000
    | .millisecond => delta
  absFloor output

end Moment

/-- What the task list shows behind `Due:`. -/
def prettifyDue (now due : Moment) : String :=
  let daysDiff := due.diff now .day
  let hoursDiff := due.diff now .hour
  let hoursDiff := hoursDiff - daysDiff * 24
  toString daysDiff ++ "d " ++ toString hoursDiff ++ "h"

section Diff

variable (this that : Moment)

theorem absFloor_div (delta : Int) {b : Nat} (pos : 0 < b) :
    Moment.absFloor (delta / b) = delta.tdiv b :=
  toward_div delta pos

theorem diff_hour : this.diff that .hour = (this.time - that.time).tdiv 3600000 := by
  have quotient := absFloor_div (this.time - that.time) (b := 3600000) (by decide)
  rw [Nat.cast_ofNat, Nat.cast_ofNat] at quotient
  exact quotient

theorem diff_day :
    this.diff that .day = (this.time - that.time - this.zoneDelta that).tdiv 86400000 := by
  have quotient := absFloor_div (this.time - that.time - this.zoneDelta that) (b := 86400000)
    (by decide)
  rw [Nat.cast_ofNat, Nat.cast_ofNat] at quotient
  exact quotient

end Diff

section Text

/-- The text that shows `d` days and `h` hours. -/
def dueText (d h : Int) : String := toString d ++ "d " ++ toString h ++ "h"

theorem d_notMem_toString (n : Int) : 'd' ∉ (toString n).toList := by
  intro mem
  rcases toString_int_chars n mem with h | h <;> exact absurd h (by decide)

/-- The text tells its numbers. -/
theorem dueText_inj {d h d' h' : Int} (same : dueText d h = dueText d' h') : d = d' ∧ h = h' := by
  have chars := congrArg String.toList same
  simp only [dueText, String.toList_append, List.append_assoc] at chars
  have days : (toString d).toList ++ 'd' :: (' ' :: ((toString h).toList ++ ['h'])) =
      (toString d').toList ++ 'd' :: (' ' :: ((toString h').toList ++ ['h'])) := chars
  rw [List.append_cons_inj_of_notMem (d_notMem_toString d)
    (by simpa using d_notMem_toString h)] at days
  obtain ⟨first, -, rest⟩ := days
  have second := List.append_cancel_right (List.cons.inj rest).2
  exact ⟨Decimal.toString_inj (String.toList_inj.mp first),
    Decimal.toString_inj (String.toList_inj.mp second)⟩

end Text

/-- Days and hours make up the time that is left, both ahead of now or both behind it. -/
structure WellSplit (now due : Moment) (d h : Int) : Prop where
  hours : |h| < 24
  ahead : now.time ≤ due.time → 0 ≤ d ∧ 0 ≤ h
  behind : due.time ≤ now.time → d ≤ 0 ∧ h ≤ 0
  total : 24 * d + h = (due.time - now.time).tdiv 3600000

/-- The change of the local clock leaves the whole days as they are: what there is beyond them
stays less than a day and, where there are whole days, does not go to the other side. -/
def ClockHarmless (now due : Moment) : Prop :=
  |(due.time - now.time).tmod 86400000 - due.zoneDelta now| < 86400000 ∧
  (86400000 ≤ due.time - now.time →
    0 ≤ (due.time - now.time).tmod 86400000 - due.zoneDelta now) ∧
  (due.time - now.time ≤ -86400000 →
    (due.time - now.time).tmod 86400000 - due.zoneDelta now ≤ 0)

section Split

variable {now due : Moment} {d h : Int}

theorem wellSplit_iff :
    WellSplit now due d h ↔ Splits 24 ((due.time - now.time).tdiv 3600000) d h := by
  have ahead : now.time ≤ due.time → 0 ≤ (due.time - now.time).tdiv 3600000 := fun later =>
    Int.tdiv_nonneg (by omega) (by decide)
  have behind : due.time ≤ now.time → (due.time - now.time).tdiv 3600000 ≤ 0 := by
    intro earlier
    have opposite := Int.tdiv_nonneg (a := now.time - due.time) (b := 3600000) (by omega)
      (by decide)
    rw [← neg_sub, Int.neg_tdiv] at opposite
    omega
  constructor
  · rintro ⟨small, after, before, total⟩
    exact ⟨total, small, by omega, by omega⟩
  · rintro ⟨total, small, nonneg, nonpos⟩
    exact ⟨small, fun later => nonneg (ahead later), fun earlier => nonpos (behind earlier), total⟩

/-- What is printed. -/
theorem prettifyDue_eq (now due : Moment) : prettifyDue now due =
    dueText (due.diff now .day) (due.diff now .hour - due.diff now .day * 24) := rfl

/-- The printed days are right when the correction of `diff` is harmless, and only then. -/
theorem diff_day_eq_iff :
    due.diff now .day = (due.diff now .hour).tdiv 24 ↔ ClockHarmless now due := by
  rw [diff_day, diff_hour, tdiv_tdiv _ (by decide)]
  exact tdiv_sub_eq_iff (by decide)

/-- A harmless correction leaves a decomposition. -/
theorem wellSplit_of_harmless (harmless : ClockHarmless now due)
    (printed : prettifyDue now due = dueText d h) : WellSplit now due d h := by
  have hours : due.diff now .hour = (due.time - now.time).tdiv 3600000 := diff_hour due now
  obtain ⟨rfl, rfl⟩ := dueText_inj ((prettifyDue_eq now due).symm.trans printed)
  have days := diff_day_eq_iff.mpr harmless
  have whole := Int.mul_tdiv_add_tmod (due.diff now .hour) 24
  rw [wellSplit_iff, ← hours, splits_iff (by decide)]
  exact ⟨days, by omega⟩

/-- With one offset all the year the decomposition is right. -/
theorem prettifyDue_same_offset (same : now.utcOffset = due.utcOffset)
    (printed : prettifyDue now due = dueText d h) : WellSplit now due d h := by
  refine wellSplit_of_harmless ?_ printed
  rw [← diff_day_eq_iff, diff_day, diff_hour, tdiv_tdiv _ (by decide), Moment.zoneDelta, same,
    sub_self, zero_mul, sub_zero]
  rfl

end Split

/-- `prettifyDue` decomposes the time that is left unless a change of the local clock moves it
over a whole day. -/
theorem prettifyDue_splits_iff (now due : Moment) :
    (∀ d h, prettifyDue now due = dueText d h → WellSplit now due d h) ↔
      ClockHarmless now due := by
  have hours : due.diff now .hour = (due.time - now.time).tdiv 3600000 := diff_hour due now
  constructor
  · intro well
    have split := wellSplit_iff.mp (well _ _ (prettifyDue_eq now due))
    rw [← hours, splits_iff (by decide)] at split
    exact diff_day_eq_iff.mp split.1
  · exact fun harmless d h printed => wellSplit_of_harmless harmless printed

/-- Noon of the day before the clocks go forward, and noon of the day they do: 23 hours. -/
def beforeChange : Moment := ⟨1457812800000, -480⟩

def afterChange : Moment := ⟨1457895600000, -420⟩

theorem prettifyDue_over_change : prettifyDue beforeChange afterChange = dueText 1 (-1) ∧
    ¬ WellSplit beforeChange afterChange 1 (-1) := by
  constructor
  · decide +kernel
  · intro well
    have ahead := well.ahead (by decide)
    exact absurd ahead.2 (by decide)

end OneRoof
