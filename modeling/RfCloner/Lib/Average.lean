/-
  Averaging over a span that is observed late.

  Something happens at a fixed period and is noticed each time with a lag below a bound.  The error of
  the average is then that of the first and the last observation, over their number: what is in
  between does not count.
-/
import Mathlib.Algebra.Order.Field.Basic
import Mathlib.Algebra.Order.Ring.Abs
import Mathlib.Tactic.Linarith

namespace Average

variable {α : Type*} [Field α] [LinearOrder α] [IsStrictOrderedRing α] {span n : Nat}
  {period lag start first last : α}

/-- Two observations are as far apart as what they are of, but for less than the lag. -/
theorem abs_span_sub_lt (hfirst : start ≤ first ∧ first < start + lag)
    (hlast : start + n * period ≤ last ∧ last < start + n * period + lag) :
    |last - first - n * period| < lag := by
  rw [abs_lt]
  constructor <;> linarith

/-- The whole part of an average, times what it is taken over, falls short of the whole by less than
    one for each. -/
theorem mul_div_bounds (span : Nat) (hn : 0 < n) :
    (n : α) * (span / n : Nat) ≤ span ∧ (span : α) < n * (span / n : Nat) + n := by
  have hle : n * (span / n) ≤ span := Nat.mul_div_le span n
  have hlt : span < n * (span / n) + n := by
    have h := Nat.lt_mul_div_succ span hn
    rwa [Nat.mul_succ] at h
  exact ⟨mod_cast hle, mod_cast hlt⟩

/-- The average over a span that is off by less than the lag. -/
theorem mul_abs_average_sub_lt (hn : 0 < n) (hspan : |(span : α) - n * period| < lag) :
    n * |((span / n : Nat) : α) - period| < lag + n := by
  obtain ⟨hle, hlt⟩ := mul_div_bounds (α := α) span hn
  rw [abs_lt] at hspan
  have hpos : (0 : α) < n := mod_cast hn
  have hscaled : (n : α) * |((span / n : Nat) : α) - period|
      = |n * ((span / n : Nat) : α) - n * period| := by
    rw [← mul_sub, abs_mul, abs_of_pos hpos]
  rw [hscaled, abs_lt]
  constructor <;> linarith

end Average
