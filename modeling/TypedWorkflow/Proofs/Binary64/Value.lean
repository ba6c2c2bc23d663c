import Mathlib.Algebra.Order.Field.Rat
import Mathlib.Tactic.FieldSimp
import Mathlib.Tactic.NormNum
import TypedWorkflow.Json.Basic

/-!
# Integers among the binary64 numbers

The integer that a number is said to be is its exact value, and a number is said to be none only
if its exact value has a fraction.

## Main definitions

* `Binary64.toInt?_eq_some_iff`: the integer of a number is its value.
-/

namespace TypedWorkflow

namespace Binary64

theorem denominator_pos (x : Binary64) : 0 < x.denominator := by
  simp [denominator]

/-- A quotient of natural numbers is an integer only if the division leaves no rest. -/
theorem div_eq_intCast_iff {num den : Nat} (hden : 0 < den) (i : Int) :
    (num : Rat) / den = i ↔ num % den = 0 ∧ ((num / den : Nat) : Int) = i := by
  have hden' : (den : Rat) ≠ 0 := by exact_mod_cast hden.ne'
  rw [div_eq_iff hden']
  constructor
  · intro h
    have hint : (num : Int) = i * den := by exact_mod_cast h
    have hdvd : den ∣ num := Int.natCast_dvd_natCast.1 ⟨i, by rw [hint, mul_comm]⟩
    refine ⟨Nat.mod_eq_zero_of_dvd hdvd, ?_⟩
    rw [Int.natCast_div, hint, Int.mul_ediv_cancel _ (by exact_mod_cast hden.ne')]
  · rintro ⟨hmod, rfl⟩
    have hnum : num / den * den = num := Nat.div_mul_cancel (Nat.dvd_of_mod_eq_zero hmod)
    exact_mod_cast hnum.symm

/-- The integer of a number is its exact value. -/
theorem toInt?_eq_some_iff (x : Binary64) (i : Int) : x.toInt? = some i ↔ x.toRat = i := by
  have hmagnitude (j : Int) : (x.numerator : Rat) / x.denominator = j ↔
      x.numerator % x.denominator = 0 ∧ ((x.numerator / x.denominator : Nat) : Int) = j :=
    div_eq_intCast_iff x.denominator_pos j
  cases hneg : x.negative with
  | false =>
    simp only [toRat, toInt?, hneg, Bool.false_eq_true, if_false, hmagnitude]
    split <;> simp_all
  | true =>
    have hflip : -((x.numerator : Rat) / x.denominator) = i ↔
        (x.numerator : Rat) / x.denominator = ((-i : Int) : Rat) := by
      rw [neg_eq_iff_eq_neg, Int.cast_neg]
    simp only [toRat, toInt?, hneg, if_true, hflip, hmagnitude]
    split <;> simp_all [neg_eq_iff_eq_neg]

end Binary64

end TypedWorkflow
