/-!
# Finite binary64 numbers

A number with a fraction or an exponent in a JSON document is a finite IEEE binary64 number. Here
such a number is its sign, significand and exponent, in the one canonical form that the format
stores, so that two numbers are the same datum exactly when they are equal as Lean values. Zero has
two data, one for each sign.

## Main definitions

* `Binary64`: a finite number, `(-1)^negative * significand * 2^exponent`.
* `Binary64.ofRatio`: the nearest number to a quotient, a tie going to the even significand.
* `Binary64.mul`, `Binary64.div`: exact product and quotient, rounded once.
* `Binary64.toInt?`: the integer that a number is, if it is one.
* `Binary64.sameValue`: equality as numbers, which does not see the sign of zero.
-/

namespace TypedWorkflow

-- powers are those of the core library, whatever else is imported
attribute [local instance (high)] instPowNat

/-- The significand has at most 53 bits, the exponent is in the range of the format, and a
significand of fewer than 53 bits occurs with the least exponent only. -/
def Binary64.IsCanonical (significand : Nat) (exponent : Int) : Prop :=
  significand < 2 ^ (53 : Nat) ∧ -1074 ≤ exponent ∧ exponent ≤ 971 ∧
    (2 ^ (52 : Nat) ≤ significand ∨ exponent = -1074)

instance (significand : Nat) (exponent : Int) :
    Decidable (Binary64.IsCanonical significand exponent) :=
  inferInstanceAs (Decidable (_ ∧ _))

/-- A finite binary64 number, `(-1)^negative * significand * 2^exponent`. -/
structure Binary64 where
  negative : Bool
  significand : Nat
  exponent : Int
  canonical : Binary64.IsCanonical significand exponent
  deriving DecidableEq

namespace Binary64

/-! ## Construction -/

/-- The zero of the given sign. -/
def zero (negative : Bool) : Binary64 :=
  ⟨negative, 0, -1074, by decide⟩

instance : Inhabited Binary64 := ⟨zero false⟩

/-- The number with the given parts; `none` if the format has no such number. -/
def ofParts? (negative : Bool) (significand : Nat) (exponent : Int) : Option Binary64 :=
  if h : IsCanonical significand exponent then some ⟨negative, significand, exponent, h⟩ else none

/-- The integer nearest to `num / den`; of two equally near ones the even one. -/
def roundQuotient (num den : Nat) : Nat :=
  let q := num / den
  let r := num % den
  if 2 * r < den then q
  else if den < 2 * r then q + 1
  else if q % 2 = 0 then q else q + 1

/-- The integer nearest to `num / (den * 2^e)`. -/
def roundScaled (num den : Nat) : Int → Nat
  | .ofNat e => roundQuotient num (den * 2 ^ e)
  | .negSucc e => roundQuotient (num * 2 ^ (e + 1)) den

/-- The largest `n` with `2^n ≤ num / den`, for positive `num` and `den`. The difference of the
two binary logarithms is that number or one more. -/
def log2Quotient (num den : Nat) : Int :=
  let n : Int := (num.log2 : Int) - (den.log2 : Int)
  let reaches : Bool :=
    match n with
    | .ofNat k => decide (den * 2 ^ k ≤ num)
    | .negSucc k => decide (den ≤ num * 2 ^ (k + 1))
  if reaches then n else n - 1

/-- The number nearest to `num / den` with the given sign, for a positive `den`; of two equally
near ones the one with the even significand; `none` when that lies beyond the largest number. -/
def ofRatio (negative : Bool) (num den : Nat) : Option Binary64 :=
  if num = 0 then some (zero negative)
  else
    let exponent := max (log2Quotient num den - 52) (-1074)
    let significand := roundScaled num den exponent
    if significand = 2 ^ (53 : Nat) then ofParts? negative (2 ^ (52 : Nat)) (exponent + 1)
    else ofParts? negative significand exponent

/-- The number nearest to an integer. -/
def ofInt (i : Int) : Option Binary64 :=
  ofRatio (decide (i < 0)) i.natAbs 1

/-! ## Values -/

/-- The numerator of the magnitude, over `denominator`. -/
def numerator (x : Binary64) : Nat :=
  x.significand * 2 ^ x.exponent.toNat

/-- The denominator of the magnitude, a power of two. -/
def denominator (x : Binary64) : Nat :=
  2 ^ (-x.exponent).toNat

/-- The exact value as a rational number. -/
def toRat (x : Binary64) : Rat :=
  let magnitude : Rat := (x.numerator : Rat) / (x.denominator : Rat)
  if x.negative then -magnitude else magnitude

/-- Either of the two zeros. -/
def isZero (x : Binary64) : Bool :=
  x.significand == 0

/-- Equality as numbers: the two zeros are equal, and otherwise only equal data are. -/
def sameValue (x y : Binary64) : Bool :=
  x == y || (x.isZero && y.isZero)

/-- The integer that the number is; `none` if it has a fraction. -/
def toInt? (x : Binary64) : Option Int :=
  if x.numerator % x.denominator = 0 then
    let magnitude : Int := (x.numerator / x.denominator : Nat)
    some (if x.negative then -magnitude else magnitude)
  else none

/-! ## Arithmetic -/

/-- The opposite number. -/
def neg (x : Binary64) : Binary64 :=
  { x with negative := !x.negative }

/-- The product, rounded once; `none` when it lies beyond the largest number. -/
def mul (x y : Binary64) : Option Binary64 :=
  ofRatio (x.negative != y.negative) (x.numerator * y.numerator) (x.denominator * y.denominator)

/-- The quotient by a nonzero number, rounded once; `none` when it lies beyond the largest
number or the divisor is zero. -/
def div (x y : Binary64) : Option Binary64 :=
  if y.isZero then none
  else ofRatio (x.negative != y.negative) (x.numerator * y.denominator)
    (x.denominator * y.numerator)

end Binary64

end TypedWorkflow
