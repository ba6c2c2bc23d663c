import TypedWorkflow.Binary64

/-!
# Decimal notation of binary64 numbers

Reading scales a rounded significand by a rounded power of ten, so a literal with many digits may
be read as a neighbour of the number nearest to it. Writing gives the fewest digits that lie
nearer to the number than to any other, in positional notation for magnitudes from `10^-5` up to
below `10^16` and in exponent notation elsewhere.

## Main definitions

* `Binary64.ofDecimal`: the number that a literal denotes.
* `Binary64.shortest`: the fewest digits that determine a number.
* `Binary64.toText`: the notation of a number.
-/

namespace TypedWorkflow.Binary64

-- powers are those of the core library, whatever else is imported
attribute [local instance (high)] instPowNat

/-! ## Reading -/

/-- The number nearest to `10^n`, for `n` at most 308. -/
def powerOfTen (n : Nat) : Option Binary64 :=
  ofRatio false (10 ^ n) 1

/-- Divides by `10^n`. A power beyond the range of the format is divided out in steps of `10^308`,
each rounded, until nothing is left. -/
def divPowerOfTen (x : Binary64) (n : Nat) : Option Binary64 :=
  if n < 309 then (powerOfTen n).bind x.div
  else if x.isZero then some x
  else (powerOfTen 308).bind fun p => (x.div p).bind fun y => divPowerOfTen y (n - 308)
termination_by n

/-- Multiplies by `10^n`; `none` beyond the largest number. -/
def mulPowerOfTen (x : Binary64) (n : Nat) : Option Binary64 :=
  if n < 309 then (powerOfTen n).bind x.mul
  else if x.isZero then some x
  else none

/-- The number that the literal `significand * 10^exponent` denotes. The significand is rounded
first and the scaled result once more; `none` when that lies beyond the largest number. -/
def ofDecimal (negative : Bool) (significand : Nat) (exponent : Int) : Option Binary64 :=
  (ofRatio negative significand 1).bind fun x =>
    match exponent with
    | .ofNat n => mulPowerOfTen x n
    | .negSucc n => divPowerOfTen x (n + 1)

/-! ## Fewest digits -/

/-- The numbers that round to a given one, in units of a quarter of its last place: from `low` to
`high`, around `4 * significand`, the ends included iff the significand is even. Below a power of
two the neighbours are closer. -/
structure RoundingInterval where
  low : Nat
  high : Nat
  closed : Bool

/-- The numbers that round to `x`. -/
def roundingInterval (x : Binary64) : RoundingInterval :=
  let centre := 4 * x.significand
  let low := if x.significand = 2 ^ (52 : Nat) ∧ x.exponent ≠ -1074 then centre - 1 else centre - 2
  ⟨low, centre + 2, x.significand % 2 = 0⟩

/-- Whether the point `num / den` lies in the interval scaled by `scale`. -/
def RoundingInterval.contains (i : RoundingInterval) (scale point : Nat) : Bool :=
  if i.closed then decide (i.low * scale ≤ point) && decide (point ≤ i.high * scale)
  else decide (i.low * scale < point) && decide (point < i.high * scale)

/-- The multiple of `10^place` that stands for the magnitude of `x`, if one rounds to it. Only
the two multiples around the number can; of both the nearer is taken, and in a tie the even. -/
def digitsAt? (x : Binary64) (place : Int) : Option Nat :=
  let quarter := x.exponent - 2
  let scale := 2 ^ quarter.toNat * 10 ^ (-place).toNat
  let grid := 10 ^ place.toNat * 2 ^ (-quarter).toNat
  let value := 4 * x.significand * scale
  let below := value / grid
  let interval := x.roundingInterval
  let hits (k : Nat) : Bool := interval.contains scale (k * grid)
  match hits below, hits (below + 1) with
  | false, false => none
  | true, false => some below
  | false, true => some (below + 1)
  | true, true => some (roundQuotient value grid)

/-- The coarsest decimal place that can carry a digit of `x`, or one above it. -/
def leadingPlace (x : Binary64) : Int :=
  Int.fdiv ((x.exponent + x.significand.log2 + 1) * 30103) 100000 + 1

/-- The fewest decimal digits that determine the magnitude of a nonzero number, as an integer
and the place of its last digit. The first place that carries a multiple rounding to the number
gives the fewest. -/
def shortest (x : Binary64) : Nat × Int :=
  let hit := (List.range 24).findSome? fun (i : Nat) =>
    let place := x.leadingPlace - i
    (x.digitsAt? place).map fun digits => (digits, place)
  hit.getD (0, 0)

/-! ## Writing -/

/-- Digits with a point after the first `point` of them, filled up with zeros so that a digit
stands on either side. -/
def positional (digits : List Char) (point : Int) : List Char :=
  if point ≤ 0 then '0' :: '.' :: (List.replicate (-point).toNat '0' ++ digits)
  else
    let whole := digits ++ List.replicate (point.toNat - digits.length) '0'
    let fraction := digits.drop point.toNat
    whole.take point.toNat ++ '.' :: (if fraction.isEmpty then ['0'] else fraction)

/-- Digits with a point after the first, if there are more, and an exponent with its sign. -/
def scientific (digits : List Char) (exponent : Int) : List Char :=
  let mantissa := match digits with
    | first :: second :: rest => first :: '.' :: second :: rest
    | short => short
  let sign := if exponent < 0 then '-' else '+'
  mantissa ++ 'e' :: sign :: (toString exponent.natAbs).toList

/-- The notation of the magnitude of a number. -/
def magnitudeText (x : Binary64) : List Char :=
  if x.isZero then ['0', '.', '0']
  else
    let (significand, place) := x.shortest
    let digits := (toString significand).toList
    let point : Int := digits.length + place
    if -5 < point ∧ point ≤ 16 then positional digits point else scientific digits (point - 1)

/-- The notation of a number: the fewest digits that determine it, positional from `10^-5` up to
below `10^16`. -/
def toText (x : Binary64) : String :=
  String.ofList (if x.negative then '-' :: x.magnitudeText else x.magnitudeText)

end TypedWorkflow.Binary64
