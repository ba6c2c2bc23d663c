/-!
# Numerals in texts

The texts that denote a signed 64-bit integer and those that denote a floating-point number. Both
are read without surrounding blanks and in ASCII digits.

## Main definitions

* `Text.toInt64?`: the integer that a text denotes.
* `Text.isFloat`: whether a text denotes a floating-point number, infinities and NaN included.
-/

namespace TypedWorkflow.Text

-- powers are those of the core library, whatever else is imported
attribute [local instance (high)] instPowNat

/-- The digits that a text starts with, and the rest. -/
def spanDigits (cs : List Char) : List Char × List Char :=
  (cs.takeWhile Char.isDigit, cs.dropWhile Char.isDigit)

/-- The number that a list of decimal digits denotes. -/
def digitsValue (digits : List Char) : Nat :=
  digits.foldl (fun n c => 10 * n + (c.toNat - '0'.toNat)) 0

/-- A text without the one sign that it may start with, and whether that is a minus. -/
def splitSign : List Char → Bool × List Char
  | '-' :: rest => (true, rest)
  | '+' :: rest => (false, rest)
  | rest => (false, rest)

/-- The least and the greatest signed 64-bit integer. -/
def int64Min : Int := -(2 ^ (63 : Nat))

@[inherit_doc int64Min] def int64Max : Int := 2 ^ (63 : Nat) - 1

/-- The signed 64-bit integer that a text denotes: an optional sign and at least one digit. -/
def toInt64? (cs : List Char) : Option Int :=
  let (negative, digits) := splitSign cs
  if digits.isEmpty || !digits.all Char.isDigit then none
  else
    let magnitude : Int := digitsValue digits
    let value := if negative then -magnitude else magnitude
    if int64Min ≤ value ∧ value ≤ int64Max then some value else none

/-- Whether a text is an exponent: nothing, or `e` in either case, an optional sign and at least
one digit. -/
def isExponent : List Char → Bool
  | [] => true
  | c :: rest =>
    let digits := (splitSign rest).2
    (c == 'e' || c == 'E') && !digits.isEmpty && digits.all Char.isDigit

/-- Whether a text is an unsigned decimal number: digits with at most one point and at least one
digit on either side of it, then an optional exponent. -/
def isUnsignedFloat (cs : List Char) : Bool :=
  let (whole, rest) := spanDigits cs
  match rest with
  | '.' :: rest =>
    let (fraction, rest) := spanDigits rest
    !(whole.isEmpty && fraction.isEmpty) && isExponent rest
  | rest => !whole.isEmpty && isExponent rest

/-- Whether a text denotes a floating-point number: an optional sign, then a decimal number or
`inf`, `infinity` or `nan` in any case. -/
def isFloat (cs : List Char) : Bool :=
  let magnitude := (splitSign cs).2
  isUnsignedFloat magnitude ||
    ["inf", "infinity", "nan"].contains (String.ofList (magnitude.map Char.toLower))

end TypedWorkflow.Text
