import TypedWorkflow.Binary64.Decimal
import TypedWorkflow.Json.Document
import TypedWorkflow.Text.Numeral

/-!
# Words, numbers and strings of JSON texts

Each is read in two ways. Reading gives the value. Passing over gives only the end of the text of
a value that nobody wants, and is more lenient: it accepts a number that is too large and an
unpaired surrogate, and does not tell the end of the text from a wrong character in a number.

## Main definitions

* `Lexer.readNumber`, `Lexer.passNumber`: numbers.
* `Lexer.readString`, `Lexer.passString`: strings, after the opening quotation mark.
* `Lexer.expectWord`: the rest of a word.
-/

namespace TypedWorkflow.Lexer

-- powers are those of the core library, whatever else is imported
attribute [local instance (high)] instPowNat

/-! ## Blanks and words -/

/-- Whether a character may stand between the parts of a JSON text. -/
def isSpace (c : Char) : Bool :=
  c == ' ' || c == '\n' || c == '\t' || c == '\x0d'

/-- A text without the blanks that it starts with. -/
def skipSpace (cs : List Char) : List Char :=
  cs.dropWhile isSpace

/-- The text after the given rest of a word. -/
def expectWord : List Char → List Char → Except SyntaxError (List Char)
  | [], cs => .ok cs
  | _ :: _, [] => .error .endInValue
  | w :: word, c :: cs => if w = c then expectWord word cs else .error .wordExpected

/-! ## Numbers -/

/-- The parts of a number literal: its digits before and after the point, and the exponent; the
latter two `none` when they are not written. -/
structure Literal where
  negative : Bool
  whole : List Char
  fraction : Option (List Char)
  exponent : Option Int

/-- At least one digit. If there is none, the literal stops short at the end of the text or goes
wrong at a character. -/
def expectDigits (cs : List Char) : Except SyntaxError (List Char × List Char) :=
  match Text.spanDigits cs with
  | ([], []) => .error .endInValue
  | ([], _) => .error .invalidNumber
  | span => .ok span

/-- The digits before the point: a zero stands alone. -/
def expectWhole (cs : List Char) : Except SyntaxError (List Char × List Char) := do
  let (whole, rest) ← expectDigits cs
  if whole.head? = some '0' ∧ whole.length ≠ 1 then .error .invalidNumber
  else .ok (whole, rest)

/-- The point and the digits after it, if there is a point. -/
def takeFraction (cs : List Char) : Except SyntaxError (Option (List Char) × List Char) :=
  match cs with
  | '.' :: rest => do
    let (digits, rest) ← expectDigits rest
    .ok (some digits, rest)
  | _ => .ok (none, cs)

/-- The exponent, if there is one. -/
def takeExponent (cs : List Char) : Except SyntaxError (Option Int × List Char) :=
  match cs with
  | c :: rest =>
    if c = 'e' ∨ c = 'E' then do
      let (negative, rest) := Text.splitSign rest
      let (digits, rest) ← expectDigits rest
      let magnitude : Int := Text.digitsValue digits
      .ok (some (if negative then -magnitude else magnitude), rest)
    else .ok (none, cs)
  | [] => .ok (none, [])

/-- The literal that a text starts with. -/
def takeLiteral (cs : List Char) : Except SyntaxError (Literal × List Char) := do
  let (negative, rest) := match cs with
    | '-' :: rest => (true, rest)
    | _ => (false, cs)
  let (whole, rest) ← expectWhole rest
  let (fraction, rest) ← takeFraction rest
  let (exponent, rest) ← takeExponent rest
  .ok (⟨negative, whole, fraction, exponent⟩, rest)

/-- The greatest significand that a literal is read with. -/
def maxSignificand : Nat := 2 ^ (64 : Nat) - 1

/-- Appends digits to a significand up to the first that makes it too large. Gives the significand
and the digits that are left. -/
def appendDigits (significand : Nat) : List Char → Nat × List Char
  | [] => (significand, [])
  | d :: rest =>
    let next := 10 * significand + (d.toNat - '0'.toNat)
    if next ≤ maxSignificand then appendDigits next rest else (significand, d :: rest)

/-- The number that a literal denotes. Digits beyond a significand of 64 bits only count towards
the exponent. -/
def Literal.value (l : Literal) : Except SyntaxError Number :=
  let (significand, dropped) := appendDigits 0 l.whole
  let float (significand : Nat) (exponent : Int) : Except SyntaxError Number :=
    match Binary64.ofDecimal l.negative significand exponent with
    | some x => .ok (.float x)
    | none => .error .numberOutOfRange
  match l.fraction, l.exponent with
  | none, none =>
    if dropped ≠ [] then float significand dropped.length
    else if !l.negative then .ok (.int significand)
    else if significand = 0 ∨ 2 ^ (63 : Nat) < significand then float significand 0
    else .ok (.int (-significand))
  | fraction, exponent =>
    let digits := fraction.getD []
    let (significand, unread) := appendDigits significand digits
    let taken := digits.length - unread.length
    float significand (dropped.length - taken + exponent.getD 0)

/-- The number that a text starts with, and the rest. -/
def readNumber (cs : List Char) : Except SyntaxError (Number × List Char) := do
  let (literal, rest) ← takeLiteral cs
  .ok (← literal.value, rest)

/-- The text after the number that it starts with. -/
def passNumber (cs : List Char) : Except SyntaxError (List Char) :=
  match takeLiteral cs with
  | .ok (_, rest) => .ok rest
  | .error _ => .error .invalidNumber

/-! ## Strings -/

/-- The value of a hexadecimal digit. -/
def hexValue? (c : Char) : Option Nat :=
  if '0' ≤ c ∧ c ≤ '9' then some (c.toNat - '0'.toNat)
  else if 'a' ≤ c ∧ c ≤ 'f' then some (c.toNat - 'a'.toNat + 10)
  else if 'A' ≤ c ∧ c ≤ 'F' then some (c.toNat - 'A'.toNat + 10)
  else none

/-- Four hexadecimal digits. The text ends too early if fewer than four bytes are left. -/
def takeHex (cs : List Char) : Except SyntaxError (Nat × List Char) :=
  match cs with
  | a :: b :: c :: d :: rest =>
    match hexValue? a, hexValue? b, hexValue? c, hexValue? d with
    | some a, some b, some c, some d => .ok (((a * 16 + b) * 16 + c) * 16 + d, rest)
    | _, _, _, _ => .error .invalidEscape
  | short =>
    if 4 ≤ (String.ofList short).utf8ByteSize then .error .invalidEscape else .error .endInString

/-- Whether a UTF-16 unit is the first of a surrogate pair. -/
def isHighSurrogate (n : Nat) : Bool :=
  decide (0xd800 ≤ n) && decide (n ≤ 0xdbff)

/-- Whether a UTF-16 unit is the second of a surrogate pair. -/
def isLowSurrogate (n : Nat) : Bool :=
  decide (0xdc00 ≤ n) && decide (n ≤ 0xdfff)

/-- The character of the hexadecimal escape that a text starts with after `\u`: one UTF-16 unit,
or two escapes that make a surrogate pair. -/
def readHexEscape (cs : List Char) : Except SyntaxError (Char × List Char) := do
  let (first, rest) ← takeHex cs
  if isLowSurrogate first then .error .surrogateMisplaced
  else if !isHighSurrogate first then .ok (Char.ofNat first, rest)
  else match rest with
    | [] => .error .endInString
    | ['\\'] => .error .endInString
    | '\\' :: 'u' :: rest => do
      let (second, rest) ← takeHex rest
      if isLowSurrogate second then
        .ok (Char.ofNat ((first - 0xd800) * 0x400 + (second - 0xdc00) + 0x10000), rest)
      else .error .surrogateMisplaced
    | _ => .error .surrogateUnpaired

/-- The character of a one-letter escape. -/
def shortEscape? : Char → Option Char
  | '"' => some '"'
  | '\\' => some '\\'
  | '/' => some '/'
  | 'b' => some '\x08'
  | 'f' => some '\x0c'
  | 'n' => some '\n'
  | 'r' => some '\x0d'
  | 't' => some '\t'
  | _ => none

/-- The character of the escape that a text starts with after a backslash. -/
def readEscape : List Char → Except SyntaxError (Char × List Char)
  | [] => .error .endInString
  | c :: rest =>
    if c = 'u' then readHexEscape rest
    else match shortEscape? c with
      | some e => .ok (e, rest)
      | none => .error .invalidEscape

/-- The text after the escape that it starts with. -/
def passEscape : List Char → Except SyntaxError (List Char)
  | [] => .error .endInString
  | c :: rest =>
    if c = 'u' then (takeHex rest).map Prod.snd
    else if (shortEscape? c).isSome then .ok rest
    else .error .invalidEscape

/-- The characters of a string up to its closing quotation mark, after those in `read`, last
first, and the rest of the text. Within `fuel` characters. -/
def readStringWithin : Nat → List Char → List Char → Except SyntaxError (List Char × List Char)
  | 0, _, _ => .error .endInString
  | _, _, [] => .error .endInString
  | fuel + 1, read, c :: rest =>
    if c = '"' then .ok (read.reverse, rest)
    else if c = '\\' then
      match readEscape rest with
      | .ok (e, rest) => readStringWithin fuel (e :: read) rest
      | .error e => .error e
    else if c.toNat < 0x20 then .error .controlCharacter
    else readStringWithin fuel (c :: read) rest

/-- The string up to its closing quotation mark, and the rest. -/
def readString (cs : List Char) : Except SyntaxError (String × List Char) := do
  let (content, rest) ← readStringWithin cs.length [] cs
  .ok (String.ofList content, rest)

/-- The text after the closing quotation mark, within `fuel` characters. -/
def passStringWithin : Nat → List Char → Except SyntaxError (List Char)
  | 0, _ => .error .endInString
  | _, [] => .error .endInString
  | fuel + 1, c :: rest =>
    if c = '"' then .ok rest
    else if c = '\\' then
      match passEscape rest with
      | .ok rest => passStringWithin fuel rest
      | .error e => .error e
    else if c.toNat < 0x20 then .error .controlCharacter
    else passStringWithin fuel rest

/-- The text after the closing quotation mark. -/
def passString (cs : List Char) : Except SyntaxError (List Char) :=
  passStringWithin cs.length cs

end TypedWorkflow.Lexer
