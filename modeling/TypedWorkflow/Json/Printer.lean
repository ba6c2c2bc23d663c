import TypedWorkflow.Binary64.Decimal
import TypedWorkflow.Json.Basic

/-!
# Writing JSON values

The compact form has no blanks. The indented form puts every item of a nonempty array or object
on a line of its own, two blanks deeper than the line with its opening bracket. Both escape in
strings only the quotation mark, the backslash and the code points below U+0020.

## Main definitions

* `Json.compact`: the compact form.
* `Json.indented`: the indented form.
-/

namespace TypedWorkflow

/-- The notation of a number: an integer in plain digits, a floating-point number by the fewest
digits that determine it. -/
def Number.toText : Number → String
  | .int i => toString i
  | .float x => x.toText

namespace Json

/-! ## Strings -/

/-- The digit of a hexadecimal place, in lower case. -/
def hexDigit (n : Nat) : Char :=
  if n < 10 then Char.ofNat ('0'.toNat + n) else Char.ofNat ('a'.toNat + (n - 10))

/-- A character inside a string literal. -/
def escapeChar (c : Char) : List Char :=
  if c = '"' then ['\\', '"']
  else if c = '\\' then ['\\', '\\']
  else if c = '\x08' then ['\\', 'b']
  else if c = '\x0c' then ['\\', 'f']
  else if c = '\n' then ['\\', 'n']
  else if c = '\x0d' then ['\\', 'r']
  else if c = '\t' then ['\\', 't']
  else if c.toNat < 0x20 then
    ['\\', 'u', '0', '0', hexDigit (c.toNat / 16), hexDigit (c.toNat % 16)]
  else [c]

/-- A string literal. -/
def quote (s : String) : String :=
  String.ofList ('"' :: (s.toList.flatMap escapeChar ++ ['"']))

/-! ## Values -/

mutual

/-- The compact form of a value. -/
def compact : Json → String
  | .null => "null"
  | .bool true => "true"
  | .bool false => "false"
  | .num n => n.toText
  | .str s => quote s
  | .arr items => "[" ++ ",".intercalate (compactItems items) ++ "]"
  | .obj es => "\x7b" ++ ",".intercalate (compactEntries es) ++ "\x7d"

/-- The compact forms of the items of an array. -/
def compactItems : List Json → List String
  | [] => []
  | v :: rest => v.compact :: compactItems rest

/-- The compact forms of the entries of an object. -/
def compactEntries : Entries → List String
  | [] => []
  | (k, v) :: rest => (quote k ++ ":" ++ v.compact) :: compactEntries rest

end

/-- The line break before an item at a given depth. -/
def lineBreak (depth : Nat) : String :=
  String.ofList ('\n' :: List.replicate (2 * depth) ' ')

/-- Items between brackets, each on its own line at the depth below `depth`. -/
def indentedBlock (opening closing : String) (depth : Nat) (items : List String) : String :=
  if items.isEmpty then opening ++ closing
  else
    let separator := "," ++ lineBreak (depth + 1)
    opening ++ lineBreak (depth + 1) ++ separator.intercalate items ++ lineBreak depth ++ closing

mutual

/-- The indented form of a value whose first line stands at the given depth. -/
def indentedAt (depth : Nat) : Json → String
  | .arr items => indentedBlock "[" "]" depth (indentedItems depth items)
  | .obj es => indentedBlock "\x7b" "\x7d" depth (indentedEntries depth es)
  | v => v.compact

/-- The indented forms of the items of an array. -/
def indentedItems (depth : Nat) : List Json → List String
  | [] => []
  | v :: rest => v.indentedAt (depth + 1) :: indentedItems depth rest

/-- The indented forms of the entries of an object. -/
def indentedEntries (depth : Nat) : Entries → List String
  | [] => []
  | (k, v) :: rest =>
    (quote k ++ ": " ++ v.indentedAt (depth + 1)) :: indentedEntries depth rest

end

/-- The indented form of a value. -/
def indented (v : Json) : String :=
  v.indentedAt 0

end Json

end TypedWorkflow
