import TypedWorkflow.Json.Printer
import TypedWorkflow.Json.Reader
import TypedWorkflow.Text.Quoted

/-!
# Decoding documents

A decoder takes a document to a value of a type or tells why it cannot. It goes through the
document in the order of the text and stops at the first error. A record of named fields is read
from an object, in which unknown keys are passed over, or from an array of its fields in
declaration order, at whose end optional fields may be left out.

## Main definitions

* `DecodeError`: why a document is not of a type.
* `Decode.string`, `Decode.float`, `Decode.optional`, …: decoders of simple types.
* `Decode.Fields`, `Decode.record`: decoders of records of named fields.
* `Decode.ofText`, `Decode.ofJson`: decoding a whole text and a value.
-/

namespace TypedWorkflow

/-! ## Errors -/

/-- What stands in a document where something else is expected. -/
inductive Finding where
  | null
  | bool (value : Bool)
  | num (value : Number)
  | str (value : String)
  | list
  | object

/-- The description of a finding. -/
def Finding.describe : Finding → String
  | .null => "null"
  | .bool true => "boolean `true`"
  | .bool false => "boolean `false`"
  | .num (.int i) => s!"integer `{i}`"
  | .num (.float x) => s!"floating point `{x.toText}`"
  | .str s => "string " ++ Text.quoted s
  | .list => "sequence"
  | .object => "map"

/-- Why a document is not of a type. -/
inductive DecodeError where
  /-- The text is no JSON. -/
  | malformed (error : SyntaxError)
  | missingField (name : String)
  | repeatedField (name : String)
  | wrongType (found : Finding) (expected : String)
  | wrongValue (found : Finding) (expected : String)
  /-- An array ends before a required field. -/
  | tooShort (length : Nat) (expected : String)
  /-- An array goes on after the last field. -/
  | tooLong (length : Nat)
  | unknownVariant (name : String) (known : List String)
  /-- A rule of the type itself is broken. -/
  | rejected (reason : String)

namespace DecodeError

/-- The text of an error. -/
def message : DecodeError → String
  | malformed e => e.message
  | missingField name => s!"missing field `{name}`"
  | repeatedField name => s!"duplicate field `{name}`"
  | wrongType found expected => s!"invalid type: {found.describe}, expected {expected}"
  | wrongValue found expected => s!"invalid value: {found.describe}, expected {expected}"
  | tooShort length expected => s!"invalid length {length}, expected {expected}"
  | tooLong length => s!"invalid length {length}, expected fewer elements in array"
  | unknownVariant name known =>
    s!"unknown variant `{name}`, expected one of " ++ ", ".intercalate (known.map fun k => s!"`{k}`")
  | rejected reason => reason

/-- The three categories of errors. -/
inductive Category where
  | data
  | malformed
  | incomplete
  deriving DecidableEq

/-- The category of an error: the text ends too early, it goes wrong, or it is JSON of another
type. -/
def category : DecodeError → Category
  | malformed e => if e.isEnd then .incomplete else .malformed
  | _ => .data

/-- The name of a category. -/
def Category.name : Category → String
  | .data => "data"
  | .malformed => "syntax"
  | .incomplete => "eof"

end DecodeError

/-- The result of a decoder. -/
abbrev Decoded (α : Type) := Except DecodeError α

namespace Decode

/-! ## Simple types -/

/-- The error for a document that is not of the expected type. A document that cannot be read
gives its own error, but an array or object is not looked into. -/
def mismatch {α : Type} (expected : String) : Document → Decoded α
  | .null => .error (.wrongType .null expected)
  | .bool b => .error (.wrongType (.bool b) expected)
  | .num n => .error (.wrongType (.num n) expected)
  | .str s => .error (.wrongType (.str s) expected)
  | .arr _ _ => .error (.wrongType .list expected)
  | .obj _ _ => .error (.wrongType .object expected)
  | .deep .list => .error (.wrongType .list expected)
  | .deep .object => .error (.wrongType .object expected)
  | .broken e => .error (.malformed e)

/-- Nothing, unless there is a fault. -/
def noFault : Option SyntaxError → Decoded Unit
  | none => .ok ()
  | some e => .error (.malformed e)

/-- Any value. -/
def json (d : Document) : Decoded Json :=
  match d.toJson with
  | .ok v => .ok v
  | .error e => .error (.malformed e)

/-- A string. -/
def string : Document → Decoded String
  | .str s => .ok s
  | d => mismatch "a string" d

/-- A floating-point number; an integer is converted. -/
def float : Document → Decoded Binary64
  | .num (.float x) => .ok x
  | .num (.int i) =>
    match Binary64.ofInt i with
    | some x => .ok x
    | none => .error (.wrongValue (.num (.int i)) "f64")
  | d => mismatch "f64" d

/-- An unsigned integer below `bound`. -/
def natBelow (bound : Nat) (expected : String) : Document → Decoded Nat
  | .num (.int i) =>
    if 0 ≤ i ∧ i < bound then .ok i.toNat else .error (.wrongValue (.num (.int i)) expected)
  | d => mismatch expected d

/-- An object of any values. -/
def object : Document → Decoded Json.Entries
  | .obj es fault =>
    match (Document.obj es fault).toJson with
    | .ok v => .ok v.entries
    | .error e => .error (.malformed e)
  | .deep .object => .error (.malformed .nestingTooDeep)
  | d => mismatch "a map" d

/-- Nothing for `null`, else what is decoded. -/
def unlessNull {α : Type} (d : Document) (decoded : Decoded α) : Decoded (Option α) :=
  match d with
  | .null => .ok none
  | _ => decoded.map some

/-- Nothing for `null`, else what the decoder gives. -/
def optional {α : Type} (decode : Document → Decoded α) (d : Document) : Decoded (Option α) :=
  unlessNull d (decode d)

/-- Every item of a list. -/
def items {α : Type} (decode : Document → Decoded α) : List Document → Decoded (List α)
  | [] => .ok []
  | d :: rest => do return (← decode d) :: (← items decode rest)

/-- An array of values of one type. -/
def list {α : Type} (decode : Document → Decoded α) : Document → Decoded (List α)
  | .arr ds fault => do
    let as ← items decode ds
    noFault fault
    return as
  | .deep .list => .error (.malformed .nestingTooDeep)
  | d => mismatch "a sequence" d

/-! ## Records -/

/-- Where a document comes from. The two differ in the error for an array that is too long. -/
inductive Source where
  | text
  | value
  deriving DecidableEq

/-- The fields of a record in declaration order, and those that it must have. -/
structure Fields where
  /-- The name of the record type. -/
  typeName : String
  names : List String
  required : List String

namespace Fields

/-- What is expected in place of another document. -/
def expected (f : Fields) : String :=
  "struct " ++ f.typeName

/-- What is expected in place of an array that is too short. -/
def expectedLength (f : Fields) : String :=
  s!"struct {f.typeName} with {f.names.length} elements"

/-- Whether an object with the keys `seen` has the required fields; the first it lacks is the
error. -/
def complete (f : Fields) (seen : List String) : Decoded Unit :=
  match f.required.find? fun name => !seen.contains name with
  | some name => .error (.missingField name)
  | none => .ok ()

/-- What to do with a key: `none` passes over an unknown one, a known one is added to those seen
before. -/
def accept (f : Fields) (seen : List String) (key : String) : Decoded (Option (List String)) :=
  if !f.names.contains key then .ok none
  else if seen.contains key then .error (.repeatedField key)
  else .ok (some (key :: seen))

/-- The position of the first required field after the first `taken` ones. -/
def requiredAfter? (f : Fields) (taken : Nat) : Option Nat :=
  ((f.names.drop taken).findIdx? f.required.contains).map (taken + ·)

/-- The end of an array of which `taken` items were read as fields and `rest` were not. With fields
left to read, the array must be closed after the required ones. After the last field, a text must
close the array at once. -/
def close (f : Fields) (source : Source) (taken : Nat) (rest : List Document)
    (fault : Option SyntaxError) : Decoded Unit :=
  if taken < f.names.length then do
    noFault fault
    match f.requiredAfter? taken with
    | some position => .error (.tooShort position f.expectedLength)
    | none => .ok ()
  else match source, rest, fault with
    | _, [], none => .ok ()
    | .value, _, _ => .error (.tooLong (taken + rest.length))
    | .text, [], some .endInList => .error (.malformed .endInList)
    | .text, [], some .trailingComma => .error (.malformed .trailingComma)
    | .text, _, _ => .error (.malformed .trailingCharacters)

end Fields

variable {σ : Type}

/-- Reads the entries of an object into a state, `read` taking a known field. -/
def entries (f : Fields) (read : String → Document → σ → Decoded σ) :
    List String → σ → List (String × Document) → Decoded (List String × σ)
  | seen, state, [] => .ok (seen, state)
  | seen, state, (key, d) :: rest => do
    match ← f.accept seen key with
    | none => entries f read seen state rest
    | some seen => entries f read seen (← read key d state) rest

/-- Reads the items of an array as fields in order. Gives what is left of the names and of the
items. -/
def positions (read : String → Document → σ → Decoded σ) :
    List String → σ → List Document → Decoded (σ × List String × List Document)
  | [], state, ds => .ok (state, [], ds)
  | names, state, [] => .ok (state, names, [])
  | name :: names, state, d :: ds => do positions read names (← read name d state) ds

/-- A record of named fields, read into a state that starts at `start`. -/
def record (f : Fields) (source : Source) (read : String → Document → σ → Decoded σ) (start : σ) :
    Document → Decoded σ
  | .obj es fault => do
    let (seen, state) ← entries f read [] start es
    noFault fault
    f.complete seen
    return state
  | .arr ds fault => do
    let (state, left, rest) ← positions read f.names start ds
    f.close source (f.names.length - left.length) rest fault
    return state
  | .deep _ => .error (.malformed .nestingTooDeep)
  | d => mismatch f.expected d

/-! ## Whole texts and values -/

/-- Decodes a whole text. -/
def ofText {α : Type} (decode : Source → Document → Decoded α) (text : String) : Decoded α := do
  let t := Document.readText text
  let a ← decode .text t.root
  if t.trailing then .error (.malformed .trailingCharacters) else return a

/-- Decodes a value. -/
def ofJson {α : Type} (decode : Source → Document → Decoded α) (v : Json) : Decoded α :=
  decode .value (Document.ofJson v)

end Decode

end TypedWorkflow
