import TypedWorkflow.Decoding
import TypedWorkflow.Schema.TokenParser

/-!
# Schemas

A schema declares the fields of a record in order, each with a name and a type. The operations
here keep the names distinct.

## Main definitions

* `Schema`, `Schema.Distinct`: schemas, and that no name is declared twice.
* `Schema.insert`: adds a field.
* `Schema.ofPairs`, `Schema.ofJson`, `Schema.decode`: the three readers of schemas.
* `Schema.toJson`, `Schema.toDocument`: the object of field names and type tokens, as a value and
  as it is written.
-/

namespace TypedWorkflow

/-- The fields of a record in declaration order. -/
structure Schema where
  fields : List (String × TypeToken)

instance : Inhabited Schema := ⟨⟨[]⟩⟩

namespace Schema

/-- The schema without fields. -/
def empty : Schema := ⟨[]⟩

/-- The schema with one field. -/
def single (name : String) (type : TypeToken) : Schema := ⟨[(name, type)]⟩

/-- The names of the fields in order. -/
def names (s : Schema) : List String :=
  s.fields.map Prod.fst

/-- No name is declared twice. -/
def Distinct (s : Schema) : Prop :=
  s.names.Nodup

/-- The number of fields. -/
def size (s : Schema) : Nat :=
  s.fields.length

/-- Whether there are no fields. -/
def isEmpty (s : Schema) : Bool :=
  s.fields.isEmpty

/-- The type of the field with the given name. -/
def get? (s : Schema) (name : String) : Option TypeToken :=
  s.fields.lookup name

/-- Whether a field with the given name is declared. -/
def contains (s : Schema) (name : String) : Bool :=
  (s.get? name).isSome

/-- Equality of field lists in order. -/
def sameFieldsInOrder : List (String × TypeToken) → List (String × TypeToken) → Bool
  | [], [] => true
  | (name, type) :: rest, (other, otherType) :: others =>
    name == other && type.same otherType && sameFieldsInOrder rest others
  | _, _ => false

/-- Equality of schemas: equal fields in the same order. -/
def same (s t : Schema) : Bool :=
  sameFieldsInOrder s.fields t.fields

/-- Adds a field at the end. A name can be declared only once. -/
def insert (s : Schema) (name : String) (type : TypeToken) : Except SchemaError Schema :=
  if s.contains name then .error (.duplicateField name) else .ok ⟨s.fields ++ [(name, type)]⟩

/-- Adds a field whose type is given by its text. -/
def insertText (s : Schema) (name token : String) : Except SchemaError Schema := do
  s.insert name (← TypeToken.ofText token)

/-! ## Reading -/

/-- Adds fields, given by their names and the texts of their types, in order. -/
def insertPairs (s : Schema) : List (String × String) → Except SchemaError Schema
  | [] => .ok s
  | (name, token) :: rest => do (← s.insertText name token).insertPairs rest

/-- The schema of fields that are given by their names and the texts of their types. -/
def ofPairs (pairs : List (String × String)) : Except SchemaError Schema :=
  empty.insertPairs pairs

/-- Adds fields, given by the entries of an object, in order. -/
def insertEntries (s : Schema) : Json.Entries → Except SchemaError Schema
  | [] => .ok s
  | (name, .str token) :: rest => do (← s.insertText name token).insertEntries rest
  | (name, _) :: _ => .error (.tokenNotString name)

/-- The schema that an object of field names and type tokens denotes. -/
def ofJson : Json → Except SchemaError Schema
  | .obj entries => empty.insertEntries entries
  | _ => .error .notAnObject

end Schema

/-- Decodes a type token from a string. -/
def TypeToken.decode (d : Document) : Decoded TypeToken := do
  let text ← Decode.string d
  match TypeToken.ofText text with
  | .ok t => .ok t
  | .error e => .error (.rejected e.message)

namespace Schema

/-- Decodes fields and adds them in order. A repeated name is met after the token of its second
field. -/
def decodeEntries (s : Schema) : List (String × Document) → Decoded Schema
  | [] => .ok s
  | (name, d) :: rest => do
    let type ← TypeToken.decode d
    match s.insert name type with
    | .ok s => s.decodeEntries rest
    | .error e => .error (.rejected e.message)

/-- Decodes a schema from an object. -/
def decode : Document → Decoded Schema
  | .obj entries fault => do
    let s ← empty.decodeEntries entries
    Decode.noFault fault
    return s
  | .deep .object => .error (.malformed .nestingTooDeep)
  | d => Decode.mismatch "a map of field names to type tokens" d

/-! ## Writing -/

/-- The object of field names and type tokens, collected field after field. -/
def toJson (s : Schema) : Json :=
  .obj (s.fields.foldl (fun entries (name, type) => Json.insert name (.str type.text) entries) [])

/-- The document that a schema is written as: an entry for each field. -/
def toDocument (s : Schema) : Document :=
  .obj (s.fields.map fun (name, type) => (name, .str type.text)) none

end Schema

end TypedWorkflow
