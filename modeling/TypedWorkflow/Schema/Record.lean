import TypedWorkflow.Schema.Basic
import TypedWorkflow.Schema.Validation

/-!
# Record types and their instances

A record type is a schema with a name. Its instances are the values that it accepts, in normal
form.

## Main definitions

* `RecordType`, `RecordType.same`: named schemas, and their equality, which ignores the name and
  the order of fields.
* `RecordType.infer`, `RecordType.ofInstances`: the type of sample values and of named instances.
* `RecordType.validate`: the instance that a value denotes, or all that is wrong with it.
* `RecordInstance`: a validated value with its type.
-/

namespace TypedWorkflow

/-- A named schema. -/
structure RecordType where
  name : String
  schema : Schema

instance : Inhabited RecordType := ⟨⟨"", .empty⟩⟩

/-- A value of a record type: the declared fields with their values in normal form. -/
structure RecordInstance where
  type : RecordType
  values : Json.Entries

namespace RecordType

/-- The type without fields. -/
def empty (name : String) : RecordType :=
  ⟨name, .empty⟩

/-- The type of nested values of this record type. -/
def token (t : RecordType) : TypeToken :=
  .record t.name t.schema.fields

/-- Equality of record types, which ignores their names and the order of their fields. -/
def same (t u : RecordType) : Bool :=
  t.token.same u.token

/-- The type of the field with the given name. -/
def field? (t : RecordType) (name : String) : Option TypeToken :=
  t.schema.get? name

/-- The type of an object: a field for each key, with the type of its value. -/
def infer (name : String) (sample : Json.Entries) : RecordType :=
  ⟨name, ⟨sample.map fun (key, v) => (key, TypeToken.infer v)⟩⟩

/-- Adds a field for each instance, of the record type of the instance. -/
def insertInstances (s : Schema) : List (String × RecordInstance) → Except SchemaError Schema
  | [] => .ok s
  | (key, i) :: rest => do insertInstances (← s.insert key i.type.token) rest

/-- The type with a field for each named instance, of the record type of the instance. -/
def ofInstances (name : String) (instances : List (String × RecordInstance)) :
    Except SchemaError RecordType := do
  return ⟨name, ← insertInstances .empty instances⟩

/-- The instance that a value denotes, or all that is wrong with the value. -/
def validate (t : RecordType) (v : Json) : Except ValidationError RecordInstance :=
  match v with
  | .obj entries =>
    match TypeToken.checkFields t.schema.fields entries "" with
    | .ok values => .ok ⟨t, values⟩
    | .error violations => .error ⟨t.name, violations⟩
  | v => .error ⟨t.name, [⟨"", .notAnObject v.kind⟩]⟩

end RecordType

namespace RecordInstance

/-- The object of an instance. -/
def toJson (i : RecordInstance) : Json :=
  .obj i.values

/-- The value of a field. -/
def get? (i : RecordInstance) (field : String) : Option Json :=
  i.values.lookup field

/-- Equality of instances: equal types and equal values, whatever the order of keys. -/
def same (i j : RecordInstance) : Bool :=
  i.type.same j.type && Json.equivObject i.values j.values

end RecordInstance

/-- The instance of another type that the object of an instance denotes. -/
def RecordType.revalidate (t : RecordType) (i : RecordInstance) :
    Except ValidationError RecordInstance :=
  t.validate i.toJson

end TypedWorkflow
