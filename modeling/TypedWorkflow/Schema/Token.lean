import TypedWorkflow.Json.Basic

/-!
# Type tokens

A type token says which JSON values a field accepts. Tokens are written as short texts such as
`list[dict[str, int]]`; a record type, which has no text of its own, shows as its name.

## Main definitions

* `TypeToken`: the types of fields.
* `TypeToken.text`: the text of a token.
* `TypeToken.same`: equality that ignores the names of records and the order of their fields.
* `TypeToken.infer`: the token of a value.
-/

namespace TypedWorkflow

/-- The type of a field. -/
inductive TypeToken where
  | int
  | float
  | str
  | bool
  | any
  | list
  | listOf (item : TypeToken)
  | dict
  | dictOf (key value : TypeToken)
  | record (name : String) (fields : List (String × TypeToken))

instance : Inhabited TypeToken := ⟨.any⟩

namespace TypeToken

/-- The text of a token; a record shows as its name. -/
def text : TypeToken → String
  | .int => "int"
  | .float => "float"
  | .str => "str"
  | .bool => "bool"
  | .any => "any"
  | .list => "list"
  | .listOf item => "list[" ++ item.text ++ "]"
  | .dict => "dict"
  | .dictOf key value => "dict[" ++ key.text ++ ", " ++ value.text ++ "]"
  | .record name _ => name

/-- Whether a token is one of the four scalar types. -/
def isScalar : TypeToken → Bool
  | .int | .float | .str | .bool => true
  | _ => false

/-- The token of a value: its kind, without a look into arrays and objects. A missing value may
be anything. -/
def infer : Json → TypeToken
  | .null => .any
  | .bool _ => .bool
  | .num (.int _) => .int
  | .num (.float _) => .float
  | .str _ => .str
  | .arr _ => .list
  | .obj _ => .dict

mutual

/-- Equality of types: records are equal if they have equally many fields and every field of the
first has its equal, under the same name, in the second. -/
def same : TypeToken → TypeToken → Bool
  | .int, .int => true
  | .float, .float => true
  | .str, .str => true
  | .bool, .bool => true
  | .any, .any => true
  | .list, .list => true
  | .listOf a, .listOf b => a.same b
  | .dict, .dict => true
  | .dictOf k a, .dictOf l b => k.same l && a.same b
  | .record _ fs, .record _ gs => fs.length == gs.length && sameFields fs gs
  | _, _ => false

/-- Whether every field of the first list has its equal in the second. -/
def sameFields : List (String × TypeToken) → List (String × TypeToken) → Bool
  | [], _ => true
  | (name, type) :: rest, gs =>
    (match gs.lookup name with
      | some other => type.same other
      | none => false) && sameFields rest gs

end

end TypeToken

end TypedWorkflow
