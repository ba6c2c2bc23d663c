import TypedWorkflow.Binary64

/-!
# JSON values

A JSON value keeps what its text says and no more: the order of an object's entries, and whether a
number was written as an integer or as a floating-point number. An object's keys are distinct in
every value that a reader produces; `Json.Distinct` says so, and looking up a key takes its first
entry.

## Main definitions

* `Json`, `Number`: values.
* `Json.Kind`: the six kinds of values, with their names in messages.
* `Json.get?`, `Json.insert`: the entries of an object.
* `Json.equiv`: equality that ignores the order of keys and the sign of zero.
-/

namespace TypedWorkflow

/-- A number of a JSON value. A literal without fraction and exponent that fits a signed or
unsigned 64-bit word is an integer; all others are floating-point numbers. -/
inductive Number where
  | int (value : Int)
  | float (value : Binary64)
  deriving DecidableEq

/-- A JSON value. -/
inductive Json where
  | null
  | bool (value : Bool)
  | num (value : Number)
  | str (value : String)
  | arr (items : List Json)
  | obj (entries : List (String × Json))

instance : Inhabited Json := ⟨.null⟩

namespace Number

/-- The exact rational number. -/
def toRat : Number → Rat
  | .int i => i
  | .float x => x.toRat

/-- Equality of numbers of one representation; an integer never equals a floating-point number. -/
def sameValue : Number → Number → Bool
  | .int i, .int j => i == j
  | .float x, .float y => x.sameValue y
  | _, _ => false

end Number

namespace Json

/-! ## Kinds -/

/-- The kinds of JSON values. -/
inductive Kind where
  | null
  | boolean
  | number
  | string
  | array
  | object
  deriving DecidableEq

/-- The name of a kind in messages. -/
def Kind.name : Kind → String
  | .null => "null"
  | .boolean => "boolean"
  | .number => "number"
  | .string => "string"
  | .array => "array"
  | .object => "object"

/-- The kind of a value. -/
def kind : Json → Kind
  | .null => .null
  | .bool _ => .boolean
  | .num _ => .number
  | .str _ => .string
  | .arr _ => .array
  | .obj _ => .object

/-! ## Entries of objects -/

/-- The entries of an object: keys with their values, in order. -/
abbrev Entries := List (String × Json)

/-- Puts a value under a key: in place of the value already there, else at the end. -/
def insert (key : String) (value : Json) : Entries → Entries
  | [] => [(key, value)]
  | (k, v) :: rest => if k = key then (k, value) :: rest else (k, v) :: insert key value rest

/-- The entries of an object, none for a value of another kind. -/
def entries : Json → Entries
  | .obj es => es
  | _ => []

/-- The value under a key of an object. -/
def get? (key : String) : Json → Option Json
  | .obj es => es.lookup key
  | _ => none

mutual

/-- In every object inside the value the keys are distinct. -/
def Distinct : Json → Prop
  | .arr items => DistinctItems items
  | .obj es => (es.map Prod.fst).Nodup ∧ DistinctEntries es
  | _ => True

/-- `Distinct` of every value of a list. -/
def DistinctItems : List Json → Prop
  | [] => True
  | v :: rest => v.Distinct ∧ DistinctItems rest

/-- `Distinct` of every value of an object. -/
def DistinctEntries : Entries → Prop
  | [] => True
  | (_, v) :: rest => v.Distinct ∧ DistinctEntries rest

end

/-! ## Equality -/

mutual

/-- Equality of values, up to the order of an object's keys and the sign of a floating-point
zero. -/
def equiv : Json → Json → Bool
  | .null, .null => true
  | .bool a, .bool b => a == b
  | .num a, .num b => a.sameValue b
  | .str a, .str b => a == b
  | .arr xs, .arr ys => equivItems xs ys
  | .obj xs, .obj ys => xs.length == ys.length && equivEntries xs ys
  | _, _ => false

/-- `equiv` of two lists, element by element. -/
def equivItems : List Json → List Json → Bool
  | [], [] => true
  | x :: xs, y :: ys => x.equiv y && equivItems xs ys
  | _, _ => false

/-- Whether every entry of an object has its equal among the entries of another. -/
def equivEntries : Entries → Entries → Bool
  | [], _ => true
  | (k, x) :: xs, ys =>
    (match ys.lookup k with
      | some y => x.equiv y
      | none => false) && equivEntries xs ys

end

/-- `equiv` of the objects with the given entries. -/
def equivObject (xs ys : Entries) : Bool :=
  (Json.obj xs).equiv (Json.obj ys)

end Json

end TypedWorkflow
