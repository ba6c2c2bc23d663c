import TypedWorkflow.Schema.Violation
import TypedWorkflow.Text.Numeral

/-!
# Validation

A value is checked against a type from the outside in: the fields of a record in declaration
order, the items of an array by index, the entries of a dictionary in the order of the object. All
violations are collected, none hides another. A value without violations is returned in normal
form: a record holds its declared fields in declaration order and nothing else, and a number at an
integer position is written as an integer.

## Main definitions

* `Checked`: a result, or all that is wrong.
* `TypeToken.check`, `TypeToken.checkFields`: checks a value against a type, and an object against
  the fields of a record.
-/

namespace TypedWorkflow

-- powers are those of the core library, whatever else is imported
attribute [local instance (high)] instPowNat

/-! ## Collecting violations -/

/-- A result, or all that is wrong. -/
abbrev Checked (α : Type) := Except (List FieldViolation) α

namespace Checked

/-- Combines two results; if either is missing, the violations of both remain. -/
def both {α β γ : Type} (f : α → β → γ) : Checked α → Checked β → Checked γ
  | .ok a, .ok b => .ok (f a b)
  | .ok _, .error ws => .error ws
  | .error vs, .ok _ => .error vs
  | .error vs, .error ws => .error (vs ++ ws)

/-- All results of a list, or all violations in order. -/
def all {α : Type} : List (Checked α) → Checked (List α)
  | [] => .ok []
  | c :: cs => both List.cons c (all cs)

/-- One violation. -/
def fail {α : Type} (path : Path) (kind : ViolationKind) : Checked α :=
  .error [⟨path, kind⟩]

end Checked

/-! ## Numbers and keys -/

/-- The integer that a number stands for at an integer position. An integer stands for itself; a
floating-point number without fraction between `-2^63` and `2^63` for its value, where `2^63`
itself, which is no signed 64-bit integer, becomes the greatest of these. -/
def Number.toInteger? : Number → Option Int
  | .int i => some i
  | .float x =>
    match x.toInt? with
    | some i =>
      if -2 ^ (63 : Nat) ≤ i ∧ i ≤ 2 ^ (63 : Nat) then some (min i (2 ^ (63 : Nat) - 1)) else none
    | none => none

namespace TypeToken

/-- Whether a key of a dictionary reads as the declared type. Every key is a string; structured
types have no keys. -/
def acceptsKey (type : TypeToken) (key : String) : Bool :=
  match type with
  | .str | .any => true
  | .int => (Text.toInt64? key.toList).isSome
  | .float => Text.isFloat key.toList
  | .bool => key == "true" || key == "false"
  | _ => false

/-- The violation of a value that is of another kind than its type asks for. -/
def mismatch (type : TypeToken) (v : Json) : ViolationKind :=
  match type with
  | .dict | .dictOf _ _ | .record _ _ => .notAnObject v.kind
  | _ => .typeMismatch type.text v.kind

/-- Checks the key of a dictionary's entry. -/
def checkKey (type : TypeToken) (key : String) (path : Path) : Checked Unit :=
  if type.acceptsKey key then .ok () else Checked.fail path (.invalidKey type.text)

/-! ## Values -/

mutual

/-- Checks a value at a path against a type, and gives its normal form. -/
def check (type : TypeToken) (v : Json) (path : Path) : Checked Json :=
  match type, v with
  | .any, v => .ok v
  | .int, .num n =>
    match n.toInteger? with
    | some i => .ok (.num (.int i))
    | none => Checked.fail path (mismatch .int (.num n))
  | .float, .num n => .ok (.num n)
  | .str, .str s => .ok (.str s)
  | .bool, .bool b => .ok (.bool b)
  | .list, .arr items => .ok (.arr items)
  | .dict, .obj entries => .ok (.obj entries)
  | .listOf item, .arr items =>
    (Checked.all (items.mapIdx fun i v => check item v (Path.index path i))).map .arr
  | .dictOf key value, .obj entries =>
    (Checked.all (entries.map fun (name, v) =>
      let here := Path.field path name
      Checked.both (fun _ v => (name, v)) (checkKey key name here) (check value v here))).map .obj
  | .record _ fields, .obj entries => (checkFields fields entries path).map .obj
  | type, v => Checked.fail path (mismatch type v)

/-- Checks the entries of an object against declared fields, and gives the declared ones in normal
form. -/
def checkFields (fields : List (String × TypeToken)) (entries : Json.Entries) (path : Path) :
    Checked Json.Entries :=
  match fields with
  | [] => .ok []
  | (name, type) :: rest =>
    let field : Checked Json :=
      match entries.lookup name with
      | some v => check type v (Path.field path name)
      | none => Checked.fail (Path.field path name) .missing
    Checked.both (fun v vs => (name, v) :: vs) field (checkFields rest entries path)

end

end TypeToken

end TypedWorkflow
