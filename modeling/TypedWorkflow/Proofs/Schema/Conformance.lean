import TypedWorkflow.Proofs.Binary64.Value
import TypedWorkflow.Proofs.Schema.Token
import TypedWorkflow.Proofs.Text.Numeral

/-!
# Conformance

Which values are of a type, said without the check: by the shape of the value and, for structured
types, by the values inside it. Apart from this stands the normal form of a value at a type, a total
function that writes numbers at integer positions as integers and cuts records down to their
declared fields. Conforming values and their normal forms are what the check amounts to.

## Main definitions

* `Number.IsIntegral`, `TypeToken.ReadsKey`: integers, and the keys of typed dictionaries.
* `TypeToken.Conforms`: values of a type.
* `TypeToken.normalForm`: the normal form of a value at a type.
-/

namespace TypedWorkflow

/-! ## Numbers and keys -/

/-- A number for an integer position: one written as an integer, or a floating-point number whose
value is an integer between `-2^63` and `2^63`. -/
def Number.IsIntegral : Number → Prop
  | .int _ => True
  | .float x => ∃ i : Int, x.toRat = i ∧ -2 ^ 63 ≤ i ∧ i ≤ 2 ^ 63

/-- A floating-point number at an integer position becomes the integer that it is, except that
`2^63` becomes the integer before it. -/
theorem Number.toInteger?_float_eq_some_iff (x : Binary64) (j : Int) :
    (Number.float x).toInteger? = some j ↔
      ∃ i : Int, x.toRat = i ∧ (-2 ^ 63 ≤ i ∧ i ≤ 2 ^ 63) ∧ j = min i (2 ^ 63 - 1) := by
  simp only [toInteger?, ← x.toInt?_eq_some_iff]
  cases x.toInt? with
  | none => simp
  | some i =>
    simp only [Option.some.injEq, exists_eq_left']
    split <;> simp_all [eq_comm]

theorem Number.isIntegral_iff (n : Number) : n.IsIntegral ↔ n.toInteger?.isSome = true := by
  rw [Option.isSome_iff_exists]
  cases n with
  | int i => simp [IsIntegral, toInteger?]
  | float x => simp [IsIntegral, toInteger?_float_eq_some_iff]

/-- The number that stands for `n` at an integer position. -/
def Number.normalForm (n : Number) : Number :=
  match n.toInteger? with
  | some i => .int i
  | none => n

instance : DecidablePred Number.IsIntegral := fun n =>
  decidable_of_iff _ n.isIntegral_iff.symm

namespace TypeToken

/-- Keys that read as a type: every key as a text, numerals as numbers, two words as booleans, and
no key as any structured type. -/
def ReadsKey : TypeToken → String → Prop
  | .str, _ | .any, _ => True
  | .int, key => Text.DenotesInt64 key.toList
  | .float, key => Text.DenotesFloat key.toList
  | .bool, key => key = "true" ∨ key = "false"
  | _, _ => False

theorem acceptsKey_iff (type : TypeToken) (key : String) :
    type.acceptsKey key = true ↔ type.ReadsKey key := by
  cases type with
  | int => exact Text.toInt64?_isSome_iff _
  | float => exact Text.isFloat_iff _
  | _ => simp [acceptsKey, ReadsKey]

instance (type : TypeToken) (key : String) : Decidable (type.ReadsKey key) :=
  decidable_of_iff _ (acceptsKey_iff type key)

/-! ## Conformance -/

mutual

/-- The values of a type. -/
def Conforms : TypeToken → Json → Prop
  | .any, _ => True
  | .int, .num n => n.IsIntegral
  | .float, .num _ => True
  | .str, .str _ => True
  | .bool, .bool _ => True
  | .list, .arr _ => True
  | .dict, .obj _ => True
  | .listOf item, .arr items => ∀ v ∈ items, item.Conforms v
  | .dictOf key value, .obj entries => ∀ e ∈ entries, key.ReadsKey e.1 ∧ value.Conforms e.2
  | .record _ fields, .obj entries => ConformsFields fields entries
  | _, _ => False

/-- The objects that hold a value of its type under every declared name. -/
def ConformsFields : List (String × TypeToken) → Json.Entries → Prop
  | [], _ => True
  | (name, type) :: rest, entries =>
    (∃ v, entries.lookup name = some v ∧ type.Conforms v) ∧ ConformsFields rest entries

end

theorem conformsFields_iff (fields : List (String × TypeToken)) (entries : Json.Entries) :
    ConformsFields fields entries ↔
      ∀ f ∈ fields, ∃ v, entries.lookup f.1 = some v ∧ f.2.Conforms v := by
  induction fields with
  | nil => simp [ConformsFields]
  | cons f fields ih => simp [ConformsFields, ih]

theorem conforms_record_iff (name : String) (fields : List (String × TypeToken)) (v : Json) :
    (TypeToken.record name fields).Conforms v ↔ ∃ entries, v = .obj entries ∧
      ∀ f ∈ fields, ∃ w, entries.lookup f.1 = some w ∧ f.2.Conforms w := by
  cases v <;> simp [Conforms, conformsFields_iff]

theorem conforms_listOf_iff (item : TypeToken) (v : Json) :
    (TypeToken.listOf item).Conforms v ↔
      ∃ items, v = .arr items ∧ ∀ w ∈ items, item.Conforms w := by
  cases v <;> simp [Conforms]

theorem conforms_dictOf_iff (key value : TypeToken) (v : Json) :
    (TypeToken.dictOf key value).Conforms v ↔ ∃ entries, v = .obj entries ∧
      ∀ e ∈ entries, key.ReadsKey e.1 ∧ value.Conforms e.2 := by
  cases v <;> simp [Conforms]

theorem conforms_int_iff (v : Json) :
    TypeToken.int.Conforms v ↔ ∃ n : Number, v = .num n ∧ n.IsIntegral := by
  cases v <;> simp [Conforms]

/-! ## Normal forms -/

mutual

/-- The normal form of a value at a type. Where the value is not of the type nothing is changed. -/
def normalForm : TypeToken → Json → Json
  | .int, .num n => .num n.normalForm
  | .listOf item, .arr items => .arr (items.map item.normalForm)
  | .dictOf _ value, .obj entries => .obj (entries.map fun e => (e.1, value.normalForm e.2))
  | .record _ fields, .obj entries => .obj (normalFields fields entries)
  | _, v => v

/-- The declared fields of an object in normal form, in declaration order. -/
def normalFields : List (String × TypeToken) → Json.Entries → Json.Entries
  | [], _ => []
  | (name, type) :: rest, entries =>
    (name, type.normalForm ((entries.lookup name).getD .null)) :: normalFields rest entries

end

theorem normalFields_eq_map (fields : List (String × TypeToken)) (entries : Json.Entries) :
    normalFields fields entries =
      fields.map fun f => (f.1, f.2.normalForm ((entries.lookup f.1).getD .null)) := by
  induction fields with
  | nil => rfl
  | cons f fields ih => simp [normalFields, ih]

theorem lookup_normalFields (fields : List (String × TypeToken)) (entries : Json.Entries)
    (name : String) :
    (normalFields fields entries).lookup name =
      (fields.lookup name).map (·.normalForm ((entries.lookup name).getD .null)) := by
  rw [normalFields_eq_map]
  exact Entries.lookup_map (fun n t => t.normalForm ((entries.lookup n).getD .null)) fields name

theorem names_normalFields (fields : List (String × TypeToken)) (entries : Json.Entries) :
    (normalFields fields entries).map Prod.fst = fields.map Prod.fst := by
  rw [normalFields_eq_map]
  exact Entries.names_map (fun n t => t.normalForm ((entries.lookup n).getD .null)) fields

end TypeToken

end TypedWorkflow
