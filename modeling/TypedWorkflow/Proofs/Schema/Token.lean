import TypedWorkflow.Proofs.Entries
import TypedWorkflow.Schema.Basic
import TypedWorkflow.Schema.Record

/-!
# Type tokens as trees

Type tokens nest through the fields of records. A type is well formed when no record inside it
declares a name twice; the operations on schemas build no others. For well-formed types equality
is what it should be: records are equal when their fields agree name by name.

## Main definitions

* `TypeToken.ind`: induction on types.
* `TypeToken.Distinct`, `RecordType.WellFormed`: no record declares a name twice, at any depth.
* `TypeToken.same_record_iff`: equality of records, name by name.
-/

namespace TypedWorkflow

namespace TypeToken

/-- Induction on types: for a record the statement may be assumed of the type of every field. -/
@[elab_as_elim, induction_eliminator]
theorem ind {motive : TypeToken → Prop} (int : motive .int) (float : motive .float)
    (str : motive .str) (bool : motive .bool) (any : motive .any) (list : motive .list)
    (listOf : ∀ item, motive item → motive (.listOf item)) (dict : motive .dict)
    (dictOf : ∀ key value, motive key → motive value → motive (.dictOf key value))
    (record : ∀ name fields, (∀ f ∈ fields, motive f.2) → motive (.record name fields))
    (t : TypeToken) : motive t := by
  refine @TypeToken.rec motive (fun fields => ∀ f ∈ fields, motive f.2) (fun f => motive f.2)
    int float str bool any list listOf dict dictOf record ?_ ?_ ?_ t
  · simp
  · intro f fields hf hfields g hg
    rcases List.mem_cons.1 hg with rfl | hg
    · exact hf
    · exact hfields g hg
  · intro _ u hu
    exact hu

/-! ## Distinct names -/

mutual

/-- In every record inside the type the names of the fields are distinct. -/
def Distinct : TypeToken → Prop
  | .listOf item => item.Distinct
  | .dictOf key value => key.Distinct ∧ value.Distinct
  | .record _ fields => (fields.map Prod.fst).Nodup ∧ DistinctFields fields
  | _ => True

/-- `Distinct` of the type of every field. -/
def DistinctFields : List (String × TypeToken) → Prop
  | [] => True
  | (_, type) :: rest => type.Distinct ∧ DistinctFields rest

end

theorem distinctFields_iff (fields : List (String × TypeToken)) :
    DistinctFields fields ↔ ∀ f ∈ fields, f.2.Distinct := by
  induction fields with
  | nil => simp [DistinctFields]
  | cons f fields ih => simp [DistinctFields, ih]

theorem distinct_record_iff (name : String) (fields : List (String × TypeToken)) :
    (TypeToken.record name fields).Distinct ↔
      (fields.map Prod.fst).Nodup ∧ ∀ f ∈ fields, f.2.Distinct := by
  rw [Distinct, distinctFields_iff]

/-! ## Equality -/

theorem sameFields_iff (fs gs : List (String × TypeToken)) :
    sameFields fs gs = true ↔
      ∀ f ∈ fs, ∃ u, gs.lookup f.1 = some u ∧ f.2.same u = true := by
  induction fs with
  | nil => simp [sameFields]
  | cons f fs ih =>
    obtain ⟨name, type⟩ := f
    simp only [sameFields, Bool.and_eq_true, ih, List.forall_mem_cons]
    refine and_congr_left fun _ => ?_
    cases gs.lookup name <;> simp

theorem exists_of_same_listOf {item u : TypeToken} (h : (TypeToken.listOf item).same u = true) :
    ∃ other, u = .listOf other ∧ item.same other = true := by
  cases u <;> simp_all [same]

theorem exists_of_same_dictOf {key value u : TypeToken}
    (h : (TypeToken.dictOf key value).same u = true) :
    ∃ k v, u = .dictOf k v ∧ key.same k = true ∧ value.same v = true := by
  cases u <;> simp_all [same]

theorem exists_of_same_record {name : String} {fields : List (String × TypeToken)} {u : TypeToken}
    (h : (TypeToken.record name fields).same u = true) : ∃ n fs, u = .record n fs := by
  cases u <;> simp_all [same]

/-- Records are equal when their fields agree, whatever their names and the order of fields. -/
theorem same_record_iff {m n : String} {fs gs : List (String × TypeToken)}
    (hfs : (fs.map Prod.fst).Nodup) (hgs : (gs.map Prod.fst).Nodup) :
    (TypeToken.record m fs).same (.record n gs) = true ↔
      Entries.Agree (fun t u => t.same u = true) fs gs := by
  rw [Entries.agree_iff hfs hgs, same, Bool.and_eq_true, beq_iff_eq, sameFields_iff]

end TypeToken

/-- No record of a record type, itself included, declares a name twice. -/
def RecordType.WellFormed (t : RecordType) : Prop :=
  t.token.Distinct

theorem RecordType.WellFormed.nodup_names {T : RecordType} (hT : T.WellFormed) :
    T.schema.names.Nodup :=
  ((TypeToken.distinct_record_iff _ _).1 hT).1

theorem RecordType.WellFormed.distinct_of_field? {T : RecordType} (hT : T.WellFormed)
    {field : String} {t : TypeToken} (ht : T.field? field = some t) : t.Distinct :=
  ((TypeToken.distinct_record_iff _ _).1 hT).2 _ (Entries.mem_of_lookup_eq_some ht)

end TypedWorkflow
