import TypedWorkflow.Proofs.Schema.Verdict

/-!
# Normal forms

Validation is a projection onto normal forms: it gives a value that the same type accepts and does
not change any more. What makes this so is that the names of a record are distinct; of a name
declared twice the second look-up would meet the first field's result.

## Main definitions

* `TypeToken.normalForm_normalForm`: a normal form is its own normal form.
* `TypeToken.conforms_normalForm`: the normal form of a value of a type is a value of the type.
* `RecordType.validate_toJson`, `RecordType.validate_fixpoint`: instances are what validation makes
  of them.
-/

namespace TypedWorkflow

/-! ## Numbers -/

theorem Number.IsIntegral.exists_normalForm {n : Number} (h : n.IsIntegral) :
    ∃ i, n.toInteger? = some i ∧ n.normalForm = .int i := by
  obtain ⟨i, hi⟩ := Option.isSome_iff_exists.1 (n.isIntegral_iff.1 h)
  exact ⟨i, hi, by simp [Number.normalForm, hi]⟩

@[simp] theorem Number.normalForm_int (i : Int) : (Number.int i).normalForm = .int i := rfl

theorem Number.normalForm_normalForm (n : Number) : n.normalForm.normalForm = n.normalForm := by
  cases h : n.toInteger? with
  | some i =>
    have hn : n.normalForm = .int i := by simp [Number.normalForm, h]
    rw [hn, normalForm_int]
  | none =>
    have hn : n.normalForm = n := by simp [Number.normalForm, h]
    rw [hn, hn]

namespace TypeToken

/-! ## Fields -/

/-- Under a declared name the normal form of an object holds the normal form of its value. -/
theorem lookup_normalFields_of_mem {fields : List (String × TypeToken)}
    (hnames : (fields.map Prod.fst).Nodup) (entries : Json.Entries) {f : String × TypeToken}
    (hf : f ∈ fields) : (normalFields fields entries).lookup f.1 =
      some (f.2.normalForm ((entries.lookup f.1).getD .null)) := by
  rw [lookup_normalFields, Entries.lookup_eq_some_of_mem hnames hf, Option.map_some]

/-! ## Values -/

/-- A normal form is its own normal form. -/
theorem normalForm_normalForm {t : TypeToken} (ht : t.Distinct) (v : Json) :
    t.normalForm (t.normalForm v) = t.normalForm v := by
  induction t generalizing v with
  | int =>
    cases v with
    | num n => exact congrArg Json.num n.normalForm_normalForm
    | _ => rfl
  | listOf item ih =>
    cases v with
    | arr items =>
      simp only [normalForm, List.map_map, Json.arr.injEq]
      exact List.map_congr_left fun w _ => ih ht w
    | _ => rfl
  | dictOf key value _ ih =>
    cases v with
    | obj entries =>
      simp only [normalForm, List.map_map, Json.obj.injEq]
      exact List.map_congr_left fun e _ => Prod.ext rfl (ih ht.2 e.2)
    | _ => rfl
  | record name fields ih =>
    obtain ⟨hnames, htypes⟩ := (distinct_record_iff name fields).1 ht
    cases v with
    | obj entries =>
      rw [normalForm, normalForm, normalFields_eq_map fields (normalFields fields entries),
        normalFields_eq_map fields entries, Json.obj.injEq]
      refine List.map_congr_left fun f hf => Prod.ext rfl ?_
      rw [← normalFields_eq_map, lookup_normalFields_of_mem hnames entries hf]
      exact ih f hf (htypes f hf) _
    | _ => rfl
  | _ => cases v <;> rfl

/-- The normal form of a value of a type is a value of the type. -/
theorem conforms_normalForm {t : TypeToken} (ht : t.Distinct) {v : Json} (h : t.Conforms v) :
    t.Conforms (t.normalForm v) := by
  induction t generalizing v with
  | int =>
    obtain ⟨n, rfl, hn⟩ := (conforms_int_iff v).1 h
    obtain ⟨i, -, hi⟩ := hn.exists_normalForm
    rw [normalForm, hi]
    trivial
  | listOf item ih =>
    obtain ⟨items, rfl, hitems⟩ := (conforms_listOf_iff item v).1 h
    refine (conforms_listOf_iff item _).2 ⟨_, rfl, ?_⟩
    simpa using fun w hw => ih ht (hitems w hw)
  | dictOf key value _ ih =>
    obtain ⟨entries, rfl, hentries⟩ := (conforms_dictOf_iff key value v).1 h
    refine (conforms_dictOf_iff key value _).2 ⟨_, rfl, ?_⟩
    intro e he
    obtain ⟨d, hd, rfl⟩ := List.mem_map.1 he
    exact ⟨(hentries d hd).1, ih ht.2 (hentries d hd).2⟩
  | record name fields ih =>
    obtain ⟨hnames, htypes⟩ := (distinct_record_iff name fields).1 ht
    obtain ⟨entries, rfl, hentries⟩ := (conforms_record_iff name fields v).1 h
    refine (conforms_record_iff name fields _).2 ⟨_, rfl, ?_⟩
    intro f hf
    obtain ⟨w, hw, hconf⟩ := hentries f hf
    refine ⟨_, lookup_normalFields_of_mem hnames entries hf, ih f hf (htypes f hf) ?_⟩
    rwa [hw, Option.getD_some]
  | _ => cases v <;> exact h

end TypeToken

/-! ## Instances -/

namespace RecordType

/-- An instance holds the normal form of the value that it was made from. -/
theorem toJson_of_validate {T : RecordType} {v : Json} {i : RecordInstance}
    (h : T.validate v = .ok i) : T.token.Conforms v ∧ i.toJson = T.token.normalForm v := by
  obtain ⟨hconf, rfl⟩ := (validate_eq_ok_iff T v i).1 h
  obtain ⟨entries, rfl, -⟩ := (TypeToken.conforms_record_iff _ _ v).1 hconf
  exact ⟨hconf, rfl⟩

/-- A type makes of its instances what they are. -/
theorem validate_toJson {T : RecordType} (hT : T.WellFormed) {v : Json} {i : RecordInstance}
    (h : T.validate v = .ok i) : T.validate i.toJson = .ok i := by
  obtain ⟨hconf, hjson⟩ := toJson_of_validate h
  rw [validate_eq_ok_iff, hjson, TypeToken.normalForm_normalForm hT]
  exact ⟨TypeToken.conforms_normalForm hT hconf, ((validate_eq_ok_iff T v i).1 h).2⟩

/-- An instance holds the declared names in order, and validating it again, by its own type, gives
it back as it is. -/
theorem validate_fixpoint {T : RecordType} (hT : T.WellFormed) {v : Json} {i : RecordInstance}
    (h : T.validate v = .ok i) :
    i.values.map Prod.fst = T.schema.names ∧ T.validate i.toJson = .ok i ∧
      T.revalidate i = .ok i := by
  refine ⟨?_, validate_toJson hT h, validate_toJson hT h⟩
  obtain ⟨entries, rfl, -⟩ := (TypeToken.conforms_record_iff _ _ v).1 (toJson_of_validate h).1
  rw [((validate_eq_ok_iff T _ i).1 h).2]
  exact TypeToken.names_normalFields T.schema.fields entries

/-- A record of lists of integers by number and of a point. -/
def tallyType : RecordType :=
  ⟨"Tally", ⟨[("counts", .dictOf .int (.listOf .int)),
    ("origin", .record "Point" [("x", .int), ("y", .float)])]⟩⟩

/-- A value of that type with floating-point numbers for integers, keys that are not declared, and
the others in another order. -/
def tallySample : Json :=
  .obj [("origin", .obj [("y", .num (.int 3)), ("z", .null),
      ("x", .num (.float ⟨false, 2 ^ 52, -49, by decide⟩))]),
    ("note", .bool true),
    ("counts", .obj [("7", .arr [.num (.float ⟨true, 2 ^ 52, -51, by decide⟩)])])]

/-- What validation makes of the value. -/
def tallyInstance : RecordInstance :=
  ⟨tallyType, [("counts", .obj [("7", .arr [.num (.int (-2))])]),
    ("origin", .obj [("x", .num (.int 8)), ("y", .num (.int 3))])]⟩

theorem validate_fixpoint_tallySample :
    tallyType.WellFormed ∧ tallyType.validate tallySample = .ok tallyInstance ∧
      tallyInstance.values.map Prod.fst = tallyType.schema.names ∧
      tallyType.validate tallyInstance.toJson = .ok tallyInstance ∧
      tallyType.revalidate tallyInstance = .ok tallyInstance := by
  have htype : tallyType.WellFormed := by
    simp [WellFormed, token, tallyType, TypeToken.Distinct, TypeToken.DistinctFields]
  have hsample : tallyType.validate tallySample = .ok tallyInstance := rfl
  exact ⟨htype, hsample, validate_fixpoint htype hsample⟩

end RecordType

end TypedWorkflow
