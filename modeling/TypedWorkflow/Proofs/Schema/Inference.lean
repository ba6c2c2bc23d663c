import TypedWorkflow.Proofs.Schema.Verdict

/-!
# Inferred types

The type of an object declares each of its keys with the token of the value. A token is chosen by
the kind of the value, and for numbers by the way in which they are written, so that the check
against it finds nothing to complain about and nothing to rewrite: an integer is one at an integer
position, a number without fraction that is written with a point is declared as a number, and only
a missing value may be anything. What counts is the tokens alone, so the type treats all objects
with the same keys and tokens in this way.

## Main definitions

* `TypeToken.conforms_infer`, `TypeToken.normalForm_infer`: a value at the token inferred from it.
* `RecordType.InferAlike`, `RecordType.validate_infer_of_alike`: objects with the same keys and
  tokens.
* `RecordType.infer_accepts`: the sample, and all such objects, are accepted unchanged.
-/

namespace TypedWorkflow

namespace TypeToken

/-- A value is of the type inferred from it. -/
theorem conforms_infer (v : Json) : (infer v).Conforms v := by
  cases v with
  | num n => cases n <;> trivial
  | _ => trivial

/-- A value is in normal form at the type inferred from it. -/
theorem normalForm_infer (v : Json) : (infer v).normalForm v = v := by
  cases v with
  | num n => cases n <;> rfl
  | _ => rfl

end TypeToken

namespace RecordType

variable {sample values : Json.Entries}

/-- Both objects have the same keys, with values of which the same tokens are inferred. -/
def InferAlike (sample values : Json.Entries) : Prop :=
  Entries.Agree (fun v w => TypeToken.infer v = TypeToken.infer w) sample values

theorem names_infer (name : String) (sample : Json.Entries) :
    (infer name sample).schema.names = sample.map Prod.fst :=
  Entries.names_map (fun _ v => TypeToken.infer v) sample

/-- The values of an object, in the order of the keys of a sample. -/
def inOrderOf (sample values : Json.Entries) : Json.Entries :=
  sample.map fun e => (e.1, (values.lookup e.1).getD .null)

theorem names_inOrderOf (sample values : Json.Entries) :
    (inOrderOf sample values).map Prod.fst = sample.map Prod.fst :=
  Entries.names_map (fun name _ => (values.lookup name).getD .null) sample

theorem InferAlike.inOrderOf_perm (h : InferAlike sample values)
    (hsample : (sample.map Prod.fst).Nodup) (hvalues : (values.map Prod.fst).Nodup) :
    (inOrderOf sample values).Perm values := by
  refine Entries.perm_of_lookup_eq (by rwa [names_inOrderOf]) hvalues fun name => ?_
  rw [inOrderOf, Entries.lookup_map fun name _ => (values.lookup name).getD .null]
  have hname := h name
  cases hv : sample.lookup name with
  | none =>
    rw [hv] at hname
    generalize values.lookup name = w at hname
    cases hname
    rfl
  | some v =>
    obtain ⟨w, hw, -⟩ := h.of_some hv
    rw [hw, Option.map_some, Option.getD_some]

theorem inOrderOf_self (h : (sample.map Prod.fst).Nodup) : inOrderOf sample sample = sample := by
  conv_rhs => rw [← List.map_id sample]
  refine List.map_congr_left fun e he => ?_
  rw [Entries.lookup_eq_some_of_mem h he]
  rfl

/-- The type of a sample accepts every object with the same keys and tokens and changes no value. -/
theorem validate_infer_of_alike (name : String) (hsample : (sample.map Prod.fst).Nodup)
    (h : InferAlike sample values) : (infer name sample).validate (.obj values) =
      .ok ⟨infer name sample, inOrderOf sample values⟩ := by
  -- under each key of the sample stands a value at its own inferred token
  have hvalue : ∀ e ∈ sample, ∃ w, values.lookup e.1 = some w ∧
      TypeToken.infer e.2 = TypeToken.infer w := fun e he =>
    h.of_some (Entries.lookup_eq_some_of_mem hsample he)
  refine (validate_eq_ok_iff _ _ _).2 ⟨?_, ?_⟩
  · refine (TypeToken.conforms_record_iff _ _ _).2 ⟨values, rfl, ?_⟩
    intro f hf
    obtain ⟨e, he, rfl⟩ := List.mem_map.1 hf
    obtain ⟨w, hw, htoken⟩ := hvalue e he
    have hconf : (TypeToken.infer e.2).Conforms w := htoken ▸ TypeToken.conforms_infer w
    exact ⟨w, hw, hconf⟩
  · have hfields : TypeToken.normalFields (infer name sample).schema.fields values =
        inOrderOf sample values := by
      rw [TypeToken.normalFields_eq_map, infer, List.map_map]
      refine List.map_congr_left fun e he => ?_
      obtain ⟨w, hw, htoken⟩ := hvalue e he
      simp [hw, htoken, TypeToken.normalForm_infer]
    rw [token, TypeToken.normalForm, hfields]
    rfl

/-- The type inferred from an object accepts the object unchanged. -/
theorem validate_infer (name : String) (h : (sample.map Prod.fst).Nodup) :
    (infer name sample).validate (.obj sample) = .ok ⟨infer name sample, sample⟩ := by
  have halike : InferAlike sample sample := .of_perm (fun _ _ => rfl) h (.refl sample)
  rw [validate_infer_of_alike name h halike, inOrderOf_self h]

/-- The type of an object declares its keys in order and accepts the object as it is. It also
accepts every object with the same keys and tokens, and only puts the keys in its own order. -/
theorem infer_accepts (name : String) (hsample : (sample.map Prod.fst).Nodup) :
    (infer name sample).schema.names = sample.map Prod.fst ∧
    (infer name sample).validate (.obj sample) = .ok ⟨infer name sample, sample⟩ ∧
    ∀ values : Json.Entries, (values.map Prod.fst).Nodup → InferAlike sample values →
      ∃ i, (infer name sample).validate (.obj values) = .ok i ∧
        i.values.map Prod.fst = (infer name sample).schema.names ∧ i.values.Perm values := by
  refine ⟨names_infer name sample, validate_infer name hsample, fun values hvalues h => ?_⟩
  refine ⟨_, validate_infer_of_alike name hsample h, ?_, h.inOrderOf_perm hsample hvalues⟩
  rw [names_infer, names_inOrderOf]

/-- An object with a value of each kind, the integers of both words at their ends, and a number
without fraction that is not written as an integer. -/
def readingSample : Json.Entries :=
  [("id", .num (.int 18446744073709551615)), ("low", .num (.int (-9223372036854775808))),
    ("level", .num (.float ⟨false, 2 ^ 52, -48, by decide⟩)), ("note", .null), ("ok", .bool true),
    ("unit", .str "m"), ("raw", .arr [.num (.float (.zero true)), .null]),
    ("by", .obj [("z", .null), ("a", .num (.int 0))])]

/-- Another object with the same keys and tokens, in another order. -/
def otherReading : Json.Entries :=
  [("by", .obj []), ("raw", .arr [.str "?"]), ("unit", .str ""), ("ok", .bool false),
    ("note", .null), ("level", .num (.float (.zero true))), ("low", .num (.int 3)),
    ("id", .num (.int 4))]

theorem infer_accepts_readingSample :
    (readingSample.map Prod.fst).Nodup ∧ (otherReading.map Prod.fst).Nodup ∧
    InferAlike readingSample otherReading ∧
    (infer "Reading" readingSample).schema.names = readingSample.map Prod.fst ∧
    (infer "Reading" readingSample).validate (.obj readingSample) =
      .ok ⟨infer "Reading" readingSample, readingSample⟩ ∧
    ∃ i, (infer "Reading" readingSample).validate (.obj otherReading) = .ok i ∧
      i.values.map Prod.fst = (infer "Reading" readingSample).schema.names ∧
      i.values.Perm otherReading := by
  have hsample : (readingSample.map Prod.fst).Nodup := by decide
  have hother : (otherReading.map Prod.fst).Nodup := by decide
  have halike : InferAlike readingSample otherReading := by
    refine (Entries.agree_iff hsample hother).2 ⟨rfl, ?_⟩
    simp [readingSample, otherReading, List.lookup_cons, TypeToken.infer]
  obtain ⟨hnames, hself, hothers⟩ := infer_accepts "Reading" hsample
  exact ⟨hsample, hother, halike, hnames, hself, hothers otherReading hother halike⟩

end RecordType

end TypedWorkflow
