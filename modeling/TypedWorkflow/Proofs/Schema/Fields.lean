import TypedWorkflow.Graph.Basic
import TypedWorkflow.Proofs.Schema.Construction

/-!
# Adding fields

A schema comes from a constructor or a reader, or from another one by a new field, which is added in
place or to a copy. Whoever holds a schema may go on adding fields to it, so what is true of all of
them has to be kept by each way. That no name is declared twice is: a field whose name is declared
is refused, and then the schema is what it was. Only the type of an object is not made by adding
fields; there the names are the keys of the object, which repeats none. What types the fields have
plays no part in this.

## Main definitions

* `Schema.addField`, `Schema.insertInPlace`: adds a field in place.
* `Schema.Obtainable`: schemas that can be obtained, with fields of any types.
* `Schema.distinct_names_kept`: all of them have distinct names, and what adding a field does.
-/

namespace TypedWorkflow

namespace Schema

variable {s u : Schema} {name : String} {type : TypeToken}

/-! ## Adding a field in place -/

/-- Adds a field in place, unless its name is declared. -/
def addField (name : String) (type : TypeToken) : ExceptT SchemaError (StateM Schema) Unit := do
  if (← get).contains name then throw (.duplicateField name)
  modify fun s => ⟨s.fields ++ [(name, type)]⟩

/-- What comes of it, and the schema afterwards. -/
def insertInPlace (s : Schema) (name : String) (type : TypeToken) :
    Except SchemaError Unit × Schema :=
  Id.run ((addField name type).run.run s)

/-- In place the schema becomes the one with the new field, or stays as it is. -/
theorem insertInPlace_eq (s : Schema) (name : String) (type : TypeToken) :
    s.insertInPlace name type =
      match s.insert name type with
      | .ok u => (.ok (), u)
      | .error e => (.error e, s) := by
  have hstep : s.insertInPlace name type =
      Id.run ((if s.contains name then throw (.duplicateField name)
        else modify fun s => ⟨s.fields ++ [(name, type)]⟩ :
          ExceptT SchemaError (StateM Schema) Unit).run.run s) := by
    unfold insertInPlace addField
    rfl
  rw [hstep, insert]
  split <;> rfl

/-- A field is refused exactly if its name is declared. -/
theorem insert_eq_error_iff {e : SchemaError} :
    s.insert name type = .error e ↔ name ∈ s.names ∧ e = .duplicateField name := by
  rw [← contains_iff, insert]
  by_cases h : s.contains name = true
  · simp [h, eq_comm]
  · simp [h]

/-- A new field is found by its name, and under every other name is found what was found before. -/
theorem get?_append (hname : name ∉ s.names) (type : TypeToken) (other : String) :
    get? ⟨s.fields ++ [(name, type)]⟩ other = if other = name then some type else s.get? other := by
  have hnone : s.fields.lookup name = none := by
    rw [← contains_iff, contains, Bool.not_eq_true, Option.isSome_eq_false_iff,
      Option.isNone_iff_eq_none] at hname
    exact hname
  rw [get?, List.lookup_append]
  by_cases h : other = name
  · rw [if_pos h, h, hnone, Option.none_or, List.lookup_cons_self]
  · rw [if_neg h, List.lookup_cons, beq_false_of_ne h, List.lookup_nil, Option.or_none, get?]

/-! ## Distinct names -/

theorem distinct_empty : empty.Distinct :=
  List.nodup_nil

theorem distinct_single (name : String) (type : TypeToken) : (single name type).Distinct :=
  List.nodup_singleton name

/-- A copy with a new field has distinct names if the schema has. -/
theorem Distinct.insert (hs : s.Distinct) (h : s.insert name type = .ok u) : u.Distinct := by
  obtain ⟨hfresh, rfl⟩ := insert_eq_ok_iff.1 h
  exact Entries.nodup_names_append hs hfresh type

/-- Whether a field is added in place or refused, distinct names stay distinct. -/
theorem Distinct.insertInPlace (hs : s.Distinct) (name : String) (type : TypeToken) :
    (s.insertInPlace name type).2.Distinct := by
  rw [insertInPlace_eq]
  cases hinsert : s.insert name type with
  | ok u => exact hs.insert hinsert
  | error e => exact hs

theorem Distinct.insertInstances (hs : s.Distinct) {instances : List (String × RecordInstance)}
    (h : RecordType.insertInstances s instances = .ok u) : u.Distinct := by
  induction instances generalizing s with
  | nil => exact Except.ok.inj h ▸ hs
  | cons i rest ih =>
    obtain ⟨s', hs', h⟩ := Except.bind_eq_ok_iff.1 h
    exact ih (hs.insert hs') h

theorem distinct_of_ofInstances {instances : List (String × RecordInstance)} {T : RecordType}
    (h : RecordType.ofInstances name instances = .ok T) : T.schema.Distinct := by
  obtain ⟨s, hs, h⟩ := Except.bind_eq_ok_iff.1 h
  obtain rfl := Except.ok.inj h
  exact distinct_empty.insertInstances hs

theorem Distinct.insertOutputs {g : WorkflowGraph} {instances : NodeInstances} (hs : s.Distinct)
    {ids : List String} (h : g.insertOutputs instances s ids = .ok u) : u.Distinct := by
  induction ids generalizing s with
  | nil => exact Except.ok.inj h ▸ hs
  | cons id rest ih =>
    rw [WorkflowGraph.insertOutputs] at h
    split at h
    case h_1 => cases h
    case h_2 i _ =>
      split at h
      case h_1 s' hs' => exact ih (hs.insert hs') h
      case h_2 => cases h

theorem distinct_of_predecessorType {g : WorkflowGraph} {id : String} {instances : NodeInstances}
    {T : RecordType} (h : g.predecessorType id instances = .ok T) : T.schema.Distinct := by
  obtain ⟨s, hs, h⟩ := Except.bind_eq_ok_iff.1 h
  obtain rfl := Except.ok.inj h
  exact distinct_empty.insertOutputs hs

/-! ## All ways to a schema -/

/-- The schemas that can be obtained, with fields of any types: without fields or with one, by
adding a field in place or to a copy, by the readers, of the type of an object, which repeats no
key, of the type of named instances, and of the type of the outputs of all predecessors. -/
inductive Obtainable : Schema → Prop where
  | empty : Obtainable .empty
  | single (name : String) (type : TypeToken) : Obtainable (.single name type)
  | insertInPlace {s : Schema} (hs : Obtainable s) (name : String) (type : TypeToken) :
      Obtainable (s.insertInPlace name type).2
  | insert {s u : Schema} (hs : Obtainable s) {name : String} {type : TypeToken}
      (h : s.insert name type = .ok u) : Obtainable u
  | ofPairs {pairs : List (String × String)} {s : Schema} (h : Schema.ofPairs pairs = .ok s) :
      Obtainable s
  | ofJson {v : Json} {s : Schema} (h : Schema.ofJson v = .ok s) : Obtainable s
  | decode {d : Document} {s : Schema} (h : Schema.decode d = .ok s) : Obtainable s
  | infer (name : String) {sample : Json.Entries} (h : (sample.map Prod.fst).Nodup) :
      Obtainable (RecordType.infer name sample).schema
  | ofInstances {name : String} {instances : List (String × RecordInstance)} {T : RecordType}
      (h : RecordType.ofInstances name instances = .ok T) : Obtainable T.schema
  | predecessorType {g : WorkflowGraph} {id : String} {instances : NodeInstances} {T : RecordType}
      (h : g.predecessorType id instances = .ok T) : Obtainable T.schema

/-- No way to a schema declares a name twice. -/
theorem Obtainable.distinct (h : s.Obtainable) : s.Distinct := by
  induction h with
  | empty => exact distinct_empty
  | single name type => exact distinct_single name type
  | insertInPlace _ name type ih => exact ih.insertInPlace name type
  | insert _ h ih => exact ih.insert h
  | ofPairs h => exact (wellFormed_ofPairs h).1
  | ofJson h => exact (wellFormed_ofJson h).1
  | decode h => exact (wellFormed_of_decode h).1
  | infer name h => exact (RecordType.wellFormed_iff.1 (RecordType.wellFormed_infer name h)).1
  | ofInstances h => exact distinct_of_ofInstances h
  | predecessorType h => exact distinct_of_predecessorType h

/-- Every schema that can be obtained has distinct names. To any schema a field is added, in place
or to a copy, exactly if its name is not declared yet. If it is, the error names it, and the schema
stays what it was in place. Otherwise the new field comes last after all that were there, its name
leads to its type, and every other name leads to what it led to before. -/
theorem distinct_names_kept :
    (∀ s : Schema, s.Obtainable → s.Distinct) ∧
    ∀ (s : Schema) (name : String) (type : TypeToken),
      (∀ e, s.insert name type = .error e ↔ name ∈ s.names ∧ e = .duplicateField name) ∧
      (∀ e u, s.insertInPlace name type = (.error e, u) ↔
        name ∈ s.names ∧ e = .duplicateField name ∧ u = s) ∧
      (∀ u, s.insertInPlace name type = (.ok (), u) ↔ s.insert name type = .ok u) ∧
      ∀ u, s.insert name type = .ok u →
        u.fields = s.fields ++ [(name, type)] ∧ u.get? name = some type ∧
          ∀ other, other ≠ name → u.get? other = s.get? other := by
  refine ⟨fun s => Obtainable.distinct, fun s name type =>
    ⟨fun e => insert_eq_error_iff, fun e u => ?_, fun u => ?_, fun u hu => ?_⟩⟩
  · rw [insertInPlace_eq, ← and_assoc, ← insert_eq_error_iff]
    cases s.insert name type <;> simp [eq_comm]
  · rw [insertInPlace_eq]
    cases s.insert name type <;> simp
  · obtain ⟨hfresh, rfl⟩ := insert_eq_ok_iff.1 hu
    refine ⟨rfl, ?_, fun other hother => ?_⟩
    · rw [get?_append hfresh, if_pos rfl]
    · rw [get?_append hfresh, if_neg hother]

/-- An object with two keys. -/
def visitSample : Json.Entries :=
  [("at", .num (.int 3)), ("place", .str "here")]

/-- The schema of its type with two more fields. -/
def visitSchema : Schema :=
  ⟨[("at", .int), ("place", .str), ("note", .any), ("point", .record "Point" [("x", .float)])]⟩

theorem distinct_names_kept_visitSchema :
    visitSchema.Obtainable ∧ visitSchema.Distinct ∧
    "place" ∈ visitSchema.names ∧
    visitSchema.insertInPlace "place" .int = (.error (.duplicateField "place"), visitSchema) ∧
    ∃ u, visitSchema.insert "flag" .bool = .ok u ∧
      u.fields = visitSchema.fields ++ [("flag", .bool)] ∧ u.get? "flag" = some .bool ∧
        ∀ other, other ≠ "flag" → u.get? other = visitSchema.get? other := by
  have hsample : (RecordType.infer "Visit" visitSample).schema.Obtainable :=
    .infer "Visit" (by decide)
  -- a field in place that is refused, one that is added, and one that is added to a copy
  have hnote : Obtainable ⟨[("at", .int), ("place", .str), ("note", .any)]⟩ :=
    (hsample.insertInPlace "at" .float).insertInPlace "note" .any
  have hpoint : insert ⟨[("at", .int), ("place", .str), ("note", .any)]⟩ "point"
      (.record "Point" [("x", .float)]) = .ok visitSchema := rfl
  have hobtained : visitSchema.Obtainable := hnote.insert hpoint
  have hplace : "place" ∈ visitSchema.names := by decide
  obtain ⟨hdistinct, hinsert⟩ := distinct_names_kept
  exact ⟨hobtained, hdistinct _ hobtained, hplace,
    ((hinsert visitSchema "place" .int).2.1 _ _).2 ⟨hplace, rfl, rfl⟩,
    _, rfl, (hinsert visitSchema "flag" .bool).2.2.2 _ rfl⟩

end Schema

end TypedWorkflow
