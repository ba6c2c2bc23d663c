import TypedWorkflow.Proofs.Schema.NormalForm
import TypedWorkflow.Proofs.Schema.WellFormed

/-!
# Instances of record types

Only validation makes instances, so the instances of a type are what it makes of values. Instances
under distinct names have a type of their own, with a field of its record type for each of them.
That type accepts the object of the instances and does not change it, since every instance is in
normal form already.

## Main definitions

* `RecordType.Makes`, `RecordInstance.Genuine`: the instances of a type, and of any type.
* `RecordType.ofInstances_eq_ok`: the type of named instances.
* `RecordType.validate_eq_dumps`, `RecordType.exists_validate_ofInstances`: that type accepts the
  instances unchanged.
-/

namespace TypedWorkflow

/-! ## Instances -/

/-- The instances of a type: what it makes of values. -/
def RecordType.Makes (T : RecordType) (o : RecordInstance) : Prop :=
  ∃ v, T.validate v = .ok o

/-- An instance that its own type has made. There are no others, and no other types than well-formed
ones. -/
structure RecordInstance.Genuine (o : RecordInstance) : Prop where
  wellFormed : o.type.WellFormed
  made : o.type.Makes o

theorem RecordType.Makes.type_eq {T : RecordType} {o : RecordInstance} (h : T.Makes o) :
    o.type = T := by
  obtain ⟨v, hv⟩ := h
  rw [((validate_eq_ok_iff T v o).1 hv).2]

/-- The instances that a well-formed type has made are instances of it. -/
theorem RecordType.Makes.genuine {T : RecordType} (hT : T.WellFormed) {o : RecordInstance}
    (h : T.Makes o) : o.Genuine := by
  obtain rfl := h.type_eq
  exact ⟨hT, h⟩

/-- A type makes of its instances what they are. -/
theorem RecordType.Makes.validate_toJson {T : RecordType} (hT : T.WellFormed) {o : RecordInstance}
    (h : T.Makes o) : T.validate o.toJson = .ok o := by
  obtain ⟨v, hv⟩ := h
  exact RecordType.validate_toJson hT hv

namespace RecordInstance

theorem Genuine.conforms {o : RecordInstance} (h : o.Genuine) :
    o.type.token.Conforms o.toJson :=
  (RecordType.toJson_of_validate (h.made.validate_toJson h.wellFormed)).1

theorem Genuine.normalForm_toJson {o : RecordInstance} (h : o.Genuine) :
    o.type.token.normalForm o.toJson = o.toJson :=
  (RecordType.toJson_of_validate (h.made.validate_toJson h.wellFormed)).2.symm

/-- The objects of named instances. -/
def dumps (instances : List (String × RecordInstance)) : Json.Entries :=
  instances.map fun e => (e.1, e.2.toJson)

theorem names_dumps (instances : List (String × RecordInstance)) :
    (dumps instances).map Prod.fst = instances.map Prod.fst :=
  Entries.names_map (fun _ o => o.toJson) instances

end RecordInstance

/-! ## The type of named instances -/

namespace RecordType

theorem insertInstances_eq_ok {s : Schema} {instances : List (String × RecordInstance)}
    (h : (s.names ++ instances.map Prod.fst).Nodup) :
    insertInstances s instances =
      .ok ⟨s.fields ++ instances.map fun e => (e.1, e.2.type.token)⟩ := by
  induction instances generalizing s with
  | nil => simp [insertInstances]
  | cons e rest ih =>
    have hfresh : e.1 ∉ s.names := by
      intro hmem
      exact (List.nodup_append.1 h).2.2 _ hmem _ List.mem_cons_self rfl
    have hinsert : s.insert e.1 e.2.type.token = .ok ⟨s.fields ++ [(e.1, e.2.type.token)]⟩ :=
      Schema.insert_eq_ok_iff.2 ⟨hfresh, rfl⟩
    have hrest : ((⟨s.fields ++ [(e.1, e.2.type.token)]⟩ : Schema).names ++
        rest.map Prod.fst).Nodup := by
      simpa [Schema.names] using h
    rw [insertInstances, hinsert]
    exact (ih hrest).trans (by simp)

/-- The type of instances under distinct names has a field for each, in order. -/
theorem ofInstances_eq_ok (name : String) {instances : List (String × RecordInstance)}
    (h : (instances.map Prod.fst).Nodup) :
    ofInstances name instances =
      .ok ⟨name, ⟨instances.map fun e => (e.1, e.2.type.token)⟩⟩ := by
  rw [ofInstances, insertInstances_eq_ok (s := .empty) h]
  rfl

/-- The same for instances that are given by their names. -/
theorem ofInstances_tabulate (name : String) {ids : List String} (h : ids.Nodup)
    (outputs : String → RecordInstance) :
    ofInstances name (ids.map fun p => (p, outputs p)) =
      .ok ⟨name, ⟨ids.map fun p => (p, (outputs p).type.token)⟩⟩ := by
  have hnames : ((ids.map fun p => (p, outputs p)).map Prod.fst).Nodup := by
    rwa [Entries.names_tabulate]
  simpa [Function.comp_def] using ofInstances_eq_ok name hnames

/-- A type with a field for each of the instances accepts every object that holds them, and takes
them out in the order of its fields. -/
theorem validate_eq_dumps {T : RecordType} {instances : List (String × RecordInstance)}
    (hfields : T.schema.fields = instances.map fun e => (e.1, e.2.type.token))
    (hinstances : ∀ e ∈ instances, e.2.Genuine) {entries : Json.Entries}
    (hentries : ∀ e ∈ instances, entries.lookup e.1 = some e.2.toJson) :
    T.validate (.obj entries) = .ok ⟨T, RecordInstance.dumps instances⟩ := by
  refine (validate_eq_ok_iff _ _ _).2 ⟨?_, ?_⟩
  · refine (TypeToken.conforms_record_iff _ _ _).2 ⟨_, rfl, ?_⟩
    rw [hfields]
    intro f hf
    obtain ⟨e, he, rfl⟩ := List.mem_map.1 hf
    exact ⟨e.2.toJson, hentries e he, (hinstances e he).conforms⟩
  · rw [token, TypeToken.normalForm, TypeToken.normalFields_eq_map, hfields, List.map_map]
    refine congrArg (RecordInstance.mk _) (List.map_congr_left fun e he => ?_)
    simp [hentries e he, (hinstances e he).normalForm_toJson]

/-- Instances under distinct names have a type, which accepts their objects unchanged. -/
theorem exists_validate_ofInstances (name : String) {instances : List (String × RecordInstance)}
    (hnames : (instances.map Prod.fst).Nodup) (hinstances : ∀ e ∈ instances, e.2.Genuine) :
    ∃ T, ofInstances name instances = .ok T ∧
      T.validate (.obj (RecordInstance.dumps instances)) =
        .ok ⟨T, RecordInstance.dumps instances⟩ := by
  refine ⟨_, ofInstances_eq_ok name hnames, validate_eq_dumps rfl hinstances ?_⟩
  intro e he
  refine Entries.lookup_eq_some_of_mem ?_ (List.mem_map.2 ⟨e, he, rfl⟩)
  rwa [RecordInstance.names_dumps]

end RecordType

end TypedWorkflow
