import TypedWorkflow.Catalog.Standard
import TypedWorkflow.Proofs.Decoding
import TypedWorkflow.Proofs.Node.WellFormed
import TypedWorkflow.Proofs.Schema.Readers
import TypedWorkflow.Proofs.Schema.RoundTrip

/-!
# The configs of primitive nodes

A config is read twice. First its schemas are taken out, and the models are made of them or of the
other entries. Then the implementation reads the config once more as the record that it wants, in
which only the one required key counts. Both readings come to the same: where models were made, the
record is read, and it holds what they were made of. So a primitive node can be constructed exactly
if its config has the right shape, and whatever is wrong otherwise is a fault of the config.

## Main definitions

* `Decode.record_single_iff`: reading the one field of a record.
* `NodeKind.ReadsConfigs`, `NodeInstance.exists_construct_iff`: what is left to check where the
  second reading cannot fail.
* `Primitive.DeclaresOnly`, `Primitive.DeclaresValues`: the configs of the right shape.
* `Primitive.construct_exact`: they are those with which primitive nodes are constructed.
-/

namespace TypedWorkflow

/-! ## Reading one field -/

namespace Decode

variable {σ : Type} {f : Fields} {read : String → Document → σ → Decoded σ} {key : String}

/-- Other keys than the one that is wanted are passed over. -/
theorem entries_of_notMem (hnames : f.names = [key]) {es : List (String × Document)}
    (hes : key ∉ es.map Prod.fst) (seen : List String) (start : σ) :
    entries f read seen start es = .ok (seen, start) := by
  induction es with
  | nil => rfl
  | cons e rest ih =>
    obtain ⟨hkey, hrest⟩ := not_or.1 (mt List.mem_cons.2 hes)
    have haccept : f.accept seen e.1 = .ok none := by simp [Fields.accept, hnames, Ne.symm hkey]
    rw [entries, haccept]
    exact ih hrest

/-- Of an object that repeats no key, the only field of a record is the value under its key. -/
theorem entries_single (hnames : f.names = [key]) {es : List (String × Document)}
    (hes : (es.map Prod.fst).Nodup) (start : σ) :
    entries f read [] start es = match es.lookup key with
      | some d => (read key d start).map fun state => ([key], state)
      | none => .ok ([], start) := by
  induction es with
  | nil => rfl
  | cons e rest ih =>
    obtain ⟨name, d⟩ := e
    obtain ⟨hnew, hrest⟩ := List.nodup_cons.1 hes
    by_cases hkey : name = key
    · subst hkey
      have haccept : f.accept [] name = .ok (some [name]) := by simp [Fields.accept, hnames]
      rw [entries, haccept, List.lookup_cons_self]
      dsimp only [bind, Except.bind]
      cases read name d start with
      | error e => rfl
      -- the key is not repeated, so what follows is passed over
      | ok state => exact entries_of_notMem hnames hnew [name] state
    · have haccept : f.accept [] name = .ok none := by simp [Fields.accept, hnames, hkey]
      rw [entries, haccept, List.lookup_cons, beq_false_of_ne (Ne.symm hkey)]
      exact ih hrest

/-- A record of one required field is read exactly from the value under its key, whatever else the
object holds. -/
theorem record_single_iff (hnames : f.names = [key]) (hrequired : f.required = [key])
    {source : Source} {es : Json.Entries} (hes : (es.map Prod.fst).Nodup) {start state : σ} :
    record f source read start (Document.ofJson (.obj es)) = .ok state ↔
      ∃ v, es.lookup key = some v ∧ read key (Document.ofJson v) start = .ok state := by
  have hkeys : ((Document.ofJsonEntries es).map Prod.fst).Nodup := by
    rwa [Document.ofJsonEntries_eq_map, Entries.names_map fun _ => Document.ofJson]
  rw [Document.ofJson, record, entries_single hnames hkeys, Document.ofJsonEntries_eq_map,
    Entries.lookup_map fun _ => Document.ofJson]
  cases es.lookup key with
  | none => simp [bind, Except.bind, noFault, Fields.complete, hrequired]
  | some v =>
    cases hread : read key (Document.ofJson v) start with
    | error e => simp [bind, Except.bind, Except.map, hread]
    | ok last => simp [bind, Except.bind, Except.map, pure, Except.pure, noFault, Fields.complete,
        hrequired, hread]

theorem object_ofJson_iff {v : Json} (hv : v.Distinct) {entries : Json.Entries} :
    object (Document.ofJson v) = .ok entries ↔ v = .obj entries := by
  cases v with
  | obj es =>
    rw [object_ofJson hv]
    simp
  | _ => simp [Document.ofJson, object, mismatch]

end Decode

/-! ## Construction -/

/-- The kind can read every config that it makes models of. -/
def NodeKind.ReadsConfigs (kind : NodeKind) : Prop :=
  ∀ config c m, config.Distinct → NodeConfig.ofJson config = .ok c → kind.setup c = .ok m →
    ∃ b, kind.decode config = .ok b

namespace NodeInstance

variable {kind : NodeKind} {config : Json} {context : ExecutionContext}

theorem construct_eq (hnull : config ≠ .null) (kind : NodeKind) (context : ExecutionContext) :
    construct kind config context = do
      let c ← ofConfig kind.name (NodeConfig.ofJson config)
      let m ← kind.setup c
      let i : NodeInstance :=
        ⟨kind, config, context, m, kind.tag.getD (.ofName kind.name), none, none⟩
      let _ ← i.behavior
      return i := by
  cases config with
  | null => exact absurd rfl hnull
  | _ => rfl

/-- A kind that reads every config which it makes models of is constructed if it makes models. -/
theorem exists_construct_iff (hkind : kind.ReadsConfigs) (hconfig : config.Distinct) :
    (∃ i, construct kind config context = .ok i) ↔
      ∃ c m, NodeConfig.ofJson config = .ok c ∧ kind.setup c = .ok m := by
  have hgiven (v : Json) (hnull : v ≠ .null) (hv : v.Distinct) :
      (∃ i, construct kind v context = .ok i) ↔
        ∃ c m, NodeConfig.ofJson v = .ok c ∧ kind.setup c = .ok m := by
    simp only [construct_eq hnull, Except.bind_eq_ok_iff, ofConfig_eq_ok_iff]
    constructor
    · rintro ⟨i, c, hc, m, hm, -⟩
      exact ⟨c, m, hc, hm⟩
    · rintro ⟨c, m, hc, hm⟩
      obtain ⟨b, hb⟩ := hkind v c m hv hc hm
      exact ⟨_, c, hc, m, hm, b, behavior_eq_ok_iff.2 hb, rfl⟩
  -- `null` gives way to the empty object, which is read as the same config
  cases config with
  | null => exact hgiven (.obj []) nofun ⟨List.nodup_nil, trivial⟩
  | _ => exact hgiven _ nofun hconfig

theorem exists_fault_of_ofConfig {α : Type} {node : String} {x : Except ConfigFault α}
    {e : WorkflowError} (h : ofConfig node x = .error e) :
    ∃ fault, e = .configShape node fault := by
  cases x with
  | ok a => cases h
  | error fault => exact ⟨fault, (Except.error.inj h).symm⟩

/-- What can go wrong with the construction of a node: its config has a fault, or the implementation
does not make models of it. -/
theorem construct_error_cases {e : WorkflowError}
    (h : construct kind config context = .error e) :
    (∃ fault, e = .configShape kind.name fault) ∨ ∃ c, kind.setup c = .error e := by
  rcases Except.bind_eq_error_iff.1 h with hconfig | ⟨c, -, h⟩
  · exact .inl (exists_fault_of_ofConfig hconfig)
  · rcases Except.bind_eq_error_iff.1 h with hsetup | ⟨m, -, h⟩
    · exact .inr ⟨c, hsetup⟩
    · rcases Except.bind_eq_error_iff.1 h with hbehavior | ⟨b, -, h⟩
      · rw [behavior] at hbehavior
        split at hbehavior
        · cases hbehavior
        · exact .inl ⟨_, (Except.error.inj hbehavior).symm⟩
      · cases h

/-- With models that are made of something in the config, its faults are all that can go wrong. -/
theorem exists_fault_of_setup {α : Type} {read : NodeConfig → Except ConfigFault α}
    {make : α → NodeModels}
    (hsetup : ∀ c, kind.setup c = ofConfig kind.name (read c) >>= fun a => .ok (make a))
    {e : WorkflowError} (h : construct kind config context = .error e) :
    ∃ fault, e = .configShape kind.name fault := by
  rcases construct_error_cases h with hfault | ⟨c, hc⟩
  · exact hfault
  · rw [hsetup, Except.bind_eq_error_iff] at hc
    rcases hc with hread | ⟨a, -, hmodels⟩
    · exact exists_fault_of_ofConfig hread
    · cases hmodels

end NodeInstance

namespace Primitive

variable {name typeName : String} {side : Side} {config : Json} {context : ExecutionContext}

/-! ## The second reading -/

theorem decodeEntry_iff {α : Type} {key : String} {decode : Document → Decoded α}
    {entries : Json.Entries} (hkeys : (entries.map Prod.fst).Nodup) {absent a : α} :
    (decodeEntry typeName key decode (.ofJson (.obj entries)) >>= fun read =>
        pure (read.getD absent)) = .ok a ↔
      ∃ v, (Json.obj entries).get? key = some v ∧ decode (.ofJson v) = .ok a := by
  have hentry (read : Option α) :
      decodeEntry typeName key decode (.ofJson (.obj entries)) = .ok read ↔
        ∃ v, (Json.obj entries).get? key = some v ∧
          ∃ b, decode (.ofJson v) = .ok b ∧ some b = read := by
    refine (Decode.record_single_iff rfl rfl hkeys).trans ?_
    exact exists_congr fun v => and_congr_right fun _ => Except.map_eq_ok_iff
  simp only [Except.bind_eq_ok_iff, hentry]
  constructor
  · rintro ⟨_, ⟨v, hv, b, hb, rfl⟩, hread⟩
    obtain rfl : b = a := Except.ok.inj hread
    exact ⟨v, hv, hb⟩
  · rintro ⟨v, hv, ha⟩
    exact ⟨some a, ⟨v, hv, a, ha, rfl⟩, rfl⟩

/-- The schema of a side is read as the one that its value denotes. -/
theorem decodeSchema_eq_ok_iff {entries : Json.Entries} (hkeys : (entries.map Prod.fst).Nodup)
    {s : Schema} : decodeSchema typeName side (.obj entries) = .ok s ↔
      ∃ v, (Json.obj entries).get? side.key = some v ∧ Schema.ofJson v = .ok s := by
  refine (decodeEntry_iff hkeys).trans (exists_congr fun v => and_congr_right fun _ => ?_)
  exact Schema.decode_ofJson_iff

/-- The values are read as they stand in the config. -/
theorem decodeValues_eq_ok_iff {entries values : Json.Entries}
    (hentries : (Json.obj entries).Distinct) : decodeValues (.obj entries) = .ok values ↔
      (Json.obj entries).get? valuesKey = some (.obj values) := by
  refine (decodeEntry_iff hentries.1).trans ⟨?_, fun hvalues => ?_⟩
  · rintro ⟨v, hv, hobject⟩
    rwa [(Decode.object_ofJson_iff (hentries.of_lookup hv)).1 hobject] at hv
  · exact ⟨_, hvalues, (Decode.object_ofJson_iff (hentries.of_lookup hvalues)).2 rfl⟩

/-! ## Nodes that return their input -/

/-- The config declares a schema for one side and has nothing for the other. -/
structure DeclaresOnly (side : Side) (config : Json) (s : Schema) : Prop where
  declared : ∃ v, config.get? side.key = some v ∧ Schema.ofJson v = .ok s
  other_absent : config.get? side.other.key = none

/-- What the models of a node that returns its input are made of is read a second time. -/
theorem exists_decodeSchema {c : NodeConfig} {m : NodeModels} (hconfig : config.Distinct)
    (hc : NodeConfig.ofJson config = .ok c) (hm : (mirror name typeName side).setup c = .ok m) :
    ∃ s, DeclaresOnly side config s ∧ decodeSchema typeName side config = .ok s ∧
      (mirror name typeName side).decode config = .ok (fun _ input => .ok (.record input)) ∧
      m = .make name s s := by
  obtain ⟨s, hother, hs, rfl⟩ := setup_mirror_iff.1 hm
  have hdeclares : DeclaresOnly side config s :=
    ⟨(NodeConfig.schema?_eq_some_iff hconfig hc).1 hs,
      (NodeConfig.schema?_eq_none_iff hconfig hc).1 hother⟩
  obtain ⟨v, hv, -⟩ := hdeclares.declared
  cases config with
  | obj entries =>
    have hread : decodeSchema typeName side (.obj entries) = .ok s :=
      (decodeSchema_eq_ok_iff hconfig.1).2 hdeclares.declared
    exact ⟨s, hdeclares, hread, Except.bind_eq_ok_iff.2 ⟨s, hread, rfl⟩, rfl⟩
  | _ => cases hv

theorem exists_setup_mirror_iff (hconfig : config.Distinct) :
    (∃ c m, NodeConfig.ofJson config = .ok c ∧ (mirror name typeName side).setup c = .ok m) ↔
      ∃ s, DeclaresOnly side config s := by
  constructor
  · rintro ⟨c, m, hc, hm⟩
    obtain ⟨s, hdeclares, -, -, -⟩ := exists_decodeSchema hconfig hc hm
    exact ⟨s, hdeclares⟩
  · rintro ⟨s, hdeclared, hother⟩
    obtain ⟨v, hv, hs⟩ := hdeclared
    cases config with
    | obj entries =>
      obtain ⟨c, hc⟩ := (NodeConfig.exists_ofJson_obj_iff hconfig.1).2 fun side' u hu => by
        by_cases hside : side' = side
        · subst hside
          exact ⟨s, Option.some.inj (hv.symm.trans hu) ▸ hs⟩
        · rw [Side.eq_other_of_ne hside, hother] at hu
          cases hu
      refine ⟨c, .make name s s, hc, setup_mirror_iff.2 ⟨s, ?_, ?_, rfl⟩⟩
      · exact (NodeConfig.schema?_eq_none_iff hconfig hc).2 hother
      · exact (NodeConfig.schema?_eq_some_iff hconfig hc).2 ⟨v, hv, hs⟩
    | _ => cases hv

theorem exists_construct_mirror_iff (hconfig : config.Distinct) :
    (∃ i, NodeInstance.construct (mirror name typeName side) config context = .ok i) ↔
      ∃ s, DeclaresOnly side config s := by
  rw [NodeInstance.exists_construct_iff _ hconfig, exists_setup_mirror_iff hconfig]
  intro config c m hconfig hc hm
  obtain ⟨s, -, -, hdecode, -⟩ := exists_decodeSchema hconfig hc hm
  exact ⟨_, hdecode⟩

/-- The config is the only thing that can be wrong with a node that returns its input. -/
theorem exists_fault_of_construct_mirror {e : WorkflowError}
    (h : NodeInstance.construct (mirror name typeName side) config context = .error e) :
    ∃ fault, e = .configShape name fault :=
  NodeInstance.exists_fault_of_setup (fun _ => rfl) h

/-! ## Nodes of constant values -/

/-- The config has an object of values and declares no schema. -/
structure DeclaresValues (config : Json) (values : Json.Entries) : Prop where
  values : config.get? valuesKey = some (.obj values)
  undeclared : ∀ side : Side, config.get? side.key = none

theorem valuesKey_ne_key (side : Side) : valuesKey ≠ side.key := by
  cases side <;> decide

/-- What the models of a node of constant values are made of is read a second time. -/
theorem exists_decodeValues {c : NodeConfig} {m : NodeModels} (hconfig : config.Distinct)
    (hc : NodeConfig.ofJson config = .ok c) (hm : staticValueNode.setup c = .ok m) :
    ∃ values, DeclaresValues config values ∧ decodeValues config = .ok values ∧
      staticValueNode.decode config = .ok (fun _ _ => .ok (.value (.obj values))) ∧
      m = ⟨.empty (Side.input.recordName "static_value_node"),
        .infer (Side.output.recordName "static_value_node") values⟩ := by
  obtain ⟨values, hsides, hvalues, rfl⟩ := setup_staticValueNode_iff.1 hm
  rw [NodeConfig.get?_of_ofJson hc valuesKey_ne_key] at hvalues
  have hdeclares : DeclaresValues config values :=
    ⟨hvalues, fun side => (NodeConfig.schema?_eq_none_iff hconfig hc).1 (hsides side)⟩
  cases config with
  | obj entries =>
    have hread : decodeValues (.obj entries) = .ok values :=
      (decodeValues_eq_ok_iff hconfig).2 hvalues
    exact ⟨values, hdeclares, hread, Except.bind_eq_ok_iff.2 ⟨values, hread, rfl⟩, rfl⟩
  | _ => cases hvalues

theorem exists_setup_staticValueNode_iff (hconfig : config.Distinct) :
    (∃ c m, NodeConfig.ofJson config = .ok c ∧ staticValueNode.setup c = .ok m) ↔
      ∃ values, DeclaresValues config values := by
  constructor
  · rintro ⟨c, m, hc, hm⟩
    obtain ⟨values, hdeclares, -, -, -⟩ := exists_decodeValues hconfig hc hm
    exact ⟨values, hdeclares⟩
  · rintro ⟨values, hvalues, hsides⟩
    cases config with
    | obj entries =>
      obtain ⟨c, hc⟩ := (NodeConfig.exists_ofJson_obj_iff hconfig.1).2 fun side v hv => by
        rw [hsides side] at hv
        cases hv
      refine ⟨c, _, hc, setup_staticValueNode_iff.2 ⟨values, fun side => ?_, ?_, rfl⟩⟩
      · exact (NodeConfig.schema?_eq_none_iff hconfig hc).2 (hsides side)
      · rw [NodeConfig.get?_of_ofJson hc valuesKey_ne_key, hvalues]
    | _ => cases hvalues

theorem exists_construct_staticValueNode_iff (hconfig : config.Distinct) :
    (∃ i, NodeInstance.construct staticValueNode config context = .ok i) ↔
      ∃ values, DeclaresValues config values := by
  rw [NodeInstance.exists_construct_iff _ hconfig, exists_setup_staticValueNode_iff hconfig]
  intro config c m hconfig hc hm
  obtain ⟨values, -, -, hdecode, -⟩ := exists_decodeValues hconfig hc hm
  exact ⟨_, hdecode⟩

/-- The config is the only thing that can be wrong with a node of constant values. -/
theorem exists_fault_of_construct_staticValueNode {e : WorkflowError}
    (h : NodeInstance.construct staticValueNode config context = .error e) :
    ∃ fault, e = .configShape staticValueNode.name fault :=
  NodeInstance.exists_fault_of_setup (fun _ => rfl) h

/-! ## All primitive nodes -/

/-- A primitive node is constructed, or its config has a fault. -/
theorem exists_fault_of_construct {typeName : String} {kind : NodeKind}
    (hkind : (typeName, kind) ∈ primitiveTypes) {e : WorkflowError}
    (h : NodeInstance.construct kind config context = .error e) :
    ∃ fault, e = .configShape kind.name fault := by
  simp only [primitiveTypes, List.mem_cons, Prod.mk.injEq, List.not_mem_nil, or_false] at hkind
  obtain ⟨-, rfl⟩ | ⟨-, rfl⟩ | ⟨-, rfl⟩ := hkind
  · exact exists_fault_of_construct_mirror h
  · exact exists_fault_of_construct_mirror h
  · exact exists_fault_of_construct_staticValueNode h

/-- Whether a primitive node is constructed depends on the shape of its config alone, `null` being
as good as the empty object. All that can go wrong is a fault of the config. Where the first reading
has made models, the second one succeeds, and the schema or the values that it gives are those of
the models. -/
theorem construct_exact (hconfig : config.Distinct) (context : ExecutionContext) :
    (∀ kind, NodeInstance.construct kind .null context =
      NodeInstance.construct kind (.obj []) context) ∧
    ((∃ i, NodeInstance.construct inputNode config context = .ok i) ↔
      ∃ s, DeclaresOnly .input config s) ∧
    ((∃ i, NodeInstance.construct outputNode config context = .ok i) ↔
      ∃ s, DeclaresOnly .output config s) ∧
    ((∃ i, NodeInstance.construct staticValueNode config context = .ok i) ↔
      ∃ values, DeclaresValues config values) ∧
    (∀ typeName kind, (typeName, kind) ∈ primitiveTypes → ∀ e,
      NodeInstance.construct kind config context = .error e →
        ∃ fault, e = .configShape kind.name fault) ∧
    ∀ c, NodeConfig.ofJson config = .ok c →
      (∀ m, inputNode.setup c = .ok m → ∃ s, DeclaresOnly .input config s ∧
        decodeSchema "InputNodeConfig" .input config = .ok s ∧
        inputNode.decode config = .ok (fun _ input => .ok (.record input)) ∧
        m = .make "input_node" s s) ∧
      (∀ m, outputNode.setup c = .ok m → ∃ s, DeclaresOnly .output config s ∧
        decodeSchema "OutputNodeConfig" .output config = .ok s ∧
        outputNode.decode config = .ok (fun _ input => .ok (.record input)) ∧
        m = .make "output_node" s s) ∧
      ∀ m, staticValueNode.setup c = .ok m → ∃ values, DeclaresValues config values ∧
        decodeValues config = .ok values ∧
        staticValueNode.decode config = .ok (fun _ _ => .ok (.value (.obj values))) ∧
        m = ⟨.empty (Side.input.recordName "static_value_node"),
          .infer (Side.output.recordName "static_value_node") values⟩ := by
  refine ⟨fun _ => rfl, exists_construct_mirror_iff hconfig, exists_construct_mirror_iff hconfig,
    exists_construct_staticValueNode_iff hconfig, fun _ _ hkind _ h => ?_, fun c hc => ?_⟩
  · exact exists_fault_of_construct hkind h
  · exact ⟨fun _ hm => exists_decodeSchema hconfig hc hm,
      fun _ hm => exists_decodeSchema hconfig hc hm, fun _ hm => exists_decodeValues hconfig hc hm⟩

/-- The config of an entry that takes a question, with a note. -/
def questionConfig : Json :=
  .obj [("input_schema", .obj [("question", .str "str")]), ("note", .null)]

theorem construct_exact_questionConfig :
    questionConfig.Distinct ∧
    (∃ i, NodeInstance.construct inputNode questionConfig none = .ok i) ∧
    (¬ ∃ i, NodeInstance.construct outputNode questionConfig none = .ok i) ∧
    ∃ c m, NodeConfig.ofJson questionConfig = .ok c ∧ inputNode.setup c = .ok m ∧
      ∃ s, decodeSchema "InputNodeConfig" .input questionConfig = .ok s ∧
        m = .make "input_node" s s := by
  have hconfig : questionConfig.Distinct := by
    simp [questionConfig, Json.Distinct, Json.DistinctEntries]
  obtain ⟨-, hinput, houtput, -, -, hread⟩ := construct_exact hconfig none
  have hstr : Schema.DenotedBy "str" .str := TypeToken.ofText_text (t := .str) trivial
  have hschema : Schema.ofJson (.obj [("question", .str "str")]) = .ok (.single "question" .str) :=
    Schema.ofJson_eq_ok_iff.2 ⟨_, rfl, List.nodup_singleton _, .cons ⟨rfl, _, rfl, hstr⟩ .nil⟩
  have hdeclares : DeclaresOnly .input questionConfig (.single "question" .str) :=
    ⟨⟨_, rfl, hschema⟩, rfl⟩
  obtain ⟨c, m, hc, hm⟩ := (exists_setup_mirror_iff hconfig).2 ⟨_, hdeclares⟩
  obtain ⟨s, -, hs, -, hmodels⟩ := (hread c hc).1 m hm
  refine ⟨hconfig, hinput.2 ⟨_, hdeclares⟩, fun houtputs => ?_, c, m, hc, hm, s, hs, hmodels⟩
  obtain ⟨_, ⟨_, hv, -⟩, -⟩ := houtput.1 houtputs
  cases hv

end Primitive

end TypedWorkflow
