import TypedWorkflow.Node.Primitive
import TypedWorkflow.Proofs.Node.Variant
import TypedWorkflow.Proofs.Schema.WellFormed

/-!
# Well-formed nodes

The record types of a node come from schemas that its config declares and from schemas that its
implementation fixes. Schemas cannot be built with a name twice, so an implementation can make only
well-formed models from a well-formed config. An instance keeps the models of its construction
through all invocations.

## Main definitions

* `NodeConfig.WellFormed`, `NodeModels.WellFormed`: no name or key is repeated.
* `NodeKind.Lawful`: an implementation that makes well-formed models.
* `NodeKind.lawful_of_variant`, `Primitive.lawful_mirror`, `Primitive.lawful_staticValueNode`:
  implementations that leave their models to their variant, and the primitive ones, are lawful.
* `Primitive.setup_mirror_iff`, `Primitive.setup_staticValueNode_iff`: the models of primitive
  nodes.
* `NodeInstance.Constructed`: what is known of a constructed instance.
* `NodeInstance.Reachable`: the instances that construction and invocations lead to.
* `NodeInstance.Reachable.wellFormed_models`: their models are well formed.
-/

namespace TypedWorkflow

/-! ## Configs -/

/-- The declared schemas are well formed, and no key is repeated in the other values. -/
structure NodeConfig.WellFormed (c : NodeConfig) : Prop where
  schemas : ∀ side s, c.schema? side = some s → s.WellFormed
  values : (Json.obj c.values).Distinct

namespace NodeConfig

theorem wellFormed_of_addEntries {c d : NodeConfig}
    (hc : ∀ side s, c.schema? side = some s → s.WellFormed) {entries : Json.Entries}
    (hentries : (Json.obj (c.values ++ entries)).Distinct) (h : c.addEntries entries = .ok d) :
    d.WellFormed := by
  induction entries generalizing c with
  | nil =>
    obtain rfl : c = d := Except.ok.inj h
    exact ⟨hc, by simpa using hentries⟩
  | cons e rest ih =>
    obtain ⟨key, v⟩ := e
    rcases addEntries_cons_iff.1 h with ⟨side, s, -, hs, hrest⟩ | ⟨-, hrest⟩
    · have hdistinct : (Json.obj ((c.declare side s).values ++ rest)).Distinct := by
        rw [values_declare]
        rw [Json.distinct_obj_iff] at hentries ⊢
        have hsub : (c.values ++ rest).Sublist (c.values ++ (key, v) :: rest) :=
          (List.sublist_cons_self (key, v) rest).append_left c.values
        exact ⟨hentries.1.sublist (hsub.map Prod.fst), fun e he => hentries.2 e (hsub.subset he)⟩
      refine ih (fun other u hu => ?_) hdistinct hrest
      rw [schema?_declare] at hu
      split at hu
      · exact Option.some.inj hu ▸ Schema.wellFormed_ofJson hs
      · exact hc other u hu
    · refine ih (fun side u hu => ?_) (by simpa using hentries) hrest
      rw [schema?_keep] at hu
      exact hc side u hu

/-- The config that an object denotes is well formed if the object repeats no key. -/
theorem wellFormed_of_ofJson {v : Json} (hv : v.Distinct) {c : NodeConfig}
    (h : ofJson v = .ok c) : c.WellFormed := by
  have hempty : ∀ side s, empty.schema? side = some s → s.WellFormed := by
    rintro (_ | _) s hs <;> cases hs
  cases v with
  | null =>
    obtain rfl : empty = c := Except.ok.inj h
    exact ⟨hempty, List.nodup_nil, trivial⟩
  | obj entries => exact wellFormed_of_addEntries hempty hv h
  | _ => cases h

end NodeConfig

/-! ## Models -/

/-- Both record types are well formed. -/
structure NodeModels.WellFormed (m : NodeModels) : Prop where
  input : m.input.WellFormed
  output : m.output.WellFormed

theorem NodeModels.wellFormed_make (node : String) {input output : Schema}
    (hinput : input.WellFormed) (houtput : output.WellFormed) :
    (make node input output).WellFormed :=
  ⟨RecordType.wellFormed_iff.2 hinput, RecordType.wellFormed_iff.2 houtput⟩

/-- The schemas that an implementation fixes are well formed. -/
def FixedSchemas.WellFormed (f : FixedSchemas) : Prop :=
  ∀ side s, f.schema? side = some s → s.WellFormed

namespace SchemaVariant

theorem Gives.wellFormed {variant : SchemaVariant} {config : NodeConfig}
    (hconfig : config.WellFormed) {fixed : FixedSchemas} (hfixed : fixed.WellFormed) {side : Side}
    {s : Schema} (h : variant.Gives config fixed side s) : s.WellFormed := by
  cases h with
  | fixed _ hs => exact hfixed side s hs
  | declared _ hs => exact hconfig.schemas side s hs
  | default _ _ hdefault => cases hdefault <;> exact Schema.wellFormed_single _ trivial

/-- The models that a variant gives are well formed. -/
theorem wellFormed_of_setup {variant : SchemaVariant} {node : String} {config : NodeConfig}
    (hconfig : config.WellFormed) {fixed : FixedSchemas} (hfixed : fixed.WellFormed)
    {m : NodeModels} (h : variant.setup node config fixed = .ok m) : m.WellFormed := by
  have htype (side : Side) : (m.type side).WellFormed := by
    obtain ⟨s, hs, htype⟩ := (setup_eq_ok_iff.1 h).2 side
    rw [htype]
    exact RecordType.wellFormed_iff.2 (hs.wellFormed hconfig hfixed)
  exact ⟨htype .input, htype .output⟩

end SchemaVariant

/-! ## Kinds -/

/-- The models of every well-formed config are well formed. An implementation has no way to build
others, since it has no way to build a schema that declares a name twice. -/
def NodeKind.Lawful (k : NodeKind) : Prop :=
  ∀ config m, config.WellFormed → k.setup config = .ok m → m.WellFormed

/-- An implementation that leaves its models to its variant is lawful. -/
theorem NodeKind.lawful_of_variant {k : NodeKind} (hfixed : k.fixed.WellFormed)
    (hsetup : ∀ config, k.setup config = k.variant.setup k.name config k.fixed) : k.Lawful := by
  intro config m hconfig h
  rw [hsetup] at h
  exact SchemaVariant.wellFormed_of_setup hconfig hfixed h

theorem NodeInstance.ofConfig_eq_ok_iff {α : Type} {node : String} {x : Except ConfigFault α}
    {a : α} : ofConfig node x = .ok a ↔ x = .ok a := by
  cases x <;> simp [ofConfig]

namespace Primitive

theorem mirroredSchema_eq_ok_iff {side : Side} {c : NodeConfig} {s : Schema} :
    mirroredSchema side c = .ok s ↔ c.schema? side.other = none ∧ c.schema? side = some s := by
  rw [mirroredSchema]
  cases c.schema? side.other with
  | some other => simp
  | none => cases c.schema? side <;> simp

/-- The models of a node that returns its input. -/
theorem setup_mirror_iff {name typeName : String} {side : Side} {c : NodeConfig} {m : NodeModels} :
    (mirror name typeName side).setup c = .ok m ↔
      ∃ s, c.schema? side.other = none ∧ c.schema? side = some s ∧ m = .make name s s := by
  constructor
  · intro h
    obtain ⟨s, hs, hm⟩ := Except.bind_eq_ok_iff.1 h
    obtain ⟨hother, hs⟩ := mirroredSchema_eq_ok_iff.1 (NodeInstance.ofConfig_eq_ok_iff.1 hs)
    exact ⟨s, hother, hs, (Except.ok.inj hm).symm⟩
  · rintro ⟨s, hother, hs, rfl⟩
    have hschema := mirroredSchema_eq_ok_iff.2 ⟨hother, hs⟩
    exact Except.bind_eq_ok_iff.2 ⟨s, NodeInstance.ofConfig_eq_ok_iff.2 hschema, rfl⟩

theorem lawful_mirror (name typeName : String) (side : Side) :
    (mirror name typeName side).Lawful := by
  intro config m hconfig h
  obtain ⟨s, -, hs, rfl⟩ := setup_mirror_iff.1 h
  have hschema := hconfig.schemas side s hs
  exact NodeModels.wellFormed_make name hschema hschema

theorem staticValues_eq_ok_iff {c : NodeConfig} {values : Json.Entries} :
    staticValues c = .ok values ↔
      (∀ side, c.schema? side = none) ∧ c.get? valuesKey = some (.obj values) := by
  have hsides : (∀ side, c.schema? side = none) ↔
      ¬ (c.inputSchema.isSome || c.outputSchema.isSome) = true := by
    rw [Bool.or_eq_true, not_or, Option.not_isSome_iff_eq_none, Option.not_isSome_iff_eq_none]
    refine ⟨fun h => ⟨h .input, h .output⟩, ?_⟩
    rintro ⟨hinput, houtput⟩ (_ | _)
    · exact hinput
    · exact houtput
  rw [staticValues, hsides]
  split
  case isTrue hdeclared => simp [hdeclared]
  case isFalse hundeclared =>
    rw [and_iff_right hundeclared]
    cases c.get? valuesKey with
    | none => simp
    | some v => cases v <;> simp

/-- The models of a node of constant values. -/
theorem setup_staticValueNode_iff {c : NodeConfig} {m : NodeModels} :
    staticValueNode.setup c = .ok m ↔ ∃ values, (∀ side, c.schema? side = none) ∧
      c.get? valuesKey = some (.obj values) ∧
      m = ⟨.empty (Side.input.recordName "static_value_node"),
        .infer (Side.output.recordName "static_value_node") values⟩ := by
  constructor
  · intro h
    obtain ⟨values, hvalues, hm⟩ := Except.bind_eq_ok_iff.1 h
    obtain ⟨hsides, hvalues⟩ := staticValues_eq_ok_iff.1 (NodeInstance.ofConfig_eq_ok_iff.1 hvalues)
    exact ⟨values, hsides, hvalues, (Except.ok.inj hm).symm⟩
  · rintro ⟨values, hsides, hvalues, rfl⟩
    have hstatic := staticValues_eq_ok_iff.2 ⟨hsides, hvalues⟩
    exact Except.bind_eq_ok_iff.2 ⟨values, NodeInstance.ofConfig_eq_ok_iff.2 hstatic, rfl⟩

theorem lawful_staticValueNode : staticValueNode.Lawful := by
  intro config m hconfig h
  obtain ⟨values, -, hvalues, rfl⟩ := setup_staticValueNode_iff.1 h
  have hdistinct := hconfig.values.of_lookup hvalues
  exact ⟨RecordType.wellFormed_iff.2 Schema.wellFormed_empty,
    RecordType.wellFormed_infer _ hdistinct.1⟩

end Primitive

/-! ## Instances -/

namespace NodeInstance

theorem behavior_eq_ok_iff {i : NodeInstance} {b : Behavior} :
    i.behavior = .ok b ↔ i.kind.decode i.config = .ok b := by
  rw [behavior]
  cases i.kind.decode i.config <;> simp

/-- An instance as it is made of a kind, a config and a context: the kind has made models of its
config and can read it, and nothing is remembered. -/
structure Constructed (kind : NodeKind) (config : Json) (context : ExecutionContext)
    (i : NodeInstance) : Prop where
  kind_eq : i.kind = kind
  context_eq : i.context = context
  config_eq : i.config = config ∨ i.config = .obj []
  exists_setup : ∃ c, NodeConfig.ofJson i.config = .ok c ∧ kind.setup c = .ok i.models
  exists_behavior : ∃ b, i.behavior = .ok b
  lastInput_eq : i.lastInput = none
  lastOutput_eq : i.lastOutput = none

theorem constructed_of_construct {kind : NodeKind} {config : Json} {context : ExecutionContext}
    {i : NodeInstance} (h : construct kind config context = .ok i) :
    Constructed kind config context i := by
  obtain ⟨c, hc, h⟩ := Except.bind_eq_ok_iff.1 h
  obtain ⟨m, hm, h⟩ := Except.bind_eq_ok_iff.1 h
  obtain ⟨b, hb, h⟩ := Except.bind_eq_ok_iff.1 h
  obtain rfl := Except.ok.inj h
  refine ⟨rfl, rfl, ?_, ⟨c, ofConfig_eq_ok_iff.1 hc, hm⟩, ⟨b, hb⟩, rfl, rfl⟩
  cases config with
  | null => exact .inr rfl
  | _ => exact .inl rfl

/-- The config of the instance repeats no key if the one that was given does not. -/
theorem Constructed.distinct_config {kind : NodeKind} {config : Json} {context : ExecutionContext}
    {i : NodeInstance} (h : Constructed kind config context i) (hconfig : config.Distinct) :
    i.config.Distinct := by
  rcases h.config_eq with hi | hi
  · exact hi ▸ hconfig
  · exact hi ▸ ⟨List.nodup_nil, trivial⟩

theorem wellFormed_models_of_construct {kind : NodeKind} (hkind : kind.Lawful) {config : Json}
    (hconfig : config.Distinct) {context : ExecutionContext} {i : NodeInstance}
    (h : construct kind config context = .ok i) : i.models.WellFormed := by
  have hmade := constructed_of_construct h
  obtain ⟨c, hc, hm⟩ := hmade.exists_setup
  have hwellFormed := NodeConfig.wellFormed_of_ofJson (hmade.distinct_config hconfig) hc
  exact hkind c i.models hwellFormed hm

/-- The end of an invocation changes what an instance remembers and nothing else. -/
theorem exists_finish_eq (i : NodeInstance) (produced : Except String Payload) :
    ∃ output, (i.finish produced).2 = { i with lastOutput := output } := by
  rw [finish]
  split
  · exact ⟨_, rfl⟩
  · exact ⟨_, rfl⟩

theorem models_finish (i : NodeInstance) (produced : Except String Payload) :
    (i.finish produced).2.models = i.models := by
  obtain ⟨output, h⟩ := i.exists_finish_eq produced
  rw [h]

theorem models_invoke (i : NodeInstance) (input : NodeInput) :
    (i.invoke input).2.models = i.models := by
  rw [invoke, invokeWith]
  split
  case h_1 => rfl
  case h_2 record _ =>
    dsimp only
    split
    case h_1 => rfl
    case h_2 => exact (i.remember record).models_finish _

/-- The instances of lawful kinds that construction from a config and invocations lead to. -/
inductive Reachable : NodeInstance → Prop where
  | construct {kind : NodeKind} {config : Json} {context : ExecutionContext} {i : NodeInstance} :
    kind.Lawful → config.Distinct → NodeInstance.construct kind config context = .ok i →
      Reachable i
  | invoke {i : NodeInstance} (input : NodeInput) : Reachable i → Reachable (i.invoke input).2

/-- The models of an instance are well formed, from its construction on. -/
theorem Reachable.wellFormed_models {i : NodeInstance} (h : i.Reachable) :
    i.models.WellFormed := by
  induction h with
  | construct hkind hconfig hconstruct =>
    exact wellFormed_models_of_construct hkind hconfig hconstruct
  | invoke input _ ih => rwa [models_invoke]

end NodeInstance

end TypedWorkflow
