import TypedWorkflow.Proofs.Node.Invocation
import TypedWorkflow.Proofs.Node.PrimitiveConfig
import TypedWorkflow.Proofs.Schema.Inference

/-!
# What primitive nodes return

An input node and an output node return the record that they are given, a node of constant values
returns these. Either way the result is checked against an output model that was made with it in
mind: a type with the same fields as the input model, or the type inferred from the values. So an
accepted input never fails afterwards, the values come out as they went in, and what was invoked
before makes no difference.

## Main definitions

* `RecordType.validate_rename`: why the output is accepted, if it is the input.
* `NodeInstance.after`, `NodeInstance.invoke_after_eq`: invocations after others.
* `Primitive.Returns`: what a primitive node makes of an accepted input.
* `Primitive.invoke_returns`: it does so, and rejects all other inputs.
-/

namespace TypedWorkflow

/-! ## Types of equal fields -/

/-- The name of a type has no influence on the values of its instances. -/
theorem RecordType.validate_rename {T : RecordType} {v : Json} {i : RecordInstance}
    (h : T.validate v = .ok i) (name : String) :
    RecordType.validate ⟨name, T.schema⟩ v = .ok ⟨⟨name, T.schema⟩, i.values⟩ := by
  cases v with
  | obj entries =>
    rw [validate] at h ⊢
    cases hcheck : TypeToken.checkFields T.schema.fields entries "" with
    | ok values =>
      rw [hcheck] at h
      rw [← Except.ok.inj h]
    | error violations => rw [hcheck] at h; cases h
  | _ => cases h

/-! ## Invocations after others -/

namespace NodeInstance

/-- The instance after invocations with the given inputs, one after the other. -/
def after (i : NodeInstance) (inputs : List NodeInput) : NodeInstance :=
  inputs.foldl (fun j input => (j.invoke input).2) i

theorem after_concat (i : NodeInstance) (inputs : List NodeInput) (input : NodeInput) :
    i.after (inputs ++ [input]) = ((i.after inputs).invoke input).2 := by
  rw [after, List.foldl_append]
  rfl

theorem exists_invoke_eq (i : NodeInstance) (input : NodeInput) :
    ∃ a b, (i.invoke input).2 = { i with lastInput := a, lastOutput := b } := by
  rw [invoke, invokeWith]
  cases i.accept input with
  | error e => exact ⟨_, _, rfl⟩
  | ok record =>
    cases hbehavior : (i.remember record).behavior with
    | error e =>
      simp only [hbehavior]
      exact ⟨_, _, rfl⟩
    | ok behavior =>
      simp only [hbehavior]
      exact ⟨_, _, congrArg Prod.snd (i.finish_remember record _)⟩

/-- Invocations change what an instance remembers and nothing else. -/
theorem exists_after_eq (i : NodeInstance) (inputs : List NodeInput) :
    ∃ a b, i.after inputs = { i with lastInput := a, lastOutput := b } := by
  induction inputs generalizing i with
  | nil => exact ⟨_, _, rfl⟩
  | cons input rest ih =>
    obtain ⟨a, b, hinvoke⟩ := i.exists_invoke_eq input
    obtain ⟨c, d, hrest⟩ := ih (i.invoke input).2
    exact ⟨c, d, hrest.trans (by rw [hinvoke])⟩

/-- The result of an invocation: an error of the input, or what the check of the output makes of the
behavior. -/
theorem invoke_eq {i : NodeInstance} {behavior : Behavior} (hbehavior : i.behavior = .ok behavior)
    {input : NodeInput} (hinput : input.Genuine) :
    (i.invoke input).1 = match i.models.input.validate input.toJson with
      | .ok record => i.conclude (behavior ⟨i.context, i.models⟩ record)
      | .error e => .error (.inputValidation i.kind.name e) := by
  rw [invoke, invokeWith, i.accept_eq hinput]
  cases i.models.input.validate input.toJson with
  | error e => rfl
  | ok record =>
    have hremember : (i.remember record).behavior = .ok behavior := hbehavior
    simp only [inputResult, hremember]
    exact congrArg Prod.fst (i.finish_remember record _)

/-- It does not depend on the invocations before. -/
theorem invoke_after_eq {i : NodeInstance} {behavior : Behavior}
    (hbehavior : i.behavior = .ok behavior) (earlier : List NodeInput) {input : NodeInput}
    (hinput : input.Genuine) :
    ((i.after earlier).invoke input).1 = match i.models.input.validate input.toJson with
      | .ok record => i.conclude (behavior ⟨i.context, i.models⟩ record)
      | .error e => .error (.inputValidation i.kind.name e) := by
  obtain ⟨a, b, hafter⟩ := i.exists_after_eq earlier
  rw [hafter, invoke_eq (i := { i with lastInput := a, lastOutput := b }) hbehavior hinput]
  rfl

end NodeInstance

/-! ## Nodes that return their input -/

namespace Primitive

/-- A node that returns its input returns the values of every input that it accepts. -/
theorem invoke_mirror {name typeName : String} {side : Side} {config : Json}
    (hconfig : config.Distinct) {context : ExecutionContext} {i : NodeInstance}
    (h : NodeInstance.construct (mirror name typeName side) config context = .ok i)
    (earlier : List NodeInput) {input : NodeInput} (hinput : input.Genuine) :
    ((i.after earlier).invoke input).1 = match i.models.input.validate input.toJson with
      | .ok record => .ok ⟨i.models.output, record.values⟩
      | .error e => .error (.inputValidation name e) := by
  have hmade := NodeInstance.constructed_of_construct h
  have hmodels :=
    NodeInstance.wellFormed_models_of_construct (lawful_mirror name typeName side) hconfig h
  obtain ⟨c, hc, hsetup⟩ := hmade.exists_setup
  obtain ⟨s, -, -, hdecode, hmake⟩ :=
    exists_decodeSchema (hmade.distinct_config hconfig) hc hsetup
  have hbehavior : i.behavior = .ok fun _ input => .ok (.record input) :=
    NodeInstance.behavior_eq_ok_iff.2 (hmade.kind_eq ▸ hdecode)
  rw [NodeInstance.invoke_after_eq hbehavior earlier hinput, hmade.kind_eq]
  cases hvalidate : i.models.input.validate input.toJson with
  | error e => rfl
  | ok record =>
    have hrecord : i.models.input.Makes record := ⟨_, hvalidate⟩
    have hagain := RecordType.validate_rename (hrecord.validate_toJson hmodels.input)
      i.models.output.name
    refine NodeInstance.outputResult_eq_ok_iff.2 ?_
    rw [hmake] at hagain ⊢
    exact hagain

/-! ## Nodes of constant values -/

/-- A node of constant values returns them on every input that it accepts. -/
theorem invoke_staticValueNode {config : Json} (hconfig : config.Distinct)
    {context : ExecutionContext} {i : NodeInstance}
    (h : NodeInstance.construct staticValueNode config context = .ok i) :
    i.models.input = .empty (Side.input.recordName "static_value_node") ∧
    ∃ constants, config.get? valuesKey = some (.obj constants) ∧
      ∀ (earlier : List NodeInput) {input : NodeInput}, input.Genuine →
        ((i.after earlier).invoke input).1 = match i.models.input.validate input.toJson with
          | .ok _ => .ok ⟨i.models.output, constants⟩
          | .error e => .error (.inputValidation staticValueNode.name e) := by
  have hmade := NodeInstance.constructed_of_construct h
  have hdistinct := hmade.distinct_config hconfig
  obtain ⟨c, hc, hsetup⟩ := hmade.exists_setup
  obtain ⟨constants, hdeclares, -, hdecode, hmodels⟩ := exists_decodeValues hdistinct hc hsetup
  have hvalues := hdeclares.values
  have hsame : i.config = config := by
    rcases hmade.config_eq with hsame | hempty
    · exact hsame
    · rw [hempty] at hvalues
      cases hvalues
  rw [hsame] at hvalues
  have hconstants : (Json.obj constants).Distinct := by
    cases config with
    | obj entries => exact hconfig.of_lookup hvalues
    | _ => cases hvalues
  have hbehavior : i.behavior = .ok fun _ _ => .ok (.value (.obj constants)) :=
    NodeInstance.behavior_eq_ok_iff.2 (hmade.kind_eq ▸ hdecode)
  refine ⟨by rw [hmodels], constants, hvalues, fun earlier input hinput => ?_⟩
  rw [NodeInstance.invoke_after_eq hbehavior earlier hinput, hmade.kind_eq]
  cases i.models.input.validate input.toJson with
  | error e => rfl
  | ok record =>
    refine NodeInstance.outputResult_eq_ok_iff.2 ?_
    rw [hmodels]
    exact RecordType.validate_infer _ hconstants.1

/-! ## All primitive nodes -/

/-- What a primitive node with a config returns for an accepted input: the values of the input, or
the object that is configured. -/
inductive Returns (config : Json) : NodeKind → RecordInstance → Json.Entries → Prop where
  | input (record : RecordInstance) : Returns config inputNode record record.values
  | output (record : RecordInstance) : Returns config outputNode record record.values
  | constant (record : RecordInstance) {constants : Json.Entries}
      (h : config.get? valuesKey = some (.obj constants)) :
      Returns config staticValueNode record constants

/-- After any invocations, a primitive node fails exactly on the inputs that its input model
rejects, with the error of just that check. For all others it returns the values that it is to
return, as they are. A node of constant values rejects what is no object, and nothing else. -/
theorem invoke_returns {typeName : String} {kind : NodeKind}
    (hkind : (typeName, kind) ∈ primitiveTypes) {config : Json} (hconfig : config.Distinct)
    {context : ExecutionContext} {i : NodeInstance}
    (h : NodeInstance.construct kind config context = .ok i) (earlier : List NodeInput)
    {input : NodeInput} (hinput : input.Genuine) :
    (i.after earlier).models = i.models ∧
    (match i.models.input.validate input.toJson with
      | .error e => ((i.after earlier).invoke input).1 = .error (.inputValidation kind.name e)
      | .ok record => ∃ values, Returns config kind record values ∧
          ((i.after earlier).invoke input).1 = .ok ⟨i.models.output, values⟩) ∧
    (typeName = "StaticValueNode" →
      ((∃ e, ((i.after earlier).invoke input).1 = .error e) ↔
        ∀ entries, input.toJson ≠ .obj entries)) := by
  have hmodels : (i.after earlier).models = i.models := by
    obtain ⟨a, b, hafter⟩ := i.exists_after_eq earlier
    rw [hafter]
  have hmirror {name typeName : String} {side : Side} (hsame : kind = mirror name typeName side)
      (hreturns : ∀ record, Returns config kind record record.values) :
      match i.models.input.validate input.toJson with
      | .error e => ((i.after earlier).invoke input).1 = .error (.inputValidation kind.name e)
      | .ok record => ∃ values, Returns config kind record values ∧
          ((i.after earlier).invoke input).1 = .ok ⟨i.models.output, values⟩ := by
    subst hsame
    rw [invoke_mirror hconfig h earlier hinput]
    cases i.models.input.validate input.toJson with
    | error e => rfl
    | ok record => exact ⟨_, hreturns record, rfl⟩
  refine ⟨hmodels, ?_⟩
  simp only [primitiveTypes, List.mem_cons, Prod.mk.injEq, List.not_mem_nil, or_false] at hkind
  obtain ⟨rfl, rfl⟩ | ⟨rfl, rfl⟩ | ⟨rfl, rfl⟩ := hkind
  · exact ⟨hmirror rfl .input, fun hname => absurd hname (by decide)⟩
  · exact ⟨hmirror rfl .output, fun hname => absurd hname (by decide)⟩
  · obtain ⟨hempty, constants, hconstants, hinvoke⟩ := invoke_staticValueNode hconfig h
    rw [hinvoke earlier hinput]
    constructor
    · cases i.models.input.validate input.toJson with
      | error e => rfl
      | ok record => exact ⟨_, .constant record hconstants, rfl⟩
    · intro _
      rw [hempty]
      cases input.toJson with
      | obj entries => simp [RecordType.validate, RecordType.empty, Schema.empty,
          TypeToken.checkFields]
      | _ => simp [RecordType.validate]

/-- Constants, nested in each other. -/
def limits : Json.Entries :=
  [("limits", .obj [("low", .arr [.num (.float (.zero true)), .null])])]

/-- The node of these constants. -/
def limitsNode : NodeInstance where
  kind := staticValueNode
  config := .obj [("values", .obj limits)]
  context := none
  models := ⟨.empty "static_value_node.input", .infer "static_value_node.output" limits⟩
  tag := .ofName "static_value_node"
  lastInput := none
  lastOutput := none

theorem invoke_returns_limitsNode :
    ("StaticValueNode", staticValueNode) ∈ primitiveTypes ∧
    (Json.obj [("values", .obj limits)]).Distinct ∧
    NodeInstance.construct staticValueNode (.obj [("values", .obj limits)]) none =
      .ok limitsNode ∧
    (limitsNode.after [.value .null]).models = limitsNode.models ∧
    (∃ values, Returns (.obj [("values", .obj limits)]) staticValueNode
        ⟨limitsNode.models.input, []⟩ values ∧
      ((limitsNode.after [.value .null]).invoke (.record NodeInstance.levelOutput)).1 =
        .ok ⟨limitsNode.models.output, values⟩) ∧
    ((∃ e, ((limitsNode.after [.value .null]).invoke
        (.record NodeInstance.levelOutput)).1 = .error e) ↔
      ∀ entries, NodeInstance.levelOutput.toJson ≠ .obj entries) := by
  have hkind : ("StaticValueNode", staticValueNode) ∈ primitiveTypes := by simp [primitiveTypes]
  have hconfig : (Json.obj [("values", .obj limits)]).Distinct := by
    simp [limits, Json.Distinct, Json.DistinctEntries, Json.DistinctItems]
  have hconstruct : NodeInstance.construct staticValueNode (.obj [("values", .obj limits)]) none =
      .ok limitsNode := rfl
  have hinput : (NodeInput.record NodeInstance.levelOutput).Genuine := trivial
  obtain ⟨hmodels, hreturns, hrejects⟩ :=
    invoke_returns hkind hconfig hconstruct [.value .null] hinput
  exact ⟨hkind, hconfig, hconstruct, hmodels, hreturns, hrejects rfl⟩

end Primitive

end TypedWorkflow
