import TypedWorkflow.Proofs.Node.WellFormed
import TypedWorkflow.Proofs.Schema.Instances

/-!
# The forms of an input

An input is given as a value, as a record or as the outputs of predecessors by their ids, and each
form stands for a value. Outputs of predecessors are checked twice, first against a type made for
the occasion. That check accepts all outputs and changes none, so an invocation does the same with
every form of an input.

## Main definitions

* `NodeInput.toJson`, `NodeInput.Genuine`: the value of an input, and inputs of real instances.
* `NodeInstance.exists_predecessorType`: the check of the outputs of predecessors.
* `NodeInstance.accept_eq`: an input is accepted as its value is.
* `NodeInstance.invokeWith_forms`: the forms of an input are interchangeable.
-/

namespace TypedWorkflow

/-- The value of an input. The outputs of predecessors make an object, in the order of the ids. -/
def NodeInput.toJson : NodeInput → Json
  | .predecessors outputs => .obj (RecordInstance.dumps outputs.toList)
  | .record r => r.toJson
  | .value v => v

/-- The outputs of predecessors are instances of their types. -/
def NodeInput.Genuine : NodeInput → Prop
  | .predecessors outputs => ∀ e ∈ outputs.toList, e.2.Genuine
  | .record _ | .value _ => True

namespace NodeInstance

/-- The type of the outputs of predecessors always exists, and accepts them unchanged. -/
theorem exists_predecessorType (i : NodeInstance) {outputs : Std.TreeMap String RecordInstance}
    (h : ∀ e ∈ outputs.toList, e.2.Genuine) :
    ∃ T, i.predecessorType outputs.toList = .ok T ∧
      T.validate (.obj (RecordInstance.dumps outputs.toList)) =
        .ok ⟨T, RecordInstance.dumps outputs.toList⟩ := by
  have hnames : (outputs.toList.map Prod.fst).Nodup := by
    rw [Std.TreeMap.map_fst_toList_eq_keys]
    exact Std.TreeMap.nodup_keys
  obtain ⟨T, hT, hvalidate⟩ :=
    RecordType.exists_validate_ofInstances (i.kind.name ++ ".predecessors") hnames h
  exact ⟨T, by rw [predecessorType, hT], hvalidate⟩

/-- An input is accepted exactly if the input model accepts its value, as the same record and with
the same errors. -/
theorem accept_eq (i : NodeInstance) {input : NodeInput} (h : input.Genuine) :
    i.accept input = i.inputResult (i.models.input.validate input.toJson) := by
  cases input with
  | predecessors outputs =>
    obtain ⟨T, hT, hvalidate⟩ := i.exists_predecessorType h
    calc i.accept (.predecessors outputs)
        = (i.inputResult (T.validate (.obj (RecordInstance.dumps outputs.toList))) >>= fun r =>
            i.inputResult (i.models.input.validate r.toJson)) := by rw [accept, hT]; rfl
      _ = _ := by rw [hvalidate]; rfl
  | record r => rfl
  | value v => rfl

/-- Inputs with the same value lead to the same work, with the same effects, the same result and the
same state after it. -/
theorem invokeWith_congr {m : Type → Type} [Monad m] (i : NodeInstance) (run : Runner m)
    {input other : NodeInput} (hinput : input.Genuine) (hother : other.Genuine)
    (h : input.toJson = other.toJson) : i.invokeWith run input = i.invokeWith run other := by
  rw [invokeWith, invokeWith, i.accept_eq hinput, i.accept_eq hother, h]

/-- The forms of an input are interchangeable: outputs of predecessors can be passed as the object
of their values, and a record as its value. The check of the outputs against a type of their own
accepts them and alters nothing. -/
theorem invokeWith_forms (i : NodeInstance) {outputs : Std.TreeMap String RecordInstance}
    (houtputs : ∀ e ∈ outputs.toList, e.2.Genuine) (r : RecordInstance) :
    (∀ (m : Type → Type) [Monad m] (run : Runner m),
      i.invokeWith run (.predecessors outputs) = i.invokeWith run
          (.value (.obj (outputs.toList.map fun e => (e.1, e.2.toJson)))) ∧
        i.invokeWith run (.record r) = i.invokeWith run (.value r.toJson)) ∧
    ∃ T, i.predecessorType outputs.toList = .ok T ∧
      T.validate (.obj (outputs.toList.map fun e => (e.1, e.2.toJson))) =
        .ok ⟨T, outputs.toList.map fun e => (e.1, e.2.toJson)⟩ := by
  refine ⟨fun m _ run => ⟨?_, ?_⟩, i.exists_predecessorType houtputs⟩
  · exact i.invokeWith_congr run houtputs trivial rfl
  · exact i.invokeWith_congr run trivial trivial rfl

/-- A number, as the output of a node. -/
def levelOutput : RecordInstance :=
  ⟨⟨"Level", ⟨[("level", .int)]⟩⟩, [("level", .num (.int 7))]⟩

/-- A tally and a number, put in out of order. -/
def joinOutputs : Std.TreeMap String RecordInstance :=
  ((∅ : Std.TreeMap String RecordInstance).insert "tally" RecordType.tallyInstance).insert
    "level" levelOutput

/-- A node that takes the number as such and the tally as any object. -/
def joinNode : NodeInstance where
  kind := Primitive.inputNode
  config := .obj [("input_schema", .obj [("tally", .str "dict"), ("level", .str "any")])]
  context := none
  models := .make "input_node" ⟨[("tally", .dict), ("level", .any)]⟩
    ⟨[("tally", .dict), ("level", .any)]⟩
  tag := .ofName "input_node"
  lastInput := none
  lastOutput := none

theorem invokeWith_forms_joinNode :
    (∀ e ∈ joinOutputs.toList, e.2.Genuine) ∧
    (∀ (m : Type → Type) [Monad m] (run : Runner m),
      joinNode.invokeWith run (.predecessors joinOutputs) = joinNode.invokeWith run
          (.value (.obj [("level", levelOutput.toJson),
            ("tally", RecordType.tallyInstance.toJson)])) ∧
        joinNode.invokeWith run (.record levelOutput) =
          joinNode.invokeWith run (.value levelOutput.toJson)) ∧
    ∃ T, joinNode.predecessorType [("level", levelOutput), ("tally", RecordType.tallyInstance)] =
        .ok T ∧
      T.validate (.obj [("level", levelOutput.toJson),
          ("tally", RecordType.tallyInstance.toJson)]) =
        .ok ⟨T, [("level", levelOutput.toJson), ("tally", RecordType.tallyInstance.toJson)]⟩ := by
  have hlevel : levelOutput.Genuine := by
    refine ⟨?_, .obj [("level", .num (.int 7))], rfl⟩
    simp [RecordType.WellFormed, RecordType.token, levelOutput, TypeToken.Distinct,
      TypeToken.DistinctFields]
  have htally : RecordType.tallyInstance.Genuine := by
    refine ⟨?_, RecordType.tallySample, rfl⟩
    simp [RecordType.WellFormed, RecordType.token, RecordType.tallyInstance, RecordType.tallyType,
      TypeToken.Distinct, TypeToken.DistinctFields]
  have houtputs : ∀ e ∈ joinOutputs.toList, e.2.Genuine := by
    change ∀ e ∈ [("level", levelOutput), ("tally", RecordType.tallyInstance)], e.2.Genuine
    simp [hlevel, htally]
  exact ⟨houtputs, joinNode.invokeWith_forms houtputs levelOutput⟩

end NodeInstance

end TypedWorkflow
