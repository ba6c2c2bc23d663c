import Std.Data.TreeMap
import TypedWorkflow.Node.Config
import TypedWorkflow.Node.VisualTag

/-!
# Nodes and their instances

A node kind is an implementation: its name and variant, how it makes its models from a config, and
what it does with an input. An instance is a kind with a config. It checks every input before the
kind sees it and every output before anyone else does, and it remembers the last input that it
accepted and the output that came of it.

## Main definitions

* `NodeInput`, `Payload`: what is passed to a node and what it produces.
* `Behavior`, `Runner`: what an implementation does, without effects and with them.
* `NodeKind`: an implementation.
* `NodeInstance`, `NodeInstance.construct`: an implementation with its config.
* `NodeInstance.invokeWith`, `NodeInstance.invoke`: one invocation, in the steps `accept`,
  `remember` and `finish`.
* `NodeInstance.input`, `NodeInstance.output`: what the instance remembers.
-/

namespace TypedWorkflow

/-! ## Inputs, outputs and context -/

/-- What is passed to an invocation: the outputs of the predecessors by their ids, a record, or a
value. -/
inductive NodeInput where
  | predecessors (outputs : Std.TreeMap String RecordInstance)
  | record (r : RecordInstance)
  | value (v : Json)

/-- The input of named outputs; of several under one name the last is taken. -/
def NodeInput.ofPredecessors (outputs : List (String × RecordInstance)) : NodeInput :=
  .predecessors (outputs.foldl (fun m (key, output) => m.insert key output) ∅)

/-- What an implementation produces: a record or a value. -/
inductive Payload where
  | record (r : RecordInstance)
  | value (v : Json)

/-- The value of a payload. -/
def Payload.toJson : Payload → Json
  | .record r => r.toJson
  | .value v => v

/-- A value that the host attaches to a run. Nodes can make use of texts only. -/
inductive HostValue where
  | text (value : String)
  | other

/-- What the host attaches to a run, if anything. -/
abbrev ExecutionContext := Option HostValue

/-- The text that the host has attached. -/
def ExecutionContext.text? : ExecutionContext → Option String
  | some (.text s) => some s
  | _ => none

/-- The surroundings of an invocation. -/
structure Surroundings where
  context : ExecutionContext
  models : NodeModels

/-- What an implementation does with an input; it may fail with a reason. -/
abbrev Behavior := Surroundings → RecordInstance → Except String Payload

/-- How an implementation works when it may have effects `m`, given the behavior that it has read
from its config. It need not do the same each time. -/
abbrev Runner (m : Type → Type) :=
  Behavior → Surroundings → RecordInstance → m (Except String Payload)

/-- An implementation without effects does what the behavior says. -/
def Runner.plain : Runner Id :=
  fun behavior around input => behavior around input

/-! ## Kinds -/

/-- An implementation of nodes. -/
structure NodeKind where
  name : String
  variant : SchemaVariant
  fixed : FixedSchemas := .none
  tag : Option VisualTag := none
  /-- The models that a config gives. -/
  setup : NodeConfig → Except WorkflowError NodeModels :=
    fun config => variant.setup name config fixed
  /-- Reads a config as the type that the implementation wants, and gives what it then does. -/
  decode : Json → Decoded Behavior

/-! ## Instances -/

/-- An implementation with its config, its models, and what it remembers of the last accepted
input. -/
structure NodeInstance where
  kind : NodeKind
  config : Json
  context : ExecutionContext
  models : NodeModels
  tag : VisualTag
  lastInput : Option Json
  lastOutput : Option Json

namespace NodeInstance

/-- Attaches the name of a node to a fault of its config. -/
def ofConfig {α : Type} (node : String) : Except ConfigFault α → Except WorkflowError α
  | .ok a => .ok a
  | .error fault => .error (.configShape node fault)

/-- What the config makes the implementation do. -/
def behavior (i : NodeInstance) : Except WorkflowError Behavior :=
  match i.kind.decode i.config with
  | .ok b => .ok b
  | .error e => .error (.configShape i.kind.name (.undecodable e))

/-- The instance of a kind with a config; `null` counts as the empty object. -/
def construct (kind : NodeKind) (config : Json) (context : ExecutionContext) :
    Except WorkflowError NodeInstance := do
  let config := match config with
    | .null => .obj []
    | v => v
  let nodeConfig ← ofConfig kind.name (NodeConfig.ofJson config)
  let models ← kind.setup nodeConfig
  let tag := kind.tag.getD (.ofName kind.name)
  let i : NodeInstance := ⟨kind, config, context, models, tag, none, none⟩
  let _ ← i.behavior
  return i

/-- Attaches the name of the node to an error of its input. -/
def inputResult {α : Type} (i : NodeInstance) : Except ValidationError α → Except WorkflowError α
  | .ok a => .ok a
  | .error e => .error (.inputValidation i.kind.name e)

/-- Attaches the name of the node to an error of its output. -/
def outputResult {α : Type} (i : NodeInstance) :
    Except ValidationError α → Except WorkflowError α
  | .ok a => .ok a
  | .error e => .error (.outputValidation i.kind.name e)

/-- The type of the outputs of the predecessors, made for one invocation. -/
def predecessorType (i : NodeInstance) (outputs : List (String × RecordInstance)) :
    Except WorkflowError RecordType :=
  match RecordType.ofInstances (i.kind.name ++ ".predecessors") outputs with
  | .ok t => .ok t
  | .error e => .error (.schema e)

/-- The record of the input model that an input denotes. Outputs of predecessors are first checked
against the type of their own. -/
def accept (i : NodeInstance) : NodeInput → Except WorkflowError RecordInstance
  | .predecessors outputs => do
    let type ← i.predecessorType outputs.toList
    let object := Json.obj (outputs.toList.map fun (key, output) => (key, output.toJson))
    let record ← i.inputResult (type.validate object)
    i.inputResult (i.models.input.validate record.toJson)
  | .record r => i.inputResult (i.models.input.revalidate r)
  | .value v => i.inputResult (i.models.input.validate v)

/-- The record of the output model that the work of the implementation gives. -/
def conclude (i : NodeInstance) : Except String Payload → Except WorkflowError RecordInstance
  | .ok payload => i.outputResult (i.models.output.validate payload.toJson)
  | .error reason => .error (.nodeFailed i.kind.name reason)

/-- The state in which the input of an invocation is remembered and its output is not known yet. -/
def remember (i : NodeInstance) (input : RecordInstance) : NodeInstance :=
  { i with lastInput := some input.toJson, lastOutput := none }

/-- The end of an invocation. An output that passes its check is remembered. -/
def finish (i : NodeInstance) (produced : Except String Payload) :
    Except WorkflowError RecordInstance × NodeInstance :=
  match i.conclude produced with
  | .ok output => (.ok output, { i with lastOutput := some output.toJson })
  | .error e => (.error e, i)

/-- One invocation, in which `run` does the work. A rejected input changes nothing. An accepted one
is remembered, the config is read, the implementation runs once, and its output is checked. -/
def invokeWith {m : Type → Type} [Monad m] (i : NodeInstance) (run : Runner m)
    (input : NodeInput) : m (Except WorkflowError RecordInstance × NodeInstance) :=
  match i.accept input with
  | .error e => pure (.error e, i)
  | .ok record =>
    let i := i.remember record
    match i.behavior with
    | .error e => pure (.error e, i)
    | .ok behavior => do
      let produced ← run behavior ⟨i.context, i.models⟩ record
      return i.finish produced

/-- One invocation of an implementation without effects. -/
def invoke (i : NodeInstance) (input : NodeInput) :
    Except WorkflowError RecordInstance × NodeInstance :=
  Id.run (i.invokeWith Runner.plain input)

/-- The last accepted input. -/
def input (i : NodeInstance) : Except WorkflowError (Option RecordInstance) :=
  match i.lastInput with
  | none => .ok none
  | some v => (i.inputResult (i.models.input.validate v)).map some

/-- The output that came of the last accepted input, if one did. -/
def output (i : NodeInstance) : Except WorkflowError (Option RecordInstance) :=
  match i.lastOutput with
  | none => .ok none
  | some v => (i.outputResult (i.models.output.validate v)).map some

end NodeInstance

end TypedWorkflow
