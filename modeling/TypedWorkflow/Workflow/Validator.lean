import TypedWorkflow.Catalog.Standard
import TypedWorkflow.Workflow.Definition

/-!
# Validating workflows

A validator checks every level of a workflow against the structural rules and reports each broken
rule with its level, outer levels before the levels that they own. A workflow without violations
is made a definition.

## Main definitions

* `ValidatorConfig`: the node types of inputs and outputs, and how deep workflows may nest.
* `Validator.checkLevel`, `Validator.check`: the violations of one level, and of all levels.
* `Validator.validate`: the definition of an accepted workflow.
* `Definition.ofJson`, `Definition.ofText`, `Definition.decode`: the readers of definitions.
-/

namespace TypedWorkflow

/-! ## Configuration -/

/-- The node types of inputs and outputs, and how deep workflows may nest. -/
structure ValidatorConfig where
  inputType : String
  outputType : String
  maxDepth : Nat
  deriving DecidableEq

/-- What is wrong with a validator's config. -/
inductive ValidatorConfigFault where
  | typeEmpty
  | typesEqual
  deriving DecidableEq

/-- The text of a fault. -/
def ValidatorConfigFault.message : ValidatorConfigFault → String
  | .typeEmpty => "input and output node types must not be empty"
  | .typesEqual => "input and output node types must differ"

namespace ValidatorConfig

/-- The config that is used unless another is given. -/
def standard : ValidatorConfig := ⟨"InputNode", "OutputNode", 16⟩

/-- The config with the given parts, and the usual ones for those not given. -/
def make (inputType outputType : Option String) (maxDepth : Option Nat) :
    Except ValidatorConfigFault ValidatorConfig :=
  let input := inputType.getD standard.inputType
  let output := outputType.getD standard.outputType
  if input.isEmpty || output.isEmpty then .error .typeEmpty
  else if input = output then .error .typesEqual
  else .ok ⟨input, output, maxDepth.getD standard.maxDepth⟩

end ValidatorConfig

/-- A validator: the node types that it knows, and its config. -/
structure Validator where
  catalog : Catalog
  config : ValidatorConfig

namespace Validator

/-- The validator of the standard node types. -/
def standard : Validator := ⟨.standard, .standard⟩

/-! ## The rules of one level -/

/-- The ids that occur for a second time, in order. -/
def repeatedIds (seen reported : List String) : List String → List String
  | [] => []
  | id :: ids =>
    if !seen.contains id then repeatedIds (id :: seen) reported ids
    else if reported.contains id then repeatedIds seen reported ids
    else id :: repeatedIds seen (id :: reported) ids

/-- Ids must be unique. -/
def duplicateIds (w : Workflow) : List Rule :=
  (repeatedIds [] [] w.ids).map .duplicateNodeId

/-- There must be exactly one input node without a parent. -/
def inputCount (v : Validator) (w : Workflow) : List Rule :=
  let found := (w.roots v.config.inputType).length
  if found = 1 then [] else [.inputNodeCount v.config.inputType found]

/-- There must be at most one output node. -/
def outputCount (v : Validator) (w : Workflow) : List Rule :=
  let found := (w.nodes.filter fun n => n.nodeType == v.config.outputType).length
  if found ≤ 1 then [] else [.outputNodeCount v.config.outputType found]

/-- The type of a node must be known. -/
def typeOfNode {α : Type} (v : Validator) (n : NodeEntry α) : List Rule :=
  if v.catalog.isValid n.nodeType then [] else [.unknownNodeType n.id n.nodeType]

/-- The parent of a node must be another node of the level. -/
def parentOfNode {α : Type} (ids : List String) (n : NodeEntry α) : List Rule :=
  match n.parentId with
  | none => []
  | some parent =>
    if parent = n.id then [.selfParent n.id]
    else if ids.contains parent then []
    else [.danglingParent n.id parent]

/-- Both ends of a link must be nodes of the level. -/
def endsOfLink (ids : List String) (l : Link) : List Rule :=
  ([l.sourceId, l.targetId].filter fun id => !ids.contains id).map
    (.danglingLink l.sourceId l.targetId)

/-- The rules that a level breaks, apart from those of the levels inside. -/
def checkLevel (v : Validator) (w : Workflow) : List Rule :=
  duplicateIds w ++ v.inputCount w ++ v.outputCount w ++
    (w.nodes.flatMap fun n => v.typeOfNode n ++ parentOfNode w.ids n) ++
    w.links.flatMap (endsOfLink w.ids)

/-! ## All levels -/

mutual

/-- The violations of a level and of the levels inside. -/
def checkAt (v : Validator) (location : Location) : Workflow → List RuleViolation
  | ⟨nodes, links, inputs⟩ =>
    (v.checkLevel ⟨nodes, links, inputs⟩).map (⟨location, ·⟩) ++ checkOwned v location nodes

/-- The violations of the levels that nodes own. A level that lies too deep is not looked into. -/
def checkOwned (v : Validator) (location : Location) :
    List (NodeEntry Workflow) → List RuleViolation
  | [] => []
  | ⟨_, _, _, _, _, _, none⟩ :: rest => checkOwned v location rest
  | ⟨id, _, _, _, _, _, some w⟩ :: rest =>
    let inner := location ++ [id]
    let found :=
      if v.config.maxDepth < inner.length then [⟨inner, .maxDepthExceeded v.config.maxDepth⟩]
      else checkAt v inner w
    found ++ checkOwned v location rest

end

/-- All violations of a workflow. -/
def check (v : Validator) (w : Workflow) : List RuleViolation :=
  v.checkAt [] w

end Validator

/-! ## Definitions -/

/-- The definition of a workflow, if it breaks no rule. -/
def Validator.validate (v : Validator) (w : Workflow) : Except WorkflowError Definition :=
  match v.check w with
  | [] => .ok (.ofValidated w)
  | violations => .error (.brokenRules violations)

namespace Definition

/-- The definition of a workflow over the standard node types. -/
def ofWorkflow (w : Workflow) : Except WorkflowError Definition :=
  Validator.standard.validate w

/-- The definition that a decoded workflow makes. -/
def ofDecoded : Decoded Workflow → Except WorkflowError Definition
  | .ok w => ofWorkflow w
  | .error e => .error (.serialization e)

/-- The definition that a JSON value denotes. -/
def ofJson (v : Json) : Except WorkflowError Definition :=
  ofDecoded (Decode.ofJson Workflow.decode v)

/-- The definition that a JSON text denotes. -/
def ofText (text : String) : Except WorkflowError Definition :=
  ofDecoded (Decode.ofText Workflow.decode text)

/-- Decodes a definition; broken rules are an error of the data. -/
def decode (source : Decode.Source) (d : Document) : Decoded Definition := do
  let w ← Workflow.decode source d
  match ofWorkflow w with
  | .ok definition => .ok definition
  | .error e => .error (.rejected e.message)

end Definition

end TypedWorkflow
