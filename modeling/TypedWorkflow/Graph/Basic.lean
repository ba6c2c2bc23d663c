import TypedWorkflow.Graph.Order
import TypedWorkflow.Workflow.Validator

/-!
# Workflow graphs

The graph of one level of a definition: its nodes in topological order, their neighbors along the
links, the construction of all nodes through a catalog, and the check that every link connects
keys of one type.

## Main definitions

* `WorkflowGraph`, `WorkflowGraph.make`: a level whose links form no cycle.
* `predecessors`, `successors`, `linksInto`: neighbors.
* `instantiate`, `checkLinks`, `predecessorType`: constructed nodes and the types between them.
-/

namespace TypedWorkflow

/-- One level of a definition whose links form no cycle, with its ids in topological order. -/
structure WorkflowGraph where
  definition : Definition
  order : List String

/-- Constructed nodes by their ids. -/
abbrev NodeInstances := List (String × NodeInstance)

/-- The directed graph of the links of a level that have both ends in it. -/
def Workflow.digraph (w : Workflow) : Digraph :=
  ⟨w.ids, w.links.filter fun l => w.ids.contains l.sourceId && w.ids.contains l.targetId⟩

namespace WorkflowGraph

/-- The graph of a level. -/
def make (d : Definition) : Except WorkflowError WorkflowGraph :=
  match d.workflow.digraph.order with
  | .ok order => .ok ⟨d, order⟩
  | .error id => .error (.cycle id)

/-- The nodes and links of the level. -/
def workflow (g : WorkflowGraph) : Workflow :=
  g.definition.workflow

/-- The nodes in topological order. -/
def nodes (g : WorkflowGraph) : List Definition.Node :=
  g.order.filterMap g.definition.node?

/-! ## Neighbors -/

/-- The links into a node, newest first. -/
def linksInto (g : WorkflowGraph) (id : String) : List Link :=
  g.workflow.digraph.linksInto id

/-- The nodes with a link into a node, in the order of the level. -/
def predecessors (g : WorkflowGraph) (id : String) : List String :=
  g.workflow.ids.filter fun other => (g.workflow.digraph.sourcesOf id).contains other

/-- The nodes with a link out of a node, in the order of the level. -/
def successors (g : WorkflowGraph) (id : String) : List String :=
  g.workflow.ids.filter fun other => (g.workflow.digraph.targetsOf id).contains other

/-! ## Instances -/

/-- Constructs nodes in order, leaving out those without a loader. -/
def instantiateNodes (catalog : Catalog) (context : ExecutionContext) :
    List Definition.Node → Except WorkflowError NodeInstances
  | [] => .ok []
  | n :: rest =>
    match catalog.createNode n.nodeType (.obj n.config) context with
    | .ok i => do return (n.id, i) :: (← instantiateNodes catalog context rest)
    | .error (.nodeUnavailable _) => instantiateNodes catalog context rest
    | .error e => .error e

/-- Constructs the nodes of the level that have a loader. -/
def instantiate (g : WorkflowGraph) (catalog : Catalog) (context : ExecutionContext) :
    Except WorkflowError NodeInstances :=
  instantiateNodes catalog context g.nodes

/-! ## Types along the links -/

/-- Why a link does not fit an output type and an input type. -/
def mismatch? (l : Link) (output input : RecordType) : Option MismatchReason :=
  match output.field? l.sourceKey, input.field? l.targetKey with
  | none, _ => some (.missingOutput l.sourceKey)
  | some _, none => some (.missingInput l.targetKey)
  | some o, some i => if o.same i then none else some (.typeMismatch o.text i.text)

/-- The mismatch of a link, if both its ends are constructed. -/
def linkMismatch? (instances : NodeInstances) (l : Link) : Option LinkMismatch :=
  match instances.lookup l.sourceId, instances.lookup l.targetId with
  | some source, some target =>
    (mismatch? l source.models.output target.models.input).map (⟨l, ·⟩)
  | _, _ => none

/-- Whether every link between constructed nodes connects keys of one type. -/
def checkLinks (g : WorkflowGraph) (instances : NodeInstances) : Except WorkflowError Unit :=
  match g.workflow.links.filterMap (linkMismatch? instances) with
  | [] => .ok ()
  | mismatches => .error (.linkMismatch mismatches)

/-- Adds a field for the output of each predecessor. -/
def insertOutputs (g : WorkflowGraph) (instances : NodeInstances) (s : Schema) :
    List String → Except WorkflowError Schema
  | [] => .ok s
  | id :: rest =>
    match instances.lookup id with
    | none =>
      .error (.nodeUnavailable (((g.definition.node? id).map NodeEntry.nodeType).getD id))
    | some i =>
      match s.insert id i.models.output.token with
      | .ok s => g.insertOutputs instances s rest
      | .error e => .error (.schema e)

/-- The type of the outputs of all predecessors of a node, by their ids. -/
def predecessorType (g : WorkflowGraph) (id : String) (instances : NodeInstances) :
    Except WorkflowError RecordType := do
  let s ← g.insertOutputs instances .empty (g.predecessors id)
  return ⟨id ++ ".predecessors", s⟩

end WorkflowGraph

end TypedWorkflow
