import TypedWorkflow.Json.Basic

/-!
# Workflows

A workflow is a list of nodes and of links between them, with inputs to try it on. A node may own
a workflow of its own, so that workflows nest; the levels of a workflow are itself and the
workflows that its nodes own, at any depth.

## Main definitions

* `Position`, `Link`, `NodeEntry`, `Workflow`: the parts of a workflow.
* `Workflow.ids`, `Workflow.node?`, `Workflow.roots`: what a level holds.
* `Workflow.equiv`: equality that ignores the order of config keys.
-/

namespace TypedWorkflow

/-- The coordinates of a node on the canvas. -/
structure Position where
  x : Binary64
  y : Binary64
  deriving DecidableEq

/-- Equality of coordinates as numbers. -/
def Position.sameValue (p q : Position) : Bool :=
  p.x.sameValue q.x && p.y.sameValue q.y

/-- A link from an output of one node to an input of another. -/
structure Link where
  sourceId : String
  sourceKey : String
  targetId : String
  targetKey : String
  condition : Option String
  deriving DecidableEq

/-- A node of a workflow, which may own something of type `α`. -/
structure NodeEntry (α : Type) where
  id : String
  parentId : Option String
  title : Option String
  nodeType : String
  config : Json.Entries
  coordinates : Option Position
  subworkflow : Option α

/-- A workflow: its nodes, their links, and test inputs. -/
structure Workflow where
  nodes : List (NodeEntry Workflow)
  links : List Link
  testInputs : List Json.Entries

instance : Inhabited Workflow := ⟨⟨[], [], []⟩⟩

namespace Workflow

/-- A node of a workflow, which may own a workflow. -/
abbrev Node := NodeEntry Workflow

/-! ## One level -/

/-- The ids of the nodes in order. -/
def ids (w : Workflow) : List String :=
  w.nodes.map NodeEntry.id

/-- The first node with the given id. -/
def node? (w : Workflow) (id : String) : Option Node :=
  w.nodes.find? fun n => n.id == id

/-- The nodes of a type that have no parent. -/
def roots (w : Workflow) (nodeType : String) : List Node :=
  w.nodes.filter fun n => n.parentId.isNone && n.nodeType == nodeType

/-! ## Building -/

/-- The workflow without nodes. -/
def empty : Workflow := ⟨[], [], []⟩

/-- Adds a node. -/
def addNode (w : Workflow) (n : Node) : Workflow :=
  { w with nodes := w.nodes ++ [n] }

/-- Adds a link. -/
def addLink (w : Workflow) (l : Link) : Workflow :=
  { w with links := w.links ++ [l] }

/-- Adds a test input. -/
def addTestInput (w : Workflow) (input : Json.Entries) : Workflow :=
  { w with testInputs := w.testInputs ++ [input] }

/-! ## Equality -/

/-- Equality of lists, element by element. -/
def sameList {α : Type} (same : α → α → Bool) : List α → List α → Bool
  | [], [] => true
  | a :: as, b :: bs => same a b && sameList same as bs
  | _, _ => false

/-- Equality of all that two nodes hold apart from the workflows that they own. -/
def sameEntry {α β : Type} (m : NodeEntry α) (n : NodeEntry β) : Bool :=
  m.id == n.id && m.parentId == n.parentId && m.title == n.title && m.nodeType == n.nodeType &&
    Json.equivObject m.config n.config &&
    (match m.coordinates, n.coordinates with
      | none, none => true
      | some p, some q => p.sameValue q
      | _, _ => false)

mutual

/-- Equality of workflows, up to the order of keys in configs and test inputs. -/
def equiv : Workflow → Workflow → Bool
  | ⟨nodes, links, inputs⟩, v =>
    equivNodes nodes v.nodes && links == v.links &&
      sameList Json.equivObject inputs v.testInputs

/-- Equality of nodes, element by element. -/
def equivNodes : List (NodeEntry Workflow) → List (NodeEntry Workflow) → Bool
  | [], [] => true
  | ⟨id, parent, title, type, config, coordinates, sub⟩ :: rest, n :: others =>
    sameEntry (⟨id, parent, title, type, config, coordinates, none⟩ : NodeEntry Unit) n &&
      (match sub, n.subworkflow with
        | none, none => true
        | some s, some t => s.equiv t
        | _, _ => false) &&
      equivNodes rest others
  | _, _ => false

end

end Workflow

end TypedWorkflow
