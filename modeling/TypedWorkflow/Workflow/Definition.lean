import TypedWorkflow.Workflow.Wire

/-!
# Definitions

A definition has the shape of a workflow, but a node of a definition owns a definition. So what has
been found of a workflow by checking it, at every level, is not lost when one level is looked at
alone. A definition is made of a whole workflow at once, and a whole definition can be taken back to
the workflow that it was made of.

## Main definitions

* `Definition`: definitions.
* `Definition.ofValidated`, `Definition.workflow`: from workflows to definitions and back.
* `Definition.toJson`: the object of a definition.
-/

namespace TypedWorkflow

/-- A workflow that has been accepted at every level. -/
structure Definition where
  nodes : List (NodeEntry Definition)
  links : List Link
  testInputs : List Json.Entries

instance : Inhabited Definition := ⟨⟨[], [], []⟩⟩

namespace Definition

/-- A node of a definition, which may own a definition. -/
abbrev Node := NodeEntry Definition

/-- The first node with the given id. -/
def node? (d : Definition) (id : String) : Option Node :=
  d.nodes.find? fun n => n.id == id

/-- The owned definitions with the ids of their owners, in node order. -/
def subworkflows (d : Definition) : List (String × Definition) :=
  d.nodes.filterMap fun n => n.subworkflow.map fun s => (n.id, s)

/-! ## From workflows and back -/

mutual

/-- The definition that an accepted workflow becomes. -/
def ofValidated : Workflow → Definition
  | ⟨nodes, links, inputs⟩ => ⟨ofValidatedNodes nodes, links, inputs⟩

/-- The nodes that the nodes of an accepted workflow become. -/
def ofValidatedNodes : List (NodeEntry Workflow) → List (NodeEntry Definition)
  | [] => []
  | ⟨id, parent, title, type, config, coordinates, owned⟩ :: rest =>
    ⟨id, parent, title, type, config, coordinates, ofValidatedOwned owned⟩ :: ofValidatedNodes rest

/-- The definition that an owned workflow becomes. -/
def ofValidatedOwned : Option Workflow → Option Definition
  | none => none
  | some w => some (ofValidated w)

end

mutual

/-- The workflow that a definition goes back to. -/
def workflow : Definition → Workflow
  | ⟨nodes, links, inputs⟩ => ⟨workflowNodes nodes, links, inputs⟩

/-- The nodes that the nodes of a definition go back to. -/
def workflowNodes : List (NodeEntry Definition) → List (NodeEntry Workflow)
  | [] => []
  | ⟨id, parent, title, type, config, coordinates, owned⟩ :: rest =>
    ⟨id, parent, title, type, config, coordinates, workflowOwned owned⟩ :: workflowNodes rest

/-- The workflow that an owned definition goes back to. -/
def workflowOwned : Option Definition → Option Workflow
  | none => none
  | some d => some d.workflow

end

/-! ## Writing -/

mutual

/-- The object of a definition. -/
def toJson : Definition → Json
  | ⟨nodes, links, inputs⟩ =>
    .obj [("nodes", .arr (nodesToJson nodes)), ("links", .arr (links.map Link.toJson)),
      ("test_inputs", .arr (inputs.map .obj))]

/-- The objects of the nodes of a definition. -/
def nodesToJson : List (NodeEntry Definition) → List Json
  | [] => []
  | ⟨id, parent, title, type, config, coordinates, owned⟩ :: rest =>
    nodeJson id parent title type config coordinates (ownedToJson owned) :: nodesToJson rest

/-- The object of an owned definition. -/
def ownedToJson : Option Definition → Option Json
  | none => none
  | some d => some d.toJson

end

/-- The object of a node of a definition. -/
def nodeToJson (n : Node) : Json :=
  nodeJson n.id n.parentId n.title n.nodeType n.config n.coordinates (n.subworkflow.map toJson)

end Definition

end TypedWorkflow
