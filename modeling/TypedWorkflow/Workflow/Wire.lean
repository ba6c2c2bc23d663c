import TypedWorkflow.Decoding
import TypedWorkflow.Workflow.Basic

/-!
# The JSON form of workflows

A workflow is written as an object with its nodes, links and test inputs. What a node or link does
not have is left out. Reading takes objects and arrays of fields alike.

## Main definitions

* `Workflow.toJson`: the object of a workflow.
* `Workflow.decode`: a workflow from a document.
-/

namespace TypedWorkflow

/-! ## Writing -/

/-- An entry for what is there, none for what is not. -/
def optionalEntry {α : Type} (key : String) (toJson : α → Json) : Option α → Json.Entries
  | some a => [(key, toJson a)]
  | none => []

/-- The object of coordinates. -/
def Position.toJson (p : Position) : Json :=
  .obj [("x", .num (.float p.x)), ("y", .num (.float p.y))]

/-- The object of a link. -/
def Link.toJson (l : Link) : Json :=
  .obj ([("source_id", .str l.sourceId), ("source_output_key", .str l.sourceKey),
    ("target_id", .str l.targetId), ("target_input_key", .str l.targetKey)] ++
    optionalEntry "condition" .str l.condition)

/-- The object of a node that owns something with the given JSON form. -/
def nodeJson (id : String) (parentId title : Option String) (nodeType : String)
    (config : Json.Entries) (coordinates : Option Position) (subworkflow : Option Json) : Json :=
  .obj (("id", .str id) :: optionalEntry "parent_id" .str parentId ++
    optionalEntry "title" .str title ++
    [("node_type", .str nodeType), ("config", .obj config)] ++
    optionalEntry "coordinates" Position.toJson coordinates ++
    optionalEntry "subworkflow" (fun v => v) subworkflow)

namespace Workflow

mutual

/-- The object of a workflow. -/
def toJson : Workflow → Json
  | ⟨nodes, links, inputs⟩ =>
    .obj [("nodes", .arr (nodesToJson nodes)), ("links", .arr (links.map Link.toJson)),
      ("test_inputs", .arr (inputs.map .obj))]

/-- The objects of nodes. -/
def nodesToJson : List (NodeEntry Workflow) → List Json
  | [] => []
  | ⟨id, parent, title, type, config, coordinates, none⟩ :: rest =>
    nodeJson id parent title type config coordinates none :: nodesToJson rest
  | ⟨id, parent, title, type, config, coordinates, some w⟩ :: rest =>
    nodeJson id parent title type config coordinates (some w.toJson) :: nodesToJson rest

end

end Workflow

/-- The object of a node. -/
def Workflow.nodeToJson (n : Workflow.Node) : Json :=
  nodeJson n.id n.parentId n.title n.nodeType n.config n.coordinates
    (n.subworkflow.map Workflow.toJson)

/-! ## Reading positions and links -/

namespace Position

/-- The fields of coordinates. -/
def fields : Decode.Fields := ⟨"Position", ["x", "y"], ["x", "y"]⟩

/-- Reads a field of coordinates. -/
def readField (name : String) (d : Document) (p : Position) : Decoded Position := do
  let v ← Decode.float d
  return if name = "x" then { p with x := v } else { p with y := v }

/-- Decodes coordinates. -/
def decode (source : Decode.Source) : Document → Decoded Position :=
  Decode.record fields source readField ⟨.zero false, .zero false⟩

end Position

namespace Link

/-- The fields of a link. -/
def fields : Decode.Fields where
  typeName := "WorkflowLink"
  names := ["source_id", "source_output_key", "target_id", "target_input_key", "condition"]
  required := ["source_id", "source_output_key", "target_id", "target_input_key"]

/-- Reads a field of a link. -/
def readField (name : String) (d : Document) (l : Link) : Decoded Link :=
  if name = "source_id" then do return { l with sourceId := ← Decode.string d }
  else if name = "source_output_key" then do return { l with sourceKey := ← Decode.string d }
  else if name = "target_id" then do return { l with targetId := ← Decode.string d }
  else if name = "target_input_key" then do return { l with targetKey := ← Decode.string d }
  else do return { l with condition := ← Decode.optional Decode.string d }

/-- Decodes a link. -/
def decode (source : Decode.Source) : Document → Decoded Link :=
  Decode.record fields source readField ⟨"", "", "", "", none⟩

end Link

/-! ## Reading nodes and workflows -/

namespace NodeEntry

/-- The fields of a node. -/
def fields : Decode.Fields where
  typeName := "WorkflowNode"
  names := ["id", "parent_id", "title", "node_type", "config", "coordinates", "subworkflow"]
  required := ["id", "node_type"]

/-- A node without fields. -/
def blank {α : Type} : NodeEntry α := ⟨"", none, none, "", [], none, none⟩

/-- Reads a field of a node other than the workflow that it owns. -/
def readField {α : Type} (source : Decode.Source) (name : String) (d : Document)
    (n : NodeEntry α) : Decoded (NodeEntry α) :=
  if name = "id" then do return { n with id := ← Decode.string d }
  else if name = "parent_id" then do return { n with parentId := ← Decode.optional Decode.string d }
  else if name = "title" then do return { n with title := ← Decode.optional Decode.string d }
  else if name = "node_type" then do return { n with nodeType := ← Decode.string d }
  else if name = "config" then do return { n with config := ← Decode.object d }
  else do return { n with coordinates := ← Decode.optional (Position.decode source) d }

end NodeEntry

namespace Workflow

/-- The fields of a workflow. -/
def fields : Decode.Fields where
  typeName := "WorkflowDraft"
  names := ["nodes", "links", "test_inputs"]
  required := ["nodes"]

/-- Reads a field of a workflow other than its nodes. -/
def readField (source : Decode.Source) (name : String) (d : Document) (w : Workflow) :
    Decoded Workflow :=
  if name = "links" then do return { w with links := ← Decode.list (Link.decode source) d }
  else do return { w with testInputs := ← Decode.list Decode.object d }

mutual

/-- Decodes a workflow. -/
def decode (source : Decode.Source) : Document → Decoded Workflow
  | .obj es fault => do
    let (seen, w) ← decodeEntries source [] .empty es
    Decode.noFault fault
    fields.complete seen
    return w
  | .arr ds fault => do
    let (w, left, rest) ← decodePositions source fields.names .empty ds
    fields.close source (fields.names.length - left.length) rest fault
    return w
  | .deep _ => .error (.malformed .nestingTooDeep)
  | d => Decode.mismatch fields.expected d

/-- Reads the entries of an object into a workflow. -/
def decodeEntries (source : Decode.Source) (seen : List String) (w : Workflow) :
    List (String × Document) → Decoded (List String × Workflow)
  | [] => .ok (seen, w)
  | (key, d) :: rest => do
    match ← fields.accept seen key with
    | none => decodeEntries source seen w rest
    | some seen =>
      if key = "nodes" then decodeEntries source seen { w with nodes := ← decodeNodes source d } rest
      else decodeEntries source seen (← readField source key d w) rest

/-- Reads the items of an array into a workflow. -/
def decodePositions (source : Decode.Source) (names : List String) (w : Workflow) :
    List Document → Decoded (Workflow × List String × List Document)
  | [] => .ok (w, names, [])
  | d :: ds =>
    match names with
    | [] => .ok (w, [], d :: ds)
    | name :: names => do
      if name = "nodes" then
        decodePositions source names { w with nodes := ← decodeNodes source d } ds
      else decodePositions source names (← readField source name d w) ds

/-- Decodes the nodes of a workflow. -/
def decodeNodes (source : Decode.Source) : Document → Decoded (List (NodeEntry Workflow))
  | .arr ds fault => do
    let ns ← decodeNodeItems source ds
    Decode.noFault fault
    return ns
  | .deep .list => .error (.malformed .nestingTooDeep)
  | d => Decode.mismatch "a sequence" d

/-- Decodes nodes. -/
def decodeNodeItems (source : Decode.Source) :
    List Document → Decoded (List (NodeEntry Workflow))
  | [] => .ok []
  | d :: ds => do return (← decodeNode source d) :: (← decodeNodeItems source ds)

/-- Decodes a node. -/
def decodeNode (source : Decode.Source) : Document → Decoded (NodeEntry Workflow)
  | .obj es fault => do
    let (seen, n) ← decodeNodeEntries source [] .blank es
    Decode.noFault fault
    NodeEntry.fields.complete seen
    return n
  | .arr ds fault => do
    let (n, left, rest) ← decodeNodePositions source NodeEntry.fields.names .blank ds
    NodeEntry.fields.close source (NodeEntry.fields.names.length - left.length) rest fault
    return n
  | .deep _ => .error (.malformed .nestingTooDeep)
  | d => Decode.mismatch NodeEntry.fields.expected d

/-- Reads the entries of an object into a node. -/
def decodeNodeEntries (source : Decode.Source) (seen : List String) (n : NodeEntry Workflow) :
    List (String × Document) → Decoded (List String × NodeEntry Workflow)
  | [] => .ok (seen, n)
  | (key, d) :: rest => do
    match ← NodeEntry.fields.accept seen key with
    | none => decodeNodeEntries source seen n rest
    | some seen =>
      if key = "subworkflow" then do
        let owned ← Decode.unlessNull d (decode source d)
        decodeNodeEntries source seen { n with subworkflow := owned } rest
      else decodeNodeEntries source seen (← NodeEntry.readField source key d n) rest

/-- Reads the items of an array into a node. -/
def decodeNodePositions (source : Decode.Source) (names : List String) (n : NodeEntry Workflow) :
    List Document → Decoded (NodeEntry Workflow × List String × List Document)
  | [] => .ok (n, names, [])
  | d :: ds =>
    match names with
    | [] => .ok (n, [], d :: ds)
    | name :: names => do
      if name = "subworkflow" then do
        let owned ← Decode.unlessNull d (decode source d)
        decodeNodePositions source names { n with subworkflow := owned } ds
      else decodeNodePositions source names (← NodeEntry.readField source name d n) ds

end

end Workflow

end TypedWorkflow
