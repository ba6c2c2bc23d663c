import TypedWorkflow.Error
import TypedWorkflow.Schema.Record

/-!
# Node configs and models

A node is configured by an object, in which two keys declare schemas. From them and from the
schemas that the implementation fixes come the two record types of the node, as its schema variant
says.

## Main definitions

* `NodeConfig`, `NodeConfig.ofJson`: a config, its schemas read.
* `NodeModels`: the record types of a node's inputs and outputs.
* `SchemaVariant.setup`: the models that a variant gives.
-/

namespace TypedWorkflow

/-- The config of a node: the declared schemas, and all other entries. -/
structure NodeConfig where
  inputSchema : Option Schema
  outputSchema : Option Schema
  values : Json.Entries

namespace NodeConfig

/-- The config that declares nothing. -/
def empty : NodeConfig := ⟨none, none, []⟩

/-- The value of an entry other than the schemas. -/
def get? (c : NodeConfig) (key : String) : Option Json :=
  c.values.lookup key

/-- The schema declared for a side. -/
def schema? (c : NodeConfig) : Side → Option Schema
  | .input => c.inputSchema
  | .output => c.outputSchema

/-- The schema under the key of a side. -/
def readSchema (side : Side) (v : Json) : Except ConfigFault Schema :=
  match Schema.ofJson v with
  | .ok s => .ok s
  | .error e => .error (.badSchema side e)

/-- Adds the entries of an object in order. -/
def addEntries (c : NodeConfig) : Json.Entries → Except ConfigFault NodeConfig
  | [] => .ok c
  | (key, v) :: rest =>
    if key = Side.input.key then do
      let s ← readSchema .input v
      addEntries { c with inputSchema := some s } rest
    else if key = Side.output.key then do
      let s ← readSchema .output v
      addEntries { c with outputSchema := some s } rest
    else addEntries { c with values := c.values ++ [(key, v)] } rest

/-- The config that a value denotes; `null` declares nothing. -/
def ofJson : Json → Except ConfigFault NodeConfig
  | .null => .ok empty
  | .obj entries => empty.addEntries entries
  | v => .error (.notAnObject v.kind)

end NodeConfig

/-- The name of the record type of a side of a node. -/
def Side.recordName (side : Side) (node : String) : String :=
  node ++ "." ++ side.name

/-- The record types of a node's inputs and outputs. -/
structure NodeModels where
  input : RecordType
  output : RecordType

/-- The models of a node with the given schemas. -/
def NodeModels.make (node : String) (input output : Schema) : NodeModels :=
  ⟨⟨Side.input.recordName node, input⟩, ⟨Side.output.recordName node, output⟩⟩

/-- The schemas that an implementation fixes. -/
structure FixedSchemas where
  input : Option Schema
  output : Option Schema

namespace FixedSchemas

/-- No schema is fixed. -/
def none : FixedSchemas := ⟨.none, .none⟩

/-- The schema fixed for a side. -/
def schema? (f : FixedSchemas) : Side → Option Schema
  | .input => f.input
  | .output => f.output

end FixedSchemas

namespace SchemaVariant

/-- Whether a config may be given to a node of a variant: it declares no side that is fixed, and
where the output alone is dynamic it declares that. -/
def checkConfig (variant : SchemaVariant) (config : NodeConfig) : Except ConfigFault Unit :=
  let declaresFixed (side : Side) : Bool :=
    !variant.isDynamic side && (config.schema? side).isSome
  if declaresFixed .input then .error (.sideFixed .input variant)
  else if declaresFixed .output then .error (.sideFixed .output variant)
  else if variant = .fixedInputDynamicOutput ∧ config.outputSchema.isNone then
    .error (.schemaRequired .output)
  else .ok ()

/-- The schema of a dynamic side that the config does not declare. -/
def defaultSchema (variant : SchemaVariant) : Side → Schema
  | .input => .single (if variant = .dynamic then "input_field_1" else "input_1") .str
  | .output => .single "response" .str

/-- The schema of a side: the declared one or a default if the side is dynamic, else the fixed one,
which must have fields. -/
def sideSchema (variant : SchemaVariant) (node : String) (config : NodeConfig)
    (fixed : FixedSchemas) (side : Side) : Except WorkflowError Schema :=
  if variant.isDynamic side then
    .ok ((config.schema? side).getD (variant.defaultSchema side))
  else
    match fixed.schema? side with
    | some s => if s.isEmpty then .error (.schemaDefinition node side) else .ok s
    | none => .error (.schemaDefinition node side)

/-- The models of a node. -/
def setup (variant : SchemaVariant) (node : String) (config : NodeConfig) (fixed : FixedSchemas) :
    Except WorkflowError NodeModels :=
  match variant.checkConfig config with
  | .error fault => .error (.configShape node fault)
  | .ok () => do
    let input ← variant.sideSchema node config fixed .input
    let output ← variant.sideSchema node config fixed .output
    return .make node input output

end SchemaVariant

end TypedWorkflow
