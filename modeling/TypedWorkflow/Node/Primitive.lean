import TypedWorkflow.Node.Instance

/-!
# Primitive nodes

The nodes that move values into, through and out of a workflow: an input node and an output node,
which return their input, and a node of constant values.

## Main definitions

* `Primitive.inputNode`, `Primitive.outputNode`, `Primitive.staticValueNode`: the three kinds.
-/

namespace TypedWorkflow.Primitive

/-! ## Input and output -/

/-- The one schema of a node that returns its input. The config declares it for the given side and
not for the other. -/
def mirroredSchema (side : Side) (config : NodeConfig) : Except ConfigFault Schema :=
  if (config.schema? side.other).isSome then .error (.sideDerived side.other)
  else match config.schema? side with
    | some s => .ok s
    | none => .error (.schemaRequired side)

/-- Reads a required entry of a config. -/
def decodeEntry {α : Type} (typeName key : String) (decode : Document → Decoded α) (d : Document) :
    Decoded (Option α) :=
  Decode.record ⟨typeName, [key], [key]⟩ .value (fun _ d _ => (decode d).map some) none d

/-- Reads the schema of a side as an entry of a config. -/
def decodeSchema (typeName : String) (side : Side) (config : Json) : Decoded Schema := do
  return (← decodeEntry typeName side.key Schema.decode (.ofJson config)).getD .empty

/-- The kind of a node that returns its input. -/
def mirror (name typeName : String) (side : Side) : NodeKind where
  name := name
  variant := .dynamic
  setup config := do
    let schema ← NodeInstance.ofConfig name (mirroredSchema side config)
    return .make name schema schema
  decode config := do
    let _ ← decodeSchema typeName side config
    return fun _ input => .ok (.record input)

/-- The entry of a workflow. -/
def inputNode : NodeKind :=
  mirror "input_node" "InputNodeConfig" .input

/-- The exit of a workflow. -/
def outputNode : NodeKind :=
  mirror "output_node" "OutputNodeConfig" .output

/-! ## Constant values -/

/-- The config key of the values. -/
def valuesKey : String := "values"

/-- The values that a config declares. The schemas follow from them. -/
def staticValues (config : NodeConfig) : Except ConfigFault Json.Entries :=
  if config.inputSchema.isSome || config.outputSchema.isSome then .error .schemasInferred
  else match config.get? valuesKey with
    | some (.obj values) => .ok values
    | some _ => .error .valuesNotObject
    | none => .error .valuesRequired

/-- Reads the values of a config. -/
def decodeValues (config : Json) : Decoded Json.Entries := do
  return (← decodeEntry "StaticValueNodeConfig" valuesKey Decode.object (.ofJson config)).getD []

/-- A node that returns the values of its config. -/
def staticValueNode : NodeKind where
  name := "static_value_node"
  variant := .fixedInputDynamicOutput
  setup config := do
    let values ← NodeInstance.ofConfig "static_value_node" (staticValues config)
    return ⟨.empty (Side.input.recordName "static_value_node"),
      .infer (Side.output.recordName "static_value_node") values⟩
  decode config := do
    let values ← decodeValues config
    return fun _ _ => .ok (.value (.obj values))

end TypedWorkflow.Primitive
