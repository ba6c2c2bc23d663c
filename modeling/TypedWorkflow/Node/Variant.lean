import TypedWorkflow.Decoding

/-!
# Schema variants

The input and the output schema of a node are each either fixed by the implementation or declared
in the node's config. The four combinations are the schema variants.

## Main definitions

* `Side`: input and output.
* `SchemaVariant`, `SchemaVariant.isDynamic`: the variants, and which sides a config may declare.
* `SchemaVariant.decode`: a variant from its name.
-/

namespace TypedWorkflow

/-- The two sides of a node. -/
inductive Side where
  | input
  | output
  deriving DecidableEq

namespace Side

/-- The name of a side. -/
def name : Side → String
  | .input => "input"
  | .output => "output"

/-- The config key under which a schema for a side is declared. -/
def key (side : Side) : String :=
  side.name ++ "_schema"

/-- The opposite side. -/
def other : Side → Side
  | .input => .output
  | .output => .input

end Side

/-- Which of a node's schemas the implementation fixes. -/
inductive SchemaVariant where
  | dynamic
  | dynamicInputFixedOutput
  | fixedInputDynamicOutput
  | fixed
  deriving DecidableEq

namespace SchemaVariant

/-- The variants in order. -/
def all : List SchemaVariant :=
  [.dynamic, .dynamicInputFixedOutput, .fixedInputDynamicOutput, .fixed]

/-- The name of a variant. -/
def name : SchemaVariant → String
  | .dynamic => "dynamic"
  | .dynamicInputFixedOutput => "dynamic_input_fixed_output"
  | .fixedInputDynamicOutput => "fixed_input_dynamic_output"
  | .fixed => "fixed"

/-- Whether the config declares the schema of a side. -/
def isDynamic : SchemaVariant → Side → Bool
  | .dynamic, _ => true
  | .dynamicInputFixedOutput, side => side == .input
  | .fixedInputDynamicOutput, side => side == .output
  | .fixed, _ => false

/-- The variant with the given name. -/
def ofName (name : String) : Decoded SchemaVariant :=
  match all.find? fun v => v.name == name with
  | some v => .ok v
  | none => .error (.unknownVariant name (all.map SchemaVariant.name))

/-- Decodes a variant: a string, or an object with the name as its one key and nothing under
it. -/
def decode : Document → Decoded SchemaVariant
  | .str name => ofName name
  | .obj [(name, d)] none => do
    let v ← ofName name
    match d with
    | .null => return v
    | d => Decode.mismatch "unit" d
  | .obj _ _ => .error (.wrongValue .object "map with a single key")
  | d => Decode.mismatch "string or map" d

end SchemaVariant

end TypedWorkflow
