import TypedWorkflow.Graph.Mismatch
import TypedWorkflow.Node.Variant
import TypedWorkflow.Schema.Error
import TypedWorkflow.Schema.Violation
import TypedWorkflow.Workflow.Rule

/-!
# Errors of workflows

Everything that can go wrong with nodes, catalogs and workflows, by cause.

## Main definitions

* `ConfigFault`: what is wrong with the config of a node.
* `TagFault`, `CatalogProblem`: what is wrong with a visual tag and with a catalog.
* `WorkflowError`: all errors, with their texts in `WorkflowError.message`.
-/

namespace TypedWorkflow

/-! ## Causes -/

/-- What is wrong with the config of a node. -/
inductive ConfigFault where
  | notAnObject (found : Json.Kind)
  | badSchema (side : Side) (error : SchemaError)
  /-- A schema is configured that the implementation fixes. -/
  | sideFixed (side : Side) (variant : SchemaVariant)
  | schemaRequired (side : Side)
  /-- A schema is configured that is the same as that of the other side. -/
  | sideDerived (side : Side)
  | schemasInferred
  | valuesNotObject
  | valuesRequired
  | undecodable (error : DecodeError)

/-- The name of a kind of values with its article. -/
def Json.Kind.withArticle : Json.Kind → String
  | .null => "null"
  | .boolean => "a boolean"
  | .number => "a number"
  | .string => "a string"
  | .array => "an array"
  | .object => "an object"

/-- The text of a fault. -/
def ConfigFault.message : ConfigFault → String
  | .notAnObject found => s!"config must be an object, found {found.withArticle}"
  | .badSchema side e => s!"{side.key}: {e.message}"
  | .sideFixed side variant =>
    s!"{side.key} is fixed for {variant.name} nodes and cannot be configured"
  | .schemaRequired side => s!"{side.key} is required"
  | .sideDerived side => s!"{side.key} is derived from {side.other.key} and cannot be configured"
  | .schemasInferred => "schemas are inferred from values and cannot be configured"
  | .valuesNotObject => "values must be an object"
  | .valuesRequired => "values is required"
  | .undecodable e => e.message

/-- What is wrong with a visual tag. -/
inductive TagFault where
  | acronymBlank
  | notHexColor (color : String)
  deriving DecidableEq

/-- The text of a fault. -/
def TagFault.message : TagFault → String
  | .acronymBlank => "acronym is empty"
  | .notHexColor color => s!"`{color}` is not a hex color"

/-- What is wrong with the entries of a catalog. -/
inductive CatalogProblem where
  | loaderForUnknown (name : String)
  | duplicate (name : String)
  | unknownReplacement (name replacement : String)
  deriving DecidableEq

/-- The text of a problem. -/
def CatalogProblem.message : CatalogProblem → String
  | .loaderForUnknown name => s!"loader registered for unknown node type {name}"
  | .duplicate name => s!"duplicate node type {name}"
  | .unknownReplacement name replacement =>
    s!"deprecated node type {name} names unknown replacement {replacement}"

/-! ## Errors -/

/-- What can go wrong with nodes, catalogs and workflows. -/
inductive WorkflowError where
  | configShape (node : String) (fault : ConfigFault)
  /-- A node fixes a side without declaring fields for it. -/
  | schemaDefinition (node : String) (side : Side)
  | inputValidation (node : String) (source : ValidationError)
  | outputValidation (node : String) (source : ValidationError)
  | nodeFailed (node : String) (reason : String)
  | brokenRules (violations : List RuleViolation)
  | unknownNodeType (name : String)
  | nodeUnavailable (name : String)
  | invalidCatalog (problems : List CatalogProblem)
  | invalidVisualTag (fault : TagFault)
  | cycle (id : String)
  | linkMismatch (mismatches : List LinkMismatch)
  | schema (error : SchemaError)
  | serialization (error : DecodeError)

namespace WorkflowError

/-- The text of an error. -/
def message : WorkflowError → String
  | configShape node fault => s!"invalid config for node {node}: {fault.message}"
  | schemaDefinition node side =>
    s!"node {node} must declare a non-empty fixed {side.name} schema"
  | inputValidation node source => s!"invalid input for node {node}: {source.message}"
  | outputValidation node source => s!"invalid output from node {node}: {source.message}"
  | nodeFailed node reason => s!"node {node} failed: {reason}"
  | brokenRules violations => RuleViolation.summary violations
  | unknownNodeType name => s!"unknown node type: {name}"
  | nodeUnavailable name => s!"no loader registered for node type {name}"
  | invalidCatalog problems =>
    "invalid node catalog: " ++ "; ".intercalate (problems.map CatalogProblem.message)
  | invalidVisualTag fault => s!"invalid visual tag: {fault.message}"
  | cycle id => s!"workflow links form a cycle through node {id}"
  | linkMismatch mismatches =>
    s!"{mismatches.length} incompatible link(s): " ++
      "; ".intercalate (mismatches.map LinkMismatch.message)
  | schema e => e.message
  | serialization e => s!"serialization error: {e.message}"

/-- The name of the node that an error is about, if it is about one. -/
def node? : WorkflowError → Option String
  | configShape node _ | schemaDefinition node _ | inputValidation node _
  | outputValidation node _ | nodeFailed node _ => some node
  | _ => none

end WorkflowError

end TypedWorkflow
