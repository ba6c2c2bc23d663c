import TypedWorkflow.Node.Instance

/-!
# Catalogs of node types

A catalog lists the node types that workflows may use, grouped by category. A deprecated name is
still valid and stands for its replacement. A type with a loader can be constructed.

## Main definitions

* `Descriptor`, `DeprecatedType`, `Catalog`: the entries of a catalog.
* `Catalog.isValid`, `Catalog.resolve`: which names are valid, and what they stand for.
* `Catalog.createNode`: constructs a node of a type.
-/

namespace TypedWorkflow

/-- Constructs a node from its config. -/
abbrev NodeLoader := Json → ExecutionContext → Except WorkflowError NodeInstance

/-- Constructs a node of a kind. -/
def NodeKind.loader (kind : NodeKind) : NodeLoader :=
  NodeInstance.construct kind

/-- A node type of a catalog: its name, its category, where its implementation is found, and a
loader if there is one. -/
structure Descriptor where
  typeName : String
  category : String
  moduleName : String
  className : String
  loader : Option NodeLoader

/-- A deprecated name with the node type that stands in for it. -/
structure DeprecatedType where
  descriptor : Descriptor
  replacement : String

/-- The object of a descriptor: its name and where its implementation is found. -/
def Descriptor.toJson (d : Descriptor) : Json :=
  .obj [("type_name", .str d.typeName), ("module_reference", .str d.moduleName),
    ("class_reference", .str d.className)]

/-- The node types by category and by name, and the deprecated names with the requests for them and
with their replacements. The order of `supported` and `aliases` has no meaning: they are only looked
up. -/
structure Catalog where
  groups : List (String × List Descriptor)
  supported : List (String × Descriptor)
  deprecated : List DeprecatedType
  aliases : List (String × String)

namespace Catalog

/-- The descriptors of all categories in order. -/
def descriptors (c : Catalog) : List Descriptor :=
  c.groups.flatMap Prod.snd

/-- The descriptor of a supported name. -/
def find? (c : Catalog) (name : String) : Option Descriptor :=
  c.supported.lookup name

/-- The replacement of a deprecated name. -/
def replacement? (c : Catalog) (name : String) : Option String :=
  c.aliases.lookup name

/-- Whether a name is deprecated. -/
def isDeprecated (c : Catalog) (name : String) : Bool :=
  (c.replacement? name).isSome

/-- Whether a name is supported or deprecated. -/
def isValid (c : Catalog) (name : String) : Bool :=
  (c.find? name).isSome || c.isDeprecated name

/-- The number of supported types. -/
def size (c : Catalog) : Nat :=
  c.supported.length

/-- The descriptor that a name stands for: its own, or that of its replacement. -/
def resolve (c : Catalog) (name : String) : Except WorkflowError Descriptor :=
  match c.find? name with
  | some d => .ok d
  | none =>
    match c.replacement? name with
    | none => .error (.unknownNodeType name)
    | some replacement =>
      match c.find? replacement with
      | some d => .ok d
      | none => .error (.unknownNodeType replacement)

/-- Constructs a node of the type that a name stands for. -/
def createNode (c : Catalog) (name : String) (config : Json) (context : ExecutionContext) :
    Except WorkflowError NodeInstance := do
  let d ← c.resolve name
  match d.loader with
  | some load => load config context
  | none => .error (.nodeUnavailable d.typeName)

/-! ## Listing -/

/-- The categories in order. -/
def categories (c : Catalog) : List String :=
  c.groups.map Prod.fst

/-- The descriptors of a category. -/
def category? (c : Catalog) (name : String) : Option (List Descriptor) :=
  c.groups.lookup name

/-- The object of categories with the descriptors of each. -/
def toJson (c : Catalog) : Json :=
  .obj (c.groups.map fun (category, ds) => (category, .arr (ds.map Descriptor.toJson)))

end Catalog

end TypedWorkflow
