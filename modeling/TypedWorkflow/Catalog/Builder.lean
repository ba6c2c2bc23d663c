import TypedWorkflow.Catalog.Basic

/-!
# Building catalogs

A catalog is built from registrations, deprecations and loaders in any order. Entries that do not
fit are left out and reported as problems.

## Main definitions

* `CatalogBuilder`, `register`, `addDeprecated`, `withLoader`: what has been asked for.
* `CatalogBuilder.assemble`: the catalog of the entries that fit, and the problems.
* `CatalogBuilder.build`: the catalog if there are no problems.
-/

namespace TypedWorkflow

/-- What a catalog is to hold: descriptors by category, deprecated names, and loaders by type
name. -/
structure CatalogBuilder where
  groups : List (String × List Descriptor)
  deprecated : List DeprecatedType
  loaders : List (String × NodeLoader)

namespace CatalogBuilder

/-- The builder that nothing has been asked of. -/
def empty : CatalogBuilder := ⟨[], [], []⟩

/-! ## Requests -/

/-- Adds a descriptor to the group of its category, which is opened at the end if there is none. -/
def addToGroup (d : Descriptor) :
    List (String × List Descriptor) → List (String × List Descriptor)
  | [] => [(d.category, [d])]
  | (category, ds) :: rest =>
    if category = d.category then (category, ds ++ [d]) :: rest
    else (category, ds) :: addToGroup d rest

/-- Registers a node type. -/
def register (b : CatalogBuilder) (d : Descriptor) : CatalogBuilder :=
  { b with groups := addToGroup d b.groups }

/-- Deprecates a name in favor of a replacement. -/
def addDeprecated (b : CatalogBuilder) (d : Descriptor) (replacement : String) : CatalogBuilder :=
  { b with deprecated := b.deprecated ++ [⟨d, replacement⟩] }

/-- Sets the loader of a node type, which may be registered later. -/
def withLoader (b : CatalogBuilder) (typeName : String) (loader : NodeLoader) : CatalogBuilder :=
  { b with loaders := b.loaders ++ [(typeName, loader)] }

/-! ## Loaders -/

/-- Gives a loader to the first descriptor with a name; `none` if there is none. -/
def setLoaderIn (name : String) (loader : NodeLoader) :
    List Descriptor → Option (List Descriptor)
  | [] => none
  | d :: ds =>
    if d.typeName = name then some ({ d with loader := some loader } :: ds)
    else (setLoaderIn name loader ds).map (d :: ·)

/-- Gives a loader to the first descriptor of all groups with a name; `none` if there is none. -/
def setLoader (name : String) (loader : NodeLoader) :
    List (String × List Descriptor) → Option (List (String × List Descriptor))
  | [] => none
  | (category, ds) :: rest =>
    match setLoaderIn name loader ds with
    | some ds => some ((category, ds) :: rest)
    | none => (setLoader name loader rest).map ((category, ds) :: ·)

/-- Gives loaders to the descriptors that they name, in order. -/
def setLoaders (groups : List (String × List Descriptor)) :
    List (String × NodeLoader) → List (String × List Descriptor) × List CatalogProblem
  | [] => (groups, [])
  | (name, loader) :: rest =>
    match setLoader name loader groups with
    | some groups => setLoaders groups rest
    | none =>
      let (groups, problems) := setLoaders groups rest
      (groups, .loaderForUnknown name :: problems)

/-! ## Supported and deprecated names -/

/-- The descriptors whose names are new, the problems with the others, and all descriptors by name
after them. -/
def keepNew (supported : List (String × Descriptor)) :
    List Descriptor → List Descriptor × List CatalogProblem × List (String × Descriptor)
  | [] => ([], [], supported)
  | d :: ds =>
    if (supported.lookup d.typeName).isSome then
      let (kept, problems, supported) := keepNew supported ds
      (kept, .duplicate d.typeName :: problems, supported)
    else
      let (kept, problems, supported) := keepNew (supported ++ [(d.typeName, d)]) ds
      (d :: kept, problems, supported)

/-- `keepNew` of every group in order. A group stays even if nothing in it is kept. -/
def keepNewGroups (supported : List (String × Descriptor)) :
    List (String × List Descriptor) →
      List (String × List Descriptor) × List CatalogProblem × List (String × Descriptor)
  | [] => ([], [], supported)
  | (category, ds) :: rest =>
    let (kept, problems, supported) := keepNew supported ds
    let (groups, more, supported) := keepNewGroups supported rest
    ((category, kept) :: groups, problems ++ more, supported)

/-- The deprecated names that are new and whose replacements are supported, the problems with the
others, and all replacements by name after them. -/
def keepAliases (supported : List (String × Descriptor)) (aliases : List (String × String)) :
    List DeprecatedType → List DeprecatedType × List CatalogProblem × List (String × String)
  | [] => ([], [], aliases)
  | d :: rest =>
    let name := d.descriptor.typeName
    if (supported.lookup name).isSome || (aliases.lookup name).isSome then
      let (kept, problems, aliases) := keepAliases supported aliases rest
      (kept, .duplicate name :: problems, aliases)
    else if (supported.lookup d.replacement).isNone then
      let (kept, problems, aliases) := keepAliases supported aliases rest
      (kept, .unknownReplacement name d.replacement :: problems, aliases)
    else
      let (kept, problems, aliases) :=
        keepAliases supported (aliases ++ [(name, d.replacement)]) rest
      (d :: kept, problems, aliases)

/-! ## Catalogs -/

/-- The catalog of the entries that fit, and the problems with the others. -/
def assemble (b : CatalogBuilder) : Catalog × List CatalogProblem :=
  let (groups, loaderProblems) := setLoaders b.groups b.loaders
  let (groups, groupProblems, supported) := keepNewGroups [] groups
  let (deprecated, aliasProblems, aliases) := keepAliases supported [] b.deprecated
  (⟨groups, supported, deprecated, aliases⟩, loaderProblems ++ groupProblems ++ aliasProblems)

/-- The catalog, if every entry fits. -/
def build (b : CatalogBuilder) : Except WorkflowError Catalog :=
  let (catalog, problems) := b.assemble
  if problems.isEmpty then .ok catalog else .error (.invalidCatalog problems)

end CatalogBuilder

end TypedWorkflow
