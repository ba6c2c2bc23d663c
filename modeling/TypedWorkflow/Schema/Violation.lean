import TypedWorkflow.Json.Basic
import TypedWorkflow.Schema.Token

/-!
# Violations

What is wrong with a value that is not of a record type: one violation for each position that
fails, named by its path from the value.

## Main definitions

* `Path`: positions inside a value.
* `FieldViolation`, `ValidationError`: what is wrong at a position, and all that is wrong.
-/

namespace TypedWorkflow

/-- The path of a position: field names and keys joined by dots, indices in brackets. The empty
path is the value itself. -/
abbrev Path := String

namespace Path

/-- The path of a field or key. -/
def field (path : Path) (name : String) : Path :=
  if path.isEmpty then name else path ++ "." ++ name

/-- The path of an item of an array. -/
def index (path : Path) (i : Nat) : Path :=
  path ++ "[" ++ toString i ++ "]"

end Path

/-- What is wrong at a position. -/
inductive ViolationKind where
  | missing
  | typeMismatch (expected : String) (found : Json.Kind)
  | notAnObject (found : Json.Kind)
  | invalidKey (expected : String)
  deriving DecidableEq

/-- The text of a kind of violation. -/
def ViolationKind.message : ViolationKind → String
  | .missing => "field required"
  | .typeMismatch expected found => s!"expected {expected}, found {found.name}"
  | .notAnObject found => s!"expected an object, found {found.name}"
  | .invalidKey expected => s!"key is not a valid {expected}"

/-- What is wrong, and where. -/
structure FieldViolation where
  path : Path
  kind : ViolationKind
  deriving DecidableEq

/-- The text of a violation; the empty path shows as the root. -/
def FieldViolation.message (v : FieldViolation) : String :=
  (if v.path.isEmpty then "<root>" else v.path) ++ ": " ++ v.kind.message

/-- All that is wrong with a value, given the name of the record type it should have. -/
structure ValidationError where
  record : String
  violations : List FieldViolation
  deriving DecidableEq

namespace ValidationError

/-- The text of an error: how many violations there are, and each of them. -/
def message (e : ValidationError) : String :=
  let count := e.violations.length
  let noun := if count = 1 then "error" else "errors"
  "; ".intercalate (s!"{count} validation {noun} for {e.record}" ::
    e.violations.map FieldViolation.message)

/-- Whether a violation has exactly the given path. -/
def hasViolationAt (e : ValidationError) (path : Path) : Bool :=
  e.violations.any fun v => v.path == path

end ValidationError

end TypedWorkflow
