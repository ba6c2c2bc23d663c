/-!
# Errors of schemas

What can be wrong with the declaration of a type.
-/

namespace TypedWorkflow

/-- What can be wrong with a type token or a schema. -/
inductive SchemaError where
  | unsupportedType (token : String)
  | invalidDict (token : String)
  | duplicateField (name : String)
  | notAnObject
  | tokenNotString (name : String)
  deriving DecidableEq

/-- The text of an error. -/
def SchemaError.message : SchemaError → String
  | .unsupportedType token => s!"unsupported type: {token}"
  | .invalidDict token => s!"invalid dict type specification: {token}"
  | .duplicateField name => s!"duplicate field: {name}"
  | .notAnObject => "invalid schema: expected an object of field names to type tokens"
  | .tokenNotString name => s!"invalid schema: type of field `{name}` must be a string"

end TypedWorkflow
