import TypedWorkflow.Workflow.Basic

/-!
# Mismatched links

Why a link does not connect what it says it connects.
-/

namespace TypedWorkflow

/-- Why a link does not fit the nodes that it connects. -/
inductive MismatchReason where
  | missingOutput (key : String)
  | missingInput (key : String)
  | typeMismatch (output input : String)
  deriving DecidableEq

/-- The text of a reason. -/
def MismatchReason.message : MismatchReason → String
  | .missingOutput key => s!"source output `{key}` is not declared"
  | .missingInput key => s!"target input `{key}` is not declared"
  | .typeMismatch output input => s!"output type `{output}` does not match input type `{input}`"

/-- A link that does not fit, and why. -/
structure LinkMismatch where
  link : Link
  reason : MismatchReason
  deriving DecidableEq

/-- The text of a mismatch. -/
def LinkMismatch.message (m : LinkMismatch) : String :=
  s!"{m.link.sourceId}.{m.link.sourceKey} -> {m.link.targetId}.{m.link.targetKey}: " ++
    m.reason.message

end TypedWorkflow
