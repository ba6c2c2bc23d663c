/-!
# Structural rules of workflows

What the levels of a workflow must satisfy, as the ways in which they can fail.

## Main definitions

* `Rule`: a broken rule.
* `RuleViolation`: a broken rule with the level that breaks it.
-/

namespace TypedWorkflow

/-- A broken rule of a level. -/
inductive Rule where
  | duplicateNodeId (id : String)
  | inputNodeCount (nodeType : String) (found : Nat)
  | outputNodeCount (nodeType : String) (found : Nat)
  | unknownNodeType (id nodeType : String)
  | selfParent (id : String)
  | danglingParent (id parentId : String)
  | danglingLink (sourceId targetId missing : String)
  | maxDepthExceeded (maxDepth : Nat)
  deriving DecidableEq

/-- The text of a broken rule. -/
def Rule.message : Rule → String
  | .duplicateNodeId id => s!"node id `{id}` is not unique"
  | .inputNodeCount type found =>
    s!"workflow must have exactly one input node of type {type}, found {found}"
  | .outputNodeCount type found =>
    s!"workflow must have at most one output node of type {type}, found {found}"
  | .unknownNodeType id type => s!"node `{id}` has unknown node type `{type}`"
  | .selfParent id => s!"node `{id}` is its own parent"
  | .danglingParent id parent => s!"node `{id}` has missing parent `{parent}`"
  | .danglingLink source target missing =>
    s!"link `{source}` -> `{target}` references missing node `{missing}`"
  | .maxDepthExceeded depth => s!"subworkflow nesting exceeds the maximum depth of {depth}"

/-- The chain of nodes that own a level, from the outermost; empty for the whole workflow. -/
abbrev Location := List String

/-- The text of a message about a level; nothing is added about the whole workflow. -/
def Location.describe (location : Location) (message : String) : String :=
  if location.isEmpty then message else "in " ++ " > ".intercalate location ++ ": " ++ message

/-- A broken rule, and the level that breaks it. -/
structure RuleViolation where
  location : Location
  rule : Rule
  deriving DecidableEq

namespace RuleViolation

/-- The text of a violation. -/
def message (v : RuleViolation) : String :=
  v.location.describe v.rule.message

/-- The text of all violations of a workflow. -/
def summary (vs : List RuleViolation) : String :=
  let count := vs.length
  let noun := if count = 1 then "rule" else "rules"
  "; ".intercalate (s!"workflow definition breaks {count} structural {noun}" ::
    vs.map RuleViolation.message)

/-- The rules broken at a level. -/
def rulesAt (vs : List RuleViolation) (location : Location) : List Rule :=
  (vs.filter fun v => v.location == location).map RuleViolation.rule

end RuleViolation

end TypedWorkflow
