import TypedWorkflow.Graph.Basic

/-!
# Reports on workflow texts

A workflow text is checked as a definition and, if asked for, by constructing the nodes of all its
levels: links must fit the constructed nodes, and the input node must accept the test inputs.

## Main definitions

* `Report`: the outcome of a check.
* `Report.ofText`: checks a text.
* `Report.render`: the lines of a report.
-/

namespace TypedWorkflow

/-- The outcome of a check: the size of the workflow, how many nodes could be constructed if that
was asked for, and all problems. -/
structure Report where
  nodes : Nat
  links : Nat
  instantiated : Option Nat
  problems : List String
  deriving DecidableEq

namespace Report

/-- The report of problems that leave nothing else to say. -/
def failed (problems : List String) : Report :=
  ⟨0, 0, none, problems⟩

/-- Whether there are no problems. -/
def isValid (r : Report) : Bool :=
  r.problems.isEmpty

/-! ## Constructing levels -/

/-- What the construction of levels has given: how many nodes, and the problems. -/
structure Construction where
  count : Nat
  problems : List String

/-- What two constructions have given. -/
def Construction.append (a b : Construction) : Construction :=
  ⟨a.count + b.count, a.problems ++ b.problems⟩

/-- The constructed nodes of a level, if all of them could be. -/
def instancesOf (d : Definition) : Except WorkflowError (WorkflowGraph × NodeInstances) := do
  let g ← WorkflowGraph.make d
  return (g, ← g.instantiate .standard none)

/-- The problems of links with constructed nodes. -/
def linkProblems (g : WorkflowGraph) (instances : NodeInstances) : List String :=
  match g.checkLinks instances with
  | .ok () => []
  | .error (.linkMismatch mismatches) => mismatches.map LinkMismatch.message
  | .error e => [e.message]

/-- What the construction of one level gives: a cycle or the first error of a node, else the links
that do not fit. -/
def constructLevel (location : Location) (d : Definition) : Construction :=
  match instancesOf d with
  | .error e => ⟨0, [location.describe e.message]⟩
  | .ok (g, instances) =>
    ⟨instances.length, (linkProblems g instances).map location.describe⟩

/-- The problems of test inputs, passed to a node one after the other. -/
def inputProblems (node : NodeInstance) (index : Nat) : List Json.Entries → List String
  | [] => []
  | input :: rest =>
    let (result, node) := node.invoke (.value (.obj input))
    match result with
    | .ok _ => inputProblems node (index + 1) rest
    | .error e => s!"test input {index}: {e.message}" :: inputProblems node (index + 1) rest

/-- The problems of the test inputs of a level, if its nodes could be constructed. -/
def testInputProblems (d : Definition) : List String :=
  match instancesOf d, (d.workflow.roots ValidatorConfig.standard.inputType).head? with
  | .ok (_, instances), some entry =>
    match instances.lookup entry.id with
    | some node => inputProblems node 0 d.workflow.testInputs
    | none => []
  | _, _ => []

mutual

/-- What the construction of the levels inside a level gives, outer levels first. -/
def constructInside (location : Location) : Definition → Construction
  | ⟨nodes, _, _⟩ => constructOwned location nodes

/-- What the construction of the levels that nodes own gives. -/
def constructOwned (location : Location) : List (NodeEntry Definition) → Construction
  | [] => ⟨0, []⟩
  | ⟨_, _, _, _, _, _, none⟩ :: rest => constructOwned location rest
  | ⟨id, _, _, _, _, _, some d⟩ :: rest =>
    let inner := location ++ [id]
    (constructLevel inner d).append
      ((constructInside inner d).append (constructOwned location rest))

end

/-! ## Checking -/

/-- The report on a definition. -/
def ofDefinition (instantiate : Bool) (d : Definition) : Report :=
  if instantiate then
    let top := constructLevel [] d
    let inside := constructInside [] d
    ⟨d.nodes.length, d.links.length, some (top.count + inside.count),
      top.problems ++ testInputProblems d ++ inside.problems⟩
  else ⟨d.nodes.length, d.links.length, none, []⟩

/-- The report on a text. -/
def ofText (instantiate : Bool) (text : String) : Report :=
  match Definition.ofText text with
  | .ok d => ofDefinition instantiate d
  | .error (.brokenRules violations) => failed (violations.map RuleViolation.message)
  | .error e => failed [e.message]

/-! ## Rendering -/

/-- The lines of a report on a file. -/
def render (r : Report) (name : String) : String :=
  if r.isValid then
    let instantiated := match r.instantiated with
      | some n => s!", {n} instantiated"
      | none => ""
    s!"ok   {name} ({r.nodes} nodes, {r.links} links{instantiated})\n"
  else
    s!"FAIL {name}\n" ++ String.join (r.problems.map fun p => s!"  - {p}\n")

end Report

end TypedWorkflow
