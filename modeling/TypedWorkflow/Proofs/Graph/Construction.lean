import TypedWorkflow.CommandLine.Report
import TypedWorkflow.Proofs.Graph.Instantiation

/-!
# The construction of a level

The nodes of a level are constructed through the standard catalog, in topological order. Either a
node fails, or the instances are found by the ids of their nodes, whatever the order was, and a link
is checked if both its ends are among them.

## Main definitions

* `Definition.Constructs`: the levels whose graph and nodes can be built.
* `Definition.instance?`, `Definition.mismatch?`: the instance of a node, and what is wrong with a
  link.
* `Definition.Validated.construction_cases`: how the construction of a level ends.
-/

namespace TypedWorkflow

namespace Definition

/-- The graph of the level and its nodes can be built. -/
def Constructs (d : Definition) : Prop :=
  (∃ g, WorkflowGraph.make d = .ok g) ∧ ∀ n ∈ d.nodes, ∀ e, ¬ n.Fails .standard none e

/-- The instance of the node with an id. -/
def instance? (d : Definition) (id : String) : Option NodeInstance := do
  let n ← d.node? id
  (n.created .standard none).toOption

/-- What is wrong with a link, if both its ends have instances. -/
def mismatch? (d : Definition) (l : Link) : Option LinkMismatch := do
  let source ← d.instance? l.sourceId
  let target ← d.instance? l.targetId
  let reason ← WorkflowGraph.mismatch? l source.models.output target.models.input
  return ⟨l, reason⟩

variable {d : Definition}

theorem Validated.instance?_eq_some_iff (hd : d.Validated) {id : String} {i : NodeInstance} :
    d.instance? id = some i ↔ ∃ n ∈ d.nodes, n.id = id ∧ n.created .standard none = .ok i := by
  have hok (n : Node) :
      (n.created .standard none).toOption = some i ↔ n.created .standard none = .ok i := by
    cases n.created .standard none <;> simp [Except.toOption]
  rw [instance?]
  constructor
  · intro h
    obtain ⟨n, hn, hi⟩ := Option.bind_eq_some_iff.1 h
    exact ⟨n, List.mem_of_find?_eq_some hn, id_of_node?_eq_some hn, (hok n).1 hi⟩
  · rintro ⟨n, hn, rfl, hi⟩
    exact Option.bind_eq_some_iff.2 ⟨n, hd.node?_of_mem hn, (hok n).2 hi⟩

/-- Whatever the order of the nodes, their instances are those of the level. -/
theorem Validated.lookup_createdInstances (hd : d.Validated) {nodes : List Node}
    (h : nodes.Perm d.nodes) (id : String) :
    (WorkflowGraph.createdInstances .standard none nodes).lookup id = d.instance? id := by
  have hnodup : (nodes.map NodeEntry.id).Nodup :=
    (h.map NodeEntry.id).nodup_iff.2 hd.nodup_nodeIds
  refine Option.ext fun i => ?_
  rw [WorkflowGraph.lookup_createdInstances_iff hnodup, hd.instance?_eq_some_iff]
  simp only [h.mem_iff]

theorem Validated.linkMismatch?_createdInstances (hd : d.Validated) {nodes : List Node}
    (h : nodes.Perm d.nodes) :
    WorkflowGraph.linkMismatch? (WorkflowGraph.createdInstances .standard none nodes) =
      d.mismatch? := by
  funext l
  rw [WorkflowGraph.linkMismatch?, mismatch?, hd.lookup_createdInstances h,
    hd.lookup_createdInstances h]
  cases d.instance? l.sourceId with
  | none => rfl
  | some source =>
    cases d.instance? l.targetId with
    | none => rfl
    | some target =>
      cases hreason : WorkflowGraph.mismatch? l source.models.output target.models.input <;>
        simp [hreason]

/-- The construction of a level ends with a node on a cycle, with the first node that fails, or with
all nodes built that can be. -/
theorem Validated.construction_cases (hd : d.Validated) :
    (∃ id, WorkflowGraph.make d = .error (.cycle id) ∧ d.OnCycle id) ∨
    (∃ g before n after e, WorkflowGraph.make d = .ok g ∧ g.nodes = before ++ n :: after ∧
      (∀ m ∈ before, ∀ e, ¬ m.Fails .standard none e) ∧ n.Fails .standard none e) ∨
    d.Constructs := by
  rcases WorkflowGraph.make_cases hd with ⟨g, hg, -⟩ | ⟨id, -, hcycle, herror⟩
  · obtain ⟨-, -, hperm⟩ := hd.nodes_of_make hg
    rcases WorkflowGraph.exists_first_failure .standard none g.nodes with
      hall | ⟨before, n, after, e, horder, hbefore, hn⟩
    · exact .inr (.inr ⟨⟨g, hg⟩, fun n hn => hall n (hperm.mem_iff.2 hn)⟩)
    · exact .inr (.inl ⟨g, before, n, after, e, hg, horder, hbefore, hn⟩)
  · exact .inl ⟨id, herror, hcycle⟩

end Definition

end TypedWorkflow
