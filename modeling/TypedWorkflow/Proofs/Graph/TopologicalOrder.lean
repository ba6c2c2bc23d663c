import TypedWorkflow.Graph.Basic
import TypedWorkflow.Proofs.Graph.Walk
import TypedWorkflow.Proofs.Workflow.Definition

/-!
# Topological order

The second walk goes against the links, from the nodes in the finishing order. If from a node it
newly reaches another, then this is a source of a link to the node and was finished before it; so
the node leads back to it, and it lies on a cycle. If from every node nothing else is newly
reached, then every link comes from a node that stands earlier, and so the order is topological. A
graph with a topological order has no cycle, which makes the two cases exclusive.

## Main definitions

* `Digraph.order_cases`: there is an order along the links, or the node reported is on a cycle.
* `Definition.Linked`, `Definition.OnCycle`: the links of a level.
* `WorkflowGraph.make_topological`: a level has a graph exactly if its links form no cycle.
-/

namespace TypedWorkflow

namespace Digraph

variable {g : Digraph}

/-! ## Walking against the links -/

theorem reach_cons {reached : List String} {id : String} (hid : id ∉ reached) (fuel : Nat)
    (stack : List String) :
    g.reach (fuel + 1) reached (id :: stack) =
      let next := (g.sourcesOf id).filter fun s => !(id :: reached).contains s
      let (found, all) := g.reach fuel (id :: reached) (next.reverse ++ stack)
      (id :: found, all) := by
  rw [reach, if_neg (by simpa using hid)]

/-- The walk against the links from a node that was not reached before: it reaches nothing else, or
second a source of a link to the node. -/
theorem reach_cases {reached : List String} {id : String} (hid : id ∉ reached) (fuel : Nat) :
    (∀ x, g.Linked x id → x ∈ id :: reached) ∧
        g.reach (fuel + 2) reached [id] = ([id], id :: reached) ∨
      ∃ x more all, g.Linked x id ∧ x ∉ id :: reached ∧
        g.reach (fuel + 2) reached [id] = (id :: x :: more, all) := by
  have hnext (x : String) : x ∈ (g.sourcesOf id).filter (fun s => !(id :: reached).contains s) ↔
      g.Linked x id ∧ x ∉ id :: reached := by
    simp [mem_sourcesOf_iff]
  rw [reach_cons hid]
  generalize (g.sourcesOf id).filter (fun s => !(id :: reached).contains s) = next at hnext
  dsimp only
  rw [List.append_nil]
  cases hstack : next.reverse with
  | nil =>
    rw [List.reverse_eq_nil_iff] at hstack
    refine .inl ⟨?_, rfl⟩
    intro x hlink
    by_contra hx
    simpa [hstack] using (hnext x).2 ⟨hlink, hx⟩
  | cons x rest =>
    have hmem : x ∈ next := by
      rw [← List.mem_reverse, hstack]
      exact List.mem_cons_self ..
    obtain ⟨hlink, hx⟩ := (hnext x).1 hmem
    rw [reach_cons hx]
    exact .inr ⟨x, _, _, hlink, hx, rfl⟩

theorem exists_walkBound_eq {id : String} (hid : id ∈ g.ids) :
    ∃ fuel, g.walkBound = fuel + 2 := by
  have hpos := List.length_pos_of_mem hid
  refine ⟨g.walkBound - 2, ?_⟩
  simp only [walkBound]
  omega

/-- What the walks against the links find, from nodes in an order: no link from a later node to an
earlier one, or the source of such a link. -/
theorem cycleNode?_cases {reached order : List String} (hids : order ⊆ g.ids)
    (hnodup : order.Nodup) (hnew : ∀ id ∈ order, id ∉ reached)
    (hall : ∀ x id, g.Linked x id → x ∈ reached ∨ x ∈ order) :
    (g.cycleNode? reached order = none ∧ order.Pairwise fun a b => ¬ g.Linked b a) ∨
      ∃ id x, [id, x].Sublist order ∧ g.Linked x id ∧ g.cycleNode? reached order = some x := by
  induction order generalizing reached with
  | nil => exact .inl ⟨rfl, .nil⟩
  | cons id order ih =>
    obtain ⟨hid, hrest⟩ := List.nodup_cons.1 hnodup
    have hidnew : id ∉ reached := hnew id (List.mem_cons_self ..)
    obtain ⟨fuel, hfuel⟩ := exists_walkBound_eq (hids (List.mem_cons_self ..))
    rcases reach_cases hidnew fuel with ⟨hsources, hreach⟩ | ⟨x, more, all, hlink, hx, hreach⟩
    · have hstep : g.cycleNode? reached (id :: order) = g.cycleNode? (id :: reached) order := by
        rw [cycleNode?, hfuel, hreach]
      have hnew' : ∀ x ∈ order, x ∉ id :: reached := by
        intro x hx
        have hne : x ≠ id := by
          rintro rfl
          exact hid hx
        simpa [hne] using hnew x (List.mem_cons_of_mem id hx)
      have hall' : ∀ x y, g.Linked x y → x ∈ id :: reached ∨ x ∈ order := by
        intro x y hlink
        rcases hall x y hlink with hx | hx
        · exact .inl (List.mem_cons_of_mem id hx)
        · rcases List.mem_cons.1 hx with rfl | hx
          · exact .inl (List.mem_cons_self ..)
          · exact .inr hx
      rw [hstep]
      rcases ih (List.cons_subset.1 hids).2 hrest hnew' hall' with
        ⟨hnone, hpairwise⟩ | ⟨y, x, hsublist, hlink, hsome⟩
      · refine .inl ⟨hnone, List.pairwise_cons.2 ⟨?_, hpairwise⟩⟩
        intro b hb hlink
        exact hnew' b hb (hsources b hlink)
      · exact .inr ⟨y, x, hsublist.cons id, hlink, hsome⟩
    · have hmem : x ∈ order := by
        have hx' := hall x id hlink
        grind
      refine .inr ⟨id, x, ?_, hlink, ?_⟩
      · exact (List.singleton_sublist.2 hmem).cons_cons id
      · rw [cycleNode?, hfuel, hreach]

/-! ## The order -/

/-- The order lists the ids, and every link leads from an earlier node to a later one. -/
structure Topological (g : Digraph) (order : List String) : Prop where
  perm : order.Perm g.ids
  forward : ∀ a b, g.Linked a b → order.idxOf a < order.idxOf b

/-- Where no link leads backwards, and none from a node to itself, all lead forwards. -/
theorem idxOf_lt_of_linked {order : List String}
    (hmem : ∀ a b, g.Linked a b → a ∈ order ∧ b ∈ order) (hloop : ∀ id ∈ order, ¬ g.Linked id id)
    (hpairwise : order.Pairwise fun a b => ¬ g.Linked b a) {a b : String} (h : g.Linked a b) :
    order.idxOf a < order.idxOf b := by
  obtain ⟨ha, hb⟩ := hmem a b h
  have hai := List.idxOf_lt_length_of_mem ha
  have hbi := List.idxOf_lt_length_of_mem hb
  have hne : order.idxOf a ≠ order.idxOf b := by
    intro heq
    rw [(List.idxOf_inj ha).1 heq] at h
    exact hloop b hb h
  by_contra hlt
  have hback := List.pairwise_iff_getElem.1 hpairwise _ _ hbi hai (by omega)
  rw [List.getElem_idxOf, List.getElem_idxOf] at hback
  exact hback h

/-- Along a sequence of links the places in a topological order increase. -/
theorem Topological.idxOf_lt {order : List String} (h : g.Topological order) {a b : String}
    (hab : Relation.TransGen g.Linked a b) : order.idxOf a < order.idxOf b := by
  induction hab with
  | single hlink => exact h.forward _ _ hlink
  | tail _ hlink ih => exact Nat.lt_trans ih (h.forward _ _ hlink)

theorem Topological.not_onCycle {order : List String} (h : g.Topological order) (id : String) :
    ¬ g.OnCycle id :=
  fun hcycle => Nat.lt_irrefl _ (h.idxOf_lt hcycle)

/-- There is an order of the nodes along the links, or the node that is reported is on a cycle. -/
theorem order_cases (hnodup : g.ids.Nodup) (hg : g.Closed) :
    (∃ order, g.order = .ok order ∧ g.Topological order) ∨
      ∃ id ∈ g.ids, g.OnCycle id ∧ g.order = .error id := by
  rcases walkAll_cases hg with ⟨w, hw, hfinish⟩ | ⟨id, hid, hloop, herror⟩
  · have hmem : ∀ a b, g.Linked a b → a ∈ w.finished ∧ b ∈ w.finished := by
      intro a b hlink
      rw [hfinish.mem_iff, hfinish.mem_iff]
      exact hg.of_linked hlink
    have hsubset : w.finished ⊆ g.ids := fun id hid => (hfinish.mem_iff id).1 hid
    have hunseen : ∀ id ∈ w.finished, id ∉ ([] : List String) := by simp
    rcases cycleNode?_cases hsubset hfinish.nodup hunseen
      (fun a b hlink => .inr (hmem a b hlink).1) with
      ⟨hnone, hpairwise⟩ | ⟨id, x, hsublist, hlink, hsome⟩
    · refine .inl ⟨w.finished, ?_, ?_, ?_⟩
      · rw [order, hw]
        dsimp only [bind, Except.bind]
        rw [hnone]
        rfl
      · exact (List.perm_ext_iff_of_nodup hfinish.nodup hnodup).2 hfinish.mem_iff
      · intro a b hab
        exact idxOf_lt_of_linked hmem hfinish.noLoop hpairwise hab
    · -- the source was finished before the node, which therefore leads back to it
      have hback : g.Reaches id x :=
        List.pairwise_iff_forall_sublist.1 hfinish.reaches_later hsublist hlink
      refine .inr ⟨x, (hg.of_linked hlink).1, .head' hlink hback, ?_⟩
      rw [order, hw]
      dsimp only [bind, Except.bind]
      rw [hsome]
  · refine .inr ⟨id, hid, .single hloop, ?_⟩
    rw [order, herror]
    rfl

end Digraph

/-! ## The links of a level -/

namespace Definition

variable {d : Definition}

/-- A link of the level leads from the first node to the second. -/
def Linked (d : Definition) (a b : String) : Prop :=
  ∃ l ∈ d.links, l.sourceId = a ∧ l.targetId = b

/-- A sequence of links of the level leads from a node back to itself. -/
def OnCycle (d : Definition) (id : String) : Prop :=
  Relation.TransGen d.Linked id id

/-- The graph of a validated level leaves out no link. -/
theorem Validated.digraph_eq (h : d.Validated) :
    d.workflow.digraph = ⟨d.nodes.map NodeEntry.id, d.links⟩ := by
  have hlinks : d.links.filter (fun l => d.workflow.ids.contains l.sourceId &&
      d.workflow.ids.contains l.targetId) = d.links := by
    rw [List.filter_eq_self]
    intro l hl
    simpa using h.mem_ids_of_link hl
  rw [Workflow.digraph, links_workflow, hlinks, ids_workflow]

theorem Validated.nodup_digraph (h : d.Validated) : d.workflow.digraph.ids.Nodup :=
  h.nodup_ids

theorem Validated.closed_digraph (h : d.Validated) : d.workflow.digraph.Closed := by
  rw [h.digraph_eq]
  intro l hl
  rw [← ids_workflow]
  exact h.mem_ids_of_link hl

/-! ## Nodes and their ids -/

theorem id_of_node?_eq_some {id : String} {n : Node} (h : d.node? id = some n) : n.id = id := by
  simpa using List.find?_some h

theorem Validated.node?_of_mem (h : d.Validated) {n : Node} (hn : n ∈ d.nodes) :
    d.node? n.id = some n := by
  cases hfound : d.node? n.id with
  | none =>
    have hall := List.find?_eq_none.1 hfound n hn
    simp at hall
  | some m =>
    have hm : m ∈ d.nodes := List.mem_of_find?_eq_some hfound
    rw [List.inj_on_of_nodup_map h.nodup_nodeIds hm hn (id_of_node?_eq_some hfound)]

/-- Ids in any order are those of the nodes with these ids. -/
theorem Validated.map_filterMap_node? (h : d.Validated) {ids : List String}
    (hids : ids ⊆ d.nodes.map NodeEntry.id) : (ids.filterMap d.node?).map NodeEntry.id = ids := by
  induction ids with
  | nil => rfl
  | cons id ids ih =>
    obtain ⟨hid, hrest⟩ := List.cons_subset.1 hids
    obtain ⟨n, hn, rfl⟩ := List.mem_map.1 hid
    rw [List.filterMap_cons, h.node?_of_mem hn, List.map_cons, ih hrest]

theorem Validated.filterMap_node?_perm (h : d.Validated) {ids : List String}
    (hids : ids.Perm (d.nodes.map NodeEntry.id)) : (ids.filterMap d.node?).Perm d.nodes := by
  have hall : (d.nodes.map NodeEntry.id).filterMap d.node? = d.nodes := by
    rw [List.filterMap_map]
    calc d.nodes.filterMap (d.node? ∘ NodeEntry.id)
      _ = d.nodes.filterMap some := List.filterMap_congr fun n hn => h.node?_of_mem hn
      _ = d.nodes := List.filterMap_some
  exact hall ▸ hids.filterMap d.node?

end Definition

/-! ## Graphs of levels -/

namespace WorkflowGraph

variable {d : Definition}

/-- A validated level has a graph, in the topological order of its links, or the node reported is on
a cycle of them. -/
theorem make_cases (hd : d.Validated) :
    (∃ g, make d = .ok g ∧ g.definition = d ∧ d.workflow.digraph.Topological g.order) ∨
      ∃ id ∈ d.nodes.map NodeEntry.id, d.OnCycle id ∧ make d = .error (.cycle id) := by
  rcases Digraph.order_cases hd.nodup_digraph hd.closed_digraph with
    ⟨order, horder, htopological⟩ | ⟨id, hid, hcycle, horder⟩
  · exact .inl ⟨⟨d, order⟩, by rw [make, horder], rfl, htopological⟩
  · rw [hd.digraph_eq] at hid hcycle
    exact .inr ⟨id, hid, hcycle, by rw [make, horder]⟩

/-- The nodes of a graph, in a topological order of a validated level. -/
theorem nodes_of_topological (hd : d.Validated) {g : WorkflowGraph} (hdefinition : g.definition = d)
    (htopological : d.workflow.digraph.Topological g.order) :
    g.nodes.Perm d.nodes ∧ (g.nodes.map NodeEntry.id).Nodup ∧
      ∀ l ∈ d.links, ∃ i j : Nat, i < j ∧ (g.nodes.map NodeEntry.id)[i]? = some l.sourceId ∧
        (g.nodes.map NodeEntry.id)[j]? = some l.targetId := by
  rw [hd.digraph_eq] at htopological
  have hids : g.nodes.map NodeEntry.id = g.order := by
    rw [nodes, hdefinition]
    exact hd.map_filterMap_node? htopological.perm.subset
  rw [hids]
  refine ⟨?_, ?_, ?_⟩
  · rw [nodes, hdefinition]
    exact hd.filterMap_node?_perm htopological.perm
  · exact htopological.perm.nodup_iff.2 hd.nodup_nodeIds
  · intro l hl
    have hmem := hd.mem_ids_of_link hl
    rw [Definition.ids_workflow, ← htopological.perm.mem_iff, ← htopological.perm.mem_iff] at hmem
    refine ⟨_, _, htopological.forward _ _ ⟨l, hl, rfl, rfl⟩, ?_, ?_⟩
    · exact List.getElem?_idxOf hmem.1
    · exact List.getElem?_idxOf hmem.2

end WorkflowGraph

namespace Definition

variable {d : Definition}

/-- A level with a graph: it is the level of the graph, whose nodes stand in topological order. -/
theorem Validated.nodes_of_make (hd : d.Validated) {g : WorkflowGraph}
    (hg : WorkflowGraph.make d = .ok g) : g.definition = d ∧
      d.workflow.digraph.Topological g.order ∧ g.nodes.Perm d.nodes := by
  rcases WorkflowGraph.make_cases hd with
    ⟨g', hg', hdefinition, htopological⟩ | ⟨id, -, -, herror⟩
  · obtain rfl := Except.ok.inj (hg'.symm.trans hg)
    exact ⟨hdefinition, htopological,
      (WorkflowGraph.nodes_of_topological hd hdefinition htopological).1⟩
  · rw [herror] at hg
    cases hg

theorem Validated.not_onCycle_of_make (hd : d.Validated) {g : WorkflowGraph}
    (hg : WorkflowGraph.make d = .ok g) (id : String) : ¬ d.OnCycle id := by
  obtain ⟨-, htopological, -⟩ := hd.nodes_of_make hg
  rw [hd.digraph_eq] at htopological
  exact htopological.not_onCycle id

/-- A level without a cycle has a graph. -/
theorem Validated.exists_make (hd : d.Validated) (hacyclic : ∀ id, ¬ d.OnCycle id) :
    ∃ g, WorkflowGraph.make d = .ok g := by
  rcases WorkflowGraph.make_cases hd with ⟨g, hg, -⟩ | ⟨id, -, hcycle, -⟩
  · exact ⟨g, hg⟩
  · exact absurd hcycle (hacyclic id)

end Definition

namespace WorkflowGraph

variable {d : Definition}

/-- A validated level has a graph exactly if its links form no cycle. The graph lists every node of
the level once, the source of each link before its target. Otherwise the node that is reported is a
node of the level and lies on a cycle. -/
theorem make_topological (hd : d.Validated) :
    ((∃ g, make d = .ok g) ↔ ∀ id, ¬ d.OnCycle id) ∧
    (∀ g, make d = .ok g →
      g.nodes.Perm d.nodes ∧ (g.nodes.map NodeEntry.id).Nodup ∧
      ∀ l ∈ d.links, ∃ i j : Nat, i < j ∧ (g.nodes.map NodeEntry.id)[i]? = some l.sourceId ∧
        (g.nodes.map NodeEntry.id)[j]? = some l.targetId) ∧
    ∀ e, make d = .error e → ∃ id ∈ d.nodes.map NodeEntry.id, d.OnCycle id ∧ e = .cycle id := by
  rcases make_cases hd with ⟨g, hg, hdefinition, htopological⟩ | ⟨id, hid, hcycle, herror⟩
  · have hacyclic : ∀ id, ¬ d.OnCycle id := by
      intro id hcycle
      rw [hd.digraph_eq] at htopological
      exact htopological.not_onCycle id hcycle
    refine ⟨⟨fun _ => hacyclic, fun _ => ⟨g, hg⟩⟩, ?_, ?_⟩
    · intro g' hg'
      obtain rfl : g = g' := Except.ok.inj (hg.symm.trans hg')
      exact nodes_of_topological hd hdefinition htopological
    · intro e he
      rw [hg] at he
      cases he
  · refine ⟨⟨?_, ?_⟩, ?_, ?_⟩
    · rintro ⟨g, hg⟩
      rw [herror] at hg
      cases hg
    · intro hacyclic
      exact absurd hcycle (hacyclic id)
    · intro g hg
      rw [herror] at hg
      cases hg
    · intro e he
      rw [herror] at he
      exact ⟨id, hid, hcycle, (Except.error.inj he).symm⟩

/-- A node of a type without anything else. -/
def bareNode (id nodeType : String) (owned : Option Workflow) : Workflow.Node :=
  ⟨id, none, none, nodeType, [], none, owned⟩

/-- A link between keys of one name. -/
def plainLink (source target : String) : Link :=
  ⟨source, "x", target, "x", none⟩

/-- A level with a cycle of three nodes, which a fourth links into. -/
def cyclicLevel : Workflow where
  nodes := [bareNode "start" "InputNode" none, bareNode "a" "PickOneNode" none,
    bareNode "b" "PickOneNode" none, bareNode "c" "PickOneNode" none]
  links := [plainLink "start" "c", plainLink "a" "b", plainLink "b" "c", plainLink "c" "a"]
  testInputs := []

/-- A level without a cycle, two of its links parallel, one of whose nodes owns the other level. -/
def nestingLevel : Workflow where
  nodes := [bareNode "out" "OutputNode" none, bareNode "loop" "FixedIterationLoopNode" cyclicLevel,
    bareNode "in" "InputNode" none]
  links := [plainLink "in" "loop", plainLink "loop" "out", plainLink "in" "loop",
    plainLink "in" "out"]
  testInputs := []

theorem validated_nestingLevel : (Definition.ofValidated nestingLevel).Validated := by
  have h : Validator.standard.validate nestingLevel = .ok (.ofValidated nestingLevel) := rfl
  exact .accepted h

theorem validated_cyclicLevel : (Definition.ofValidated cyclicLevel).Validated := by
  have h : ("loop", Definition.ofValidated cyclicLevel) ∈
      (Definition.ofValidated nestingLevel).subworkflows := List.mem_singleton_self _
  exact .owned validated_nestingLevel h

theorem make_topological_nestingLevel :
    (∃ g, make (.ofValidated nestingLevel) = .ok g ∧ g.order = ["in", "loop", "out"] ∧
      (∀ id, ¬ (Definition.ofValidated nestingLevel).OnCycle id) ∧
      g.nodes.Perm (Definition.ofValidated nestingLevel).nodes) ∧
    make (.ofValidated cyclicLevel) = .error (.cycle "b") ∧
      (Definition.ofValidated cyclicLevel).OnCycle "b" := by
  have hnesting : make (.ofValidated nestingLevel) =
      .ok ⟨.ofValidated nestingLevel, ["in", "loop", "out"]⟩ := rfl
  have hcyclic : make (.ofValidated cyclicLevel) = .error (.cycle "b") := rfl
  obtain ⟨hiff, hok, -⟩ := make_topological validated_nestingLevel
  refine ⟨⟨_, hnesting, rfl, hiff.1 ⟨_, hnesting⟩, (hok _ hnesting).1⟩, hcyclic, ?_⟩
  obtain ⟨id, -, hcycle, heq⟩ := (make_topological validated_cyclicLevel).2.2 _ hcyclic
  obtain rfl : "b" = id := WorkflowError.cycle.inj heq
  exact hcycle

end WorkflowGraph

end TypedWorkflow
