import TypedWorkflow.Proofs.Entries
import TypedWorkflow.Proofs.Graph.TopologicalOrder

/-!
# Neighbors

The neighbors of a node are the other ends of its links, each listed once in the order of the level,
however many links lead there. The links into a node are listed one by one.

A graph with numbers in place of ids answers the same. There a node has its place as its number, a
table leads from ids to numbers, and a link with an end that the table does not know is passed over.
In a validated level the table leads every id to the place of its node and knows the ends of all
links, so no link is passed over, and going to numbers and back changes nothing.

## Main definitions

* `WorkflowGraph.mem_predecessors_iff`, `WorkflowGraph.mem_successors_iff`: neighbors by links.
* `WorkflowGraph.linksInto_eq`: the links into a node.
* `NumberedGraph`, `NumberedGraph.ofLevel`: a level by numbers.
* `NumberedGraph.ofLevel_eq`, `NumberedGraph.neighbors_ofLevel`: its edges, and what it answers.
* `WorkflowGraph.neighbors_by_links`: the graph of a level without a cycle reflects its links.
-/

namespace TypedWorkflow

/-! ## Places of ids -/

namespace Definition

variable {d : Definition}

/-- A node that links or is linked to is a node of the level. -/
theorem Validated.mem_nodeIds_of_linked (hd : d.Validated) {a b : String} (h : d.Linked a b) :
    a ∈ d.nodes.map NodeEntry.id ∧ b ∈ d.nodes.map NodeEntry.id := by
  obtain ⟨l, hl, rfl, rfl⟩ := h
  rw [← ids_workflow]
  exact hd.mem_ids_of_link hl

/-- The place of an id among the ids of the level. -/
def place (d : Definition) (id : String) : Nat :=
  (d.nodes.map NodeEntry.id).idxOf id

theorem place_inj {a b : String} (ha : a ∈ d.nodes.map NodeEntry.id) :
    d.place a = d.place b ↔ a = b :=
  List.idxOf_inj ha

/-- The ids of a validated level stand at their places and nowhere else. -/
theorem Validated.getElem?_nodeIds_iff (hd : d.Validated) {id : String} {k : Nat} :
    (d.nodes.map NodeEntry.id)[k]? = some id ↔ id ∈ d.nodes.map NodeEntry.id ∧ k = d.place id := by
  constructor
  · intro hk
    obtain ⟨hlt, hget⟩ := List.getElem?_eq_some_iff.1 hk
    refine ⟨List.mem_of_getElem? hk, ?_⟩
    rw [place, ← hget]
    exact (hd.nodup_nodeIds.idxOf_getElem k hlt).symm
  · rintro ⟨hid, rfl⟩
    exact List.getElem?_idxOf hid

end Definition

/-! ## Neighbors by ids -/

namespace WorkflowGraph

variable {d : Definition} {g : WorkflowGraph}

theorem definition_of_make (h : make d = .ok g) : g.definition = d := by
  rw [make] at h
  split at h
  · exact Except.ok.inj h ▸ rfl
  · cases h

/-- The predecessors of a node are the sources of the links to it. -/
theorem mem_predecessors_iff (hd : d.Validated) (hg : g.definition = d) {p id : String} :
    p ∈ g.predecessors id ↔ d.Linked p id := by
  rw [predecessors, List.mem_filter, List.contains_iff_mem, Digraph.mem_sourcesOf_iff, workflow, hg,
    hd.digraph_eq]
  refine and_iff_right_of_imp ?_
  rintro ⟨l, hl, rfl, -⟩
  exact (hd.mem_ids_of_link hl).1

/-- The successors of a node are the targets of the links out of it. -/
theorem mem_successors_iff (hd : d.Validated) (hg : g.definition = d) {s id : String} :
    s ∈ g.successors id ↔ d.Linked id s := by
  rw [successors, List.mem_filter, List.contains_iff_mem, Digraph.mem_targetsOf_iff, workflow, hg,
    hd.digraph_eq]
  refine and_iff_right_of_imp ?_
  rintro ⟨l, hl, -, rfl⟩
  exact (hd.mem_ids_of_link hl).2

/-- The predecessors of a node are listed once each, in the order of the level. -/
theorem predecessors_sublist (hg : g.definition = d) (id : String) :
    (g.predecessors id).Sublist (d.nodes.map NodeEntry.id) := by
  rw [predecessors, workflow, hg, Definition.ids_workflow]
  exact List.filter_sublist

theorem successors_sublist (hg : g.definition = d) (id : String) :
    (g.successors id).Sublist (d.nodes.map NodeEntry.id) := by
  rw [successors, workflow, hg, Definition.ids_workflow]
  exact List.filter_sublist

theorem nodup_predecessors (hd : d.Validated) (hg : g.definition = d) (id : String) :
    (g.predecessors id).Nodup :=
  hd.nodup_nodeIds.sublist (predecessors_sublist hg id)

theorem nodup_successors (hd : d.Validated) (hg : g.definition = d) (id : String) :
    (g.successors id).Nodup :=
  hd.nodup_nodeIds.sublist (successors_sublist hg id)

/-- The links into a node are the links of the level that end there, the last one first. -/
theorem linksInto_eq (hd : d.Validated) (hg : g.definition = d) (id : String) :
    g.linksInto id = (d.links.filter fun l => l.targetId == id).reverse := by
  rw [linksInto, Digraph.linksInto, workflow, hg, hd.digraph_eq, List.filter_reverse]

/-- What is no node of the level has no links and no neighbors. -/
theorem neighbors_of_notMem (hd : d.Validated) (hg : g.definition = d) {id : String}
    (hid : id ∉ d.nodes.map NodeEntry.id) :
    g.linksInto id = [] ∧ g.predecessors id = [] ∧ g.successors id = [] := by
  refine ⟨?_, ?_, ?_⟩
  · rw [linksInto_eq hd hg, List.reverse_eq_nil_iff, List.filter_eq_nil_iff]
    intro l hl htarget
    rw [beq_iff_eq] at htarget
    exact hid (htarget ▸ (hd.mem_nodeIds_of_linked ⟨l, hl, rfl, rfl⟩).2)
  · rw [List.eq_nil_iff_forall_not_mem]
    intro p hp
    exact hid (hd.mem_nodeIds_of_linked ((mem_predecessors_iff hd hg).1 hp)).2
  · rw [List.eq_nil_iff_forall_not_mem]
    intro t ht
    exact hid (hd.mem_nodeIds_of_linked ((mem_successors_iff hd hg).1 ht)).1

end WorkflowGraph

/-! ## Neighbors by numbers -/

/-- A link with the numbers of its ends. -/
structure NumberedGraph.Edge where
  source : Nat
  target : Nat
  link : Link

/-- A level by numbers: the nodes, each with its place as its number, the numbers under the ids, the
latest first, and the edges. -/
structure NumberedGraph where
  nodes : List Definition.Node
  numbers : List (String × Nat)
  edges : List NumberedGraph.Edge

namespace NumberedGraph

/-- The graph without nodes. -/
def empty : NumberedGraph := ⟨[], [], []⟩

/-- The number under an id. -/
def number? (g : NumberedGraph) (id : String) : Option Nat :=
  g.numbers.lookup id

/-- Adds a node. -/
def addNode (g : NumberedGraph) (n : Definition.Node) : NumberedGraph :=
  ⟨g.nodes ++ [n], (n.id, g.nodes.length) :: g.numbers, g.edges⟩

/-- Adds an edge for a link. A link whose ends are not both known is passed over. -/
def addLink (g : NumberedGraph) (l : Link) : NumberedGraph :=
  match g.number? l.sourceId, g.number? l.targetId with
  | some source, some target => { g with edges := g.edges ++ [⟨source, target, l⟩] }
  | _, _ => g

/-- The graph of a level: all nodes are added, then all links. -/
def ofLevel (d : Definition) : NumberedGraph :=
  d.links.foldl addLink (d.nodes.foldl addNode empty)

/-- The links of the edges into a node, the latest first. -/
def linksInto (g : NumberedGraph) (id : String) : List Link :=
  match g.number? id with
  | none => []
  | some k => (g.edges.reverse.filter fun e => e.target == k).map Edge.link

/-- The nodes at the far ends of the edges that have a node at the near end, in the order of their
numbers. -/
def neighbors (g : NumberedGraph) (near far : Edge → Nat) (id : String) : List String :=
  match g.number? id with
  | none => []
  | some k =>
    let linked := (g.edges.reverse.filter fun e => near e == k).map far
    (g.nodes.zipIdx.filter fun n => linked.contains n.2).map fun n => n.1.id

/-- The nodes with an edge into a node. -/
def predecessors (g : NumberedGraph) : String → List String :=
  g.neighbors Edge.target Edge.source

/-- The nodes with an edge out of a node. -/
def successors (g : NumberedGraph) : String → List String :=
  g.neighbors Edge.source Edge.target

/-! ### Building the graph -/

theorem foldl_addNode (nodes : List Definition.Node) (g : NumberedGraph) :
    nodes.foldl addNode g = ⟨g.nodes ++ nodes,
      ((nodes.map NodeEntry.id).zipIdx g.nodes.length).reverse ++ g.numbers, g.edges⟩ := by
  induction nodes generalizing g with
  | nil => simp
  | cons n rest ih => simp [ih, addNode, List.zipIdx_cons]

/-- Links whose ends are known all become edges. -/
theorem foldl_addLink {nodes : List Definition.Node} {numbers : List (String × Nat)}
    {number : String → Nat} {links : List Link}
    (h : ∀ l ∈ links, numbers.lookup l.sourceId = some (number l.sourceId) ∧
      numbers.lookup l.targetId = some (number l.targetId)) (edges : List Edge) :
    links.foldl addLink ⟨nodes, numbers, edges⟩ = ⟨nodes, numbers,
      edges ++ links.map fun l => ⟨number l.sourceId, number l.targetId, l⟩⟩ := by
  induction links generalizing edges with
  | nil => simp
  | cons l rest ih =>
    obtain ⟨⟨hsource, htarget⟩, hrest⟩ := List.forall_mem_cons.1 h
    have hadd : addLink ⟨nodes, numbers, edges⟩ l = ⟨nodes, numbers,
        edges ++ [⟨number l.sourceId, number l.targetId, l⟩]⟩ := by
      simp [addLink, number?, hsource, htarget]
    rw [List.foldl_cons, hadd, ih hrest]
    simp

variable {d : Definition}

/-- The edge that a link of a level becomes. -/
def edgeOf (d : Definition) (l : Link) : Edge :=
  ⟨d.place l.sourceId, d.place l.targetId, l⟩

/-- The numbers under the ids of a validated level are the places of their nodes. -/
theorem lookup_zipIdx_iff (hd : d.Validated) {id : String} {k : Nat} :
    (d.nodes.map NodeEntry.id).zipIdx.reverse.lookup id = some k ↔
      id ∈ d.nodes.map NodeEntry.id ∧ k = d.place id := by
  have hnames : ((d.nodes.map NodeEntry.id).zipIdx.reverse.map Prod.fst).Nodup := by
    rw [List.map_reverse, List.zipIdx_map_fst, List.nodup_reverse]
    exact hd.nodup_nodeIds
  rw [Entries.lookup_eq_some_iff hnames, List.mem_reverse, List.mem_zipIdx_iff_getElem?]
  exact hd.getElem?_nodeIds_iff

/-- Every link of a validated level becomes an edge, and every node is found under its id. -/
theorem ofLevel_eq (hd : d.Validated) :
    ofLevel d = ⟨d.nodes, (d.nodes.map NodeEntry.id).zipIdx.reverse, d.links.map (edgeOf d)⟩ := by
  have hknown : ∀ id ∈ d.nodes.map NodeEntry.id,
      (d.nodes.map NodeEntry.id).zipIdx.reverse.lookup id = some (d.place id) :=
    fun id hid => (lookup_zipIdx_iff hd).2 ⟨hid, rfl⟩
  have hlinks : ∀ l ∈ d.links,
      l.sourceId ∈ d.nodes.map NodeEntry.id ∧ l.targetId ∈ d.nodes.map NodeEntry.id :=
    fun l hl => hd.mem_nodeIds_of_linked ⟨l, hl, rfl, rfl⟩
  have hnodes : d.nodes.foldl addNode empty =
      ⟨d.nodes, (d.nodes.map NodeEntry.id).zipIdx.reverse, []⟩ := by
    rw [foldl_addNode]
    simp [empty]
  rw [ofLevel, hnodes]
  exact foldl_addLink (fun l hl => ⟨hknown _ (hlinks l hl).1, hknown _ (hlinks l hl).2⟩) []

theorem nodes_ofLevel (hd : d.Validated) : (ofLevel d).nodes = d.nodes := by
  rw [ofLevel_eq hd]

/-! ### Asking by numbers -/

theorem number?_ofLevel (hd : d.Validated) {id : String} (hid : id ∈ d.nodes.map NodeEntry.id) :
    (ofLevel d).number? id = some (d.place id) := by
  rw [ofLevel_eq hd]
  exact (lookup_zipIdx_iff hd).2 ⟨hid, rfl⟩

theorem number?_ofLevel_of_notMem (hd : d.Validated) {id : String}
    (hid : id ∉ d.nodes.map NodeEntry.id) : (ofLevel d).number? id = none := by
  rw [ofLevel_eq hd, Option.eq_none_iff_forall_ne_some]
  intro k hk
  exact hid ((lookup_zipIdx_iff hd).1 hk).1

/-- The edges at the number of a node are those of the links at the node. -/
theorem filter_edges (hd : d.Validated) {near : Edge → Nat} {nearId : Link → String}
    (hnear : ∀ l, near (edgeOf d l) = d.place (nearId l)) {id : String}
    (hid : id ∈ d.nodes.map NodeEntry.id) :
    (ofLevel d).edges.reverse.filter (fun e => near e == d.place id) =
      (d.links.reverse.filter fun l => nearId l == id).map (edgeOf d) := by
  rw [ofLevel_eq hd, ← List.map_reverse, List.filter_map]
  refine congrArg (List.map (edgeOf d)) (List.filter_congr fun l _ => ?_)
  have hiff : d.place (nearId l) = d.place id ↔ nearId l = id := by
    rw [eq_comm, d.place_inj hid, eq_comm]
  simp [hnear, hiff]

/-- The nodes at the far ends of the edges of a node are those at the far ends of its links. -/
theorem neighbors_ofLevel (hd : d.Validated) {near far : Edge → Nat} {nearId farId : Link → String}
    (hnear : ∀ l, near (edgeOf d l) = d.place (nearId l))
    (hfar : ∀ l, far (edgeOf d l) = d.place (farId l)) {id : String}
    (hid : id ∈ d.nodes.map NodeEntry.id) :
    (ofLevel d).neighbors near far id = (d.nodes.map NodeEntry.id).filter fun other =>
      ((d.links.reverse.filter fun l => nearId l == id).map farId).contains other := by
  rw [neighbors, number?_ofLevel hd hid, nodes_ofLevel hd]
  dsimp only
  rw [filter_edges hd hnear hid, List.map_map]
  generalize d.links.reverse.filter (fun l => nearId l == id) = links
  -- a number stands for one id, so a number is linked exactly if its id is
  have hlinked : ∀ n ∈ d.nodes.zipIdx,
      (links.map (far ∘ edgeOf d)).contains n.2 = (links.map farId).contains n.1.id := by
    rintro ⟨n, k⟩ hn
    have hk : (d.nodes.map NodeEntry.id)[k]? = some n.id := by
      rw [List.getElem?_map, List.mem_zipIdx_iff_getElem?.1 hn]
      rfl
    obtain ⟨hmem, rfl⟩ := hd.getElem?_nodeIds_iff.1 hk
    rw [Bool.eq_iff_iff]
    simp only [List.contains_iff_mem, List.mem_map, Function.comp_apply, hfar]
    refine exists_congr fun l => and_congr_right fun _ => ?_
    rw [eq_comm, d.place_inj hmem, eq_comm]
  have hids : d.nodes.map NodeEntry.id = d.nodes.zipIdx.map fun n => n.1.id := by
    conv_lhs => rw [← List.zipIdx_map_fst 0 d.nodes, List.map_map]
    rfl
  rw [List.filter_congr hlinked, hids, List.filter_map]
  rfl

/-- The edges have the links of the level, and their ends are the places of the ends of the
links. -/
theorem edges_ofLevel (hd : d.Validated) :
    (ofLevel d).edges.map Edge.link = d.links ∧ ∀ e ∈ (ofLevel d).edges,
      (d.nodes.map NodeEntry.id)[e.source]? = some e.link.sourceId ∧
        (d.nodes.map NodeEntry.id)[e.target]? = some e.link.targetId := by
  rw [ofLevel_eq hd]
  constructor
  · rw [List.map_map]
    exact List.map_id _
  · intro e he
    obtain ⟨l, hl, rfl⟩ := List.mem_map.1 he
    obtain ⟨hsource, htarget⟩ := hd.mem_nodeIds_of_linked ⟨l, hl, rfl, rfl⟩
    exact ⟨hd.getElem?_nodeIds_iff.2 ⟨hsource, rfl⟩, hd.getElem?_nodeIds_iff.2 ⟨htarget, rfl⟩⟩

/-- Asked by numbers, a level gives the answers of its graph. -/
theorem ofLevel_agrees (hd : d.Validated) {g : WorkflowGraph} (hg : g.definition = d)
    (id : String) :
    (ofLevel d).linksInto id = g.linksInto id ∧ (ofLevel d).predecessors id = g.predecessors id ∧
      (ofLevel d).successors id = g.successors id := by
  have hsource (l : Link) : (edgeOf d l).source = d.place l.sourceId := rfl
  have htarget (l : Link) : (edgeOf d l).target = d.place l.targetId := rfl
  by_cases hid : id ∈ d.nodes.map NodeEntry.id
  · refine ⟨?_, ?_, ?_⟩
    · rw [linksInto, number?_ofLevel hd hid, WorkflowGraph.linksInto_eq hd hg]
      dsimp only
      rw [filter_edges hd htarget hid, List.map_map, List.filter_reverse]
      exact List.map_id _
    · rw [predecessors, neighbors_ofLevel hd htarget hsource hid, WorkflowGraph.predecessors,
        WorkflowGraph.workflow, hg, hd.digraph_eq, Definition.ids_workflow]
      rfl
    · rw [successors, neighbors_ofLevel hd hsource htarget hid, WorkflowGraph.successors,
        WorkflowGraph.workflow, hg, hd.digraph_eq, Definition.ids_workflow]
      rfl
  · obtain ⟨hlinks, hpredecessors, hsuccessors⟩ := WorkflowGraph.neighbors_of_notMem hd hg hid
    rw [hlinks, hpredecessors, hsuccessors, linksInto, predecessors, successors, neighbors,
      neighbors, number?_ofLevel_of_notMem hd hid]
    exact ⟨rfl, rfl, rfl⟩

end NumberedGraph

/-! ## The graph of a level -/

namespace WorkflowGraph

variable {d : Definition}

/-- A predecessor stands before its node in topological order. -/
theorem exists_places_of_linked (hd : d.Validated) {g : WorkflowGraph} (hg : make d = .ok g)
    {p id : String} (h : d.Linked p id) :
    ∃ i j : Nat, i < j ∧ (g.nodes.map NodeEntry.id)[i]? = some p ∧
      (g.nodes.map NodeEntry.id)[j]? = some id := by
  obtain ⟨hdefinition, htopological, -⟩ := hd.nodes_of_make hg
  obtain ⟨-, -, hforward⟩ := nodes_of_topological hd hdefinition htopological
  obtain ⟨l, hl, rfl, rfl⟩ := h
  exact hforward l hl

/-- A validated level without a cycle has a graph, in which its neighbors are as its links say. The
graph keeps every node and every link. The links into a node are those that end there, each as often
as the level has it. The predecessors and the successors of a node are the other ends of its links,
each once and in the order of the level, so that they are converse to each other, and a predecessor
stands before its node in topological order. What is no node of the level has neither links nor
neighbors. Kept by numbers, the level has a vertex for every node and, between the places of its
ends, an edge for every link, and gives the same answers. -/
theorem neighbors_by_links (hd : d.Validated) (hacyclic : ∀ id, ¬ d.OnCycle id) :
    ∃ g, make d = .ok g ∧ g.nodes.Perm d.nodes ∧
      g.workflow.digraph = ⟨d.nodes.map NodeEntry.id, d.links⟩ ∧
      (∀ id, (g.linksInto id).Perm (d.links.filter fun l => l.targetId = id)) ∧
      (∀ id, (g.predecessors id).Nodup ∧
        (g.predecessors id).Sublist (d.nodes.map NodeEntry.id) ∧
        ∀ p, p ∈ g.predecessors id ↔ ∃ l ∈ d.links, l.sourceId = p ∧ l.targetId = id) ∧
      (∀ id, (g.successors id).Nodup ∧
        (g.successors id).Sublist (d.nodes.map NodeEntry.id) ∧
        ∀ t, t ∈ g.successors id ↔ ∃ l ∈ d.links, l.sourceId = id ∧ l.targetId = t) ∧
      (∀ p q, p ∈ g.predecessors q ↔ q ∈ g.successors p) ∧
      (∀ id, ∀ p ∈ g.predecessors id, ∃ i j : Nat, i < j ∧
        (g.nodes.map NodeEntry.id)[i]? = some p ∧ (g.nodes.map NodeEntry.id)[j]? = some id) ∧
      (∀ id, id ∉ d.nodes.map NodeEntry.id →
        g.linksInto id = [] ∧ g.predecessors id = [] ∧ g.successors id = []) ∧
      (NumberedGraph.ofLevel d).nodes = d.nodes ∧
      (NumberedGraph.ofLevel d).edges.map NumberedGraph.Edge.link = d.links ∧
      (∀ e ∈ (NumberedGraph.ofLevel d).edges,
        (d.nodes.map NodeEntry.id)[e.source]? = some e.link.sourceId ∧
          (d.nodes.map NodeEntry.id)[e.target]? = some e.link.targetId) ∧
      ∀ id, (NumberedGraph.ofLevel d).linksInto id = g.linksInto id ∧
        (NumberedGraph.ofLevel d).predecessors id = g.predecessors id ∧
        (NumberedGraph.ofLevel d).successors id = g.successors id := by
  obtain ⟨g, hmake⟩ := hd.exists_make hacyclic
  obtain ⟨hg, -, hperm⟩ := hd.nodes_of_make hmake
  have hgraph : g.workflow.digraph = ⟨d.nodes.map NodeEntry.id, d.links⟩ := by
    rw [workflow, hg, hd.digraph_eq]
  have hlinks (id : String) : (g.linksInto id).Perm (d.links.filter fun l => l.targetId = id) := by
    rw [linksInto_eq hd hg]
    exact List.reverse_perm _
  obtain ⟨hedges, hends⟩ := NumberedGraph.edges_ofLevel hd
  refine ⟨g, hmake, hperm, hgraph, hlinks, fun id => ?_, fun id => ?_, fun p q => ?_,
    fun id p hp => ?_, fun id => neighbors_of_notMem hd hg, NumberedGraph.nodes_ofLevel hd, hedges,
    hends, NumberedGraph.ofLevel_agrees hd hg⟩
  · exact ⟨nodup_predecessors hd hg id, predecessors_sublist hg id,
      fun p => mem_predecessors_iff hd hg⟩
  · exact ⟨nodup_successors hd hg id, successors_sublist hg id, fun t => mem_successors_iff hd hg⟩
  · rw [mem_predecessors_iff hd hg, mem_successors_iff hd hg]
  · exact exists_places_of_linked hd hmake ((mem_predecessors_iff hd hg).1 hp)

/-- Of two links between the same nodes both are kept, and the neighbor is listed once. -/
theorem neighbors_of_nestingLevel :
    (Definition.ofValidated nestingLevel).Validated ∧
    (∀ id, ¬ (Definition.ofValidated nestingLevel).OnCycle id) ∧
    ∃ g, make (.ofValidated nestingLevel) = .ok g ∧
      (g.linksInto "loop").length = 2 ∧ g.predecessors "loop" = ["in"] ∧
      g.predecessors "out" = ["loop", "in"] ∧ g.successors "in" = ["out", "loop"] ∧
      g.predecessors "elsewhere" = [] ∧
      (NumberedGraph.ofLevel (.ofValidated nestingLevel)).predecessors "out" = ["loop", "in"] := by
  have hmake : make (.ofValidated nestingLevel) =
      .ok ⟨.ofValidated nestingLevel, ["in", "loop", "out"]⟩ := rfl
  have hacyclic := validated_nestingLevel.not_onCycle_of_make hmake
  obtain ⟨g, hg, -, -, hlinks, -, -, -, -, hnone, -, -, -, hagrees⟩ :=
    neighbors_by_links validated_nestingLevel hacyclic
  obtain rfl := Except.ok.inj (hmake.symm.trans hg)
  have helsewhere : "elsewhere" ∉ (Definition.ofValidated nestingLevel).nodes.map NodeEntry.id := by
    decide
  exact ⟨validated_nestingLevel, hacyclic, _, hmake, (hlinks "loop").length_eq, rfl, rfl, rfl,
    (hnone "elsewhere" helsewhere).2.1, (hagrees "out").2.1⟩

end WorkflowGraph

end TypedWorkflow
