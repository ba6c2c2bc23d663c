import TypedWorkflow.Proofs.Graph.TopologicalOrder
import TypedWorkflow.Proofs.Node.Primitive
import TypedWorkflow.Proofs.Workflow.AcceptedLevels

/-!
# The instances of a level

The nodes of a level are constructed one by one, in topological order, through any catalog. A node
for which the catalog reports that there is no loader is left out; any other error ends the
construction. So the error is that of the first node that fails, and where none fails the instances
are those of the nodes that could be constructed, under the ids of these nodes.

The catalog that a level has been checked against knows the type of every node. If none of its
loaders reports of itself that it is missing, then the nodes that are left out are those whose type
has no loader, and the nodes that fail are those that a loader rejects. It may reject them with any
other error, so even with that of an unknown name.

## Main definitions

* `Catalog.loader?`: the loader that a name leads to.
* `NodeEntry.created`, `NodeEntry.Fails`: what a catalog makes of a node.
* `WorkflowGraph.instantiateNodes_eq_error_iff`, `WorkflowGraph.instantiateNodes_eq_ok_iff`: how the
  construction ends.
* `NodeEntry.RejectedWith`, `NodeEntry.fails_iff_rejectedWith`: the nodes that a loader rejects.
* `CatalogBuilder.instantiate_levels`: the construction of a level of an accepted workflow.
* `CatalogBuilder.not_instantiate_ne_unknown`: a loader may report a name as unknown.
-/

namespace TypedWorkflow

/-! ## Nodes -/

section Nodes

variable {α : Type} {c : Catalog} {context : ExecutionContext} {n : NodeEntry α}
  {e : WorkflowError}

/-- What a catalog makes of a node. -/
def NodeEntry.created (c : Catalog) (context : ExecutionContext) (n : NodeEntry α) :
    Except WorkflowError NodeInstance :=
  c.createNode n.nodeType (.obj n.config) context

/-- The construction of a node fails, and not because there is no loader. -/
def NodeEntry.Fails (c : Catalog) (context : ExecutionContext) (n : NodeEntry α)
    (e : WorkflowError) : Prop :=
  n.created c context = .error e ∧ ∀ name, e ≠ .nodeUnavailable name

/-- What becomes of a node that does not fail: there is an instance, or no loader. -/
theorem NodeEntry.created_cases (h : ∀ e, ¬ n.Fails c context e) :
    (∃ i, n.created c context = .ok i) ∨
      ∃ name, n.created c context = .error (.nodeUnavailable name) := by
  cases hcreated : n.created c context with
  | ok i => exact .inl ⟨i, rfl⟩
  | error e =>
    cases e with
    | nodeUnavailable name => exact .inr ⟨name, rfl⟩
    | _ => exact absurd ⟨hcreated, by simp⟩ (h _)

end Nodes

/-! ## Nodes in order -/

namespace WorkflowGraph

variable {c : Catalog} {context : ExecutionContext} {nodes : List Definition.Node}
  {n : Definition.Node} {e : WorkflowError}

/-- The instances of the nodes that can be constructed, by their ids. -/
def createdInstances (c : Catalog) (context : ExecutionContext) (nodes : List Definition.Node) :
    NodeInstances :=
  nodes.filterMap fun n => (n.created c context).toOption.map fun i => (n.id, i)

/-- The construction ends at a node that fails. -/
theorem instantiateNodes_cons_of_fails (h : n.Fails c context e) (rest : List Definition.Node) :
    instantiateNodes c context (n :: rest) = .error e := by
  obtain ⟨hcreated, hloader⟩ := h
  rw [instantiateNodes, ← NodeEntry.created, hcreated]
  cases e with
  | nodeUnavailable name => exact absurd rfl (hloader name)
  | _ => rfl

/-- The construction passes over nodes that do not fail. -/
theorem instantiateNodes_append {before : List Definition.Node}
    (h : ∀ n ∈ before, ∀ e, ¬ n.Fails c context e) (rest : List Definition.Node) :
    instantiateNodes c context (before ++ rest) =
      (instantiateNodes c context rest).map (createdInstances c context before ++ ·) := by
  induction before with
  | nil =>
    rw [List.nil_append]
    cases instantiateNodes c context rest <;> rfl
  | cons n before ih =>
    obtain ⟨hn, hbefore⟩ := List.forall_mem_cons.1 h
    rw [List.cons_append, instantiateNodes, createdInstances, List.filterMap_cons,
      ← NodeEntry.created]
    rcases NodeEntry.created_cases hn with ⟨i, hcreated⟩ | ⟨name, hcreated⟩
    · rw [hcreated, ih hbefore]
      cases instantiateNodes c context rest <;> rfl
    · rw [hcreated]
      exact ih hbefore

/-- Either no node fails, or there is a first one that does. -/
theorem exists_first_failure (c : Catalog) (context : ExecutionContext)
    (nodes : List Definition.Node) :
    (∀ n ∈ nodes, ∀ e, ¬ n.Fails c context e) ∨
      ∃ before n after e, nodes = before ++ n :: after ∧
        (∀ m ∈ before, ∀ e, ¬ m.Fails c context e) ∧ n.Fails c context e := by
  induction nodes with
  | nil => exact .inl (by simp)
  | cons n rest ih =>
    by_cases hn : ∃ e, n.Fails c context e
    · obtain ⟨e, he⟩ := hn
      exact .inr ⟨[], n, rest, e, rfl, by simp, he⟩
    · have hpasses := not_exists.1 hn
      rcases ih with hall | ⟨before, m, after, e, rfl, hbefore, hm⟩
      · exact .inl (List.forall_mem_cons.2 ⟨hpasses, hall⟩)
      · exact .inr ⟨n :: before, m, after, e, rfl, List.forall_mem_cons.2 ⟨hpasses, hbefore⟩, hm⟩

theorem instantiateNodes_of_first_failure {before after : List Definition.Node}
    (hbefore : ∀ m ∈ before, ∀ e, ¬ m.Fails c context e) (hn : n.Fails c context e) :
    instantiateNodes c context (before ++ n :: after) = .error e := by
  rw [instantiateNodes_append hbefore, instantiateNodes_cons_of_fails hn]
  rfl

theorem instantiateNodes_of_forall (h : ∀ n ∈ nodes, ∀ e, ¬ n.Fails c context e) :
    instantiateNodes c context nodes = .ok (createdInstances c context nodes) := by
  have hall := instantiateNodes_append h []
  rw [List.append_nil, instantiateNodes] at hall
  exact hall.trans (congrArg Except.ok (List.append_nil _))

/-- The construction fails exactly with the error of the first node that fails. -/
theorem instantiateNodes_eq_error_iff :
    instantiateNodes c context nodes = .error e ↔ ∃ before n after, nodes = before ++ n :: after ∧
      (∀ m ∈ before, ∀ e, ¬ m.Fails c context e) ∧ n.Fails c context e := by
  constructor
  · intro h
    rcases exists_first_failure c context nodes with hall | ⟨before, n, after, e', rfl, hbefore, hn⟩
    · rw [instantiateNodes_of_forall hall] at h
      cases h
    · obtain rfl := Except.error.inj ((instantiateNodes_of_first_failure hbefore hn).symm.trans h)
      exact ⟨before, n, after, rfl, hbefore, hn⟩
  · rintro ⟨before, n, after, rfl, hbefore, hn⟩
    exact instantiateNodes_of_first_failure hbefore hn

/-- The construction succeeds exactly if no node fails. -/
theorem instantiateNodes_eq_ok_iff {instances : NodeInstances} :
    instantiateNodes c context nodes = .ok instances ↔
      (∀ n ∈ nodes, ∀ e, ¬ n.Fails c context e) ∧ instances = createdInstances c context nodes := by
  constructor
  · intro h
    rcases exists_first_failure c context nodes with hall | ⟨before, n, after, e, rfl, hbefore, hn⟩
    · exact ⟨hall, Except.ok.inj (h.symm.trans (instantiateNodes_of_forall hall))⟩
    · rw [instantiateNodes_of_first_failure hbefore hn] at h
      cases h
  · rintro ⟨hall, rfl⟩
    exact instantiateNodes_of_forall hall

theorem exists_instantiateNodes_error_iff :
    (∃ e, instantiateNodes c context nodes = .error e) ↔ ∃ n ∈ nodes, ∃ e, n.Fails c context e := by
  constructor
  · rintro ⟨e, he⟩
    obtain ⟨before, n, after, rfl, -, hn⟩ := instantiateNodes_eq_error_iff.1 he
    exact ⟨n, by simp, e, hn⟩
  · rintro ⟨n, hn, e, he⟩
    cases h : instantiateNodes c context nodes with
    | error e => exact ⟨e, rfl⟩
    | ok instances => exact absurd he ((instantiateNodes_eq_ok_iff.1 h).1 n hn e)

theorem length_createdInstances (nodes : List Definition.Node) :
    (createdInstances c context nodes).length =
      nodes.countP fun n => (n.created c context).isOk := by
  rw [createdInstances, List.length_filterMap_eq_countP]
  refine List.countP_congr fun n _ => ?_
  cases n.created c context <;> simp [Except.toOption, Except.isOk, Except.toBool]

theorem mem_createdInstances_iff {id : String} {i : NodeInstance} :
    (id, i) ∈ createdInstances c context nodes ↔
      ∃ n ∈ nodes, n.id = id ∧ n.created c context = .ok i := by
  rw [createdInstances, List.mem_filterMap]
  refine exists_congr fun n => and_congr_right fun _ => ?_
  cases n.created c context <;> simp [Except.toOption]

/-- Instances have distinct ids where nodes do. -/
theorem nodup_createdInstances (h : (nodes.map NodeEntry.id).Nodup) :
    ((createdInstances c context nodes).map Prod.fst).Nodup :=
  h.sublist (Entries.names_filterMap_sublist _ (fun n => (n.created c context).toOption) nodes)

/-- An instance is found under the id of its node. -/
theorem lookup_createdInstances_iff (h : (nodes.map NodeEntry.id).Nodup) {id : String}
    {i : NodeInstance} :
    (createdInstances c context nodes).lookup id = some i ↔
      ∃ n ∈ nodes, n.id = id ∧ n.created c context = .ok i := by
  rw [Entries.lookup_eq_some_iff (nodup_createdInstances h), mem_createdInstances_iff]

end WorkflowGraph

/-! ## Loaders -/

/-- The loader never reports of itself that it is missing. -/
def NodeLoader.NeverUnavailable (load : NodeLoader) : Prop :=
  ∀ config context name, load config context ≠ .error (.nodeUnavailable name)

/-- The loaders of the primitive nodes have faults of configs to report and nothing else. -/
theorem Primitive.neverUnavailable {typeName : String} {kind : NodeKind}
    (hkind : (typeName, kind) ∈ primitiveTypes) : kind.loader.NeverUnavailable := by
  intro config context name herror
  obtain ⟨fault, hfault⟩ := exists_fault_of_construct hkind herror
  cases hfault

/-- The loader of the type that a name stands for, if it stands for a type that has one. -/
def Catalog.loader? (c : Catalog) (name : String) : Option NodeLoader := do
  let t ← (c.resolve name).toOption
  t.loader

section Loaders

variable {α : Type} {c : Catalog} {context : ExecutionContext} {n : NodeEntry α}
  {e : WorkflowError}

theorem Catalog.loader?_of_resolve {name : String} {t : Descriptor} (h : c.resolve name = .ok t) :
    c.loader? name = t.loader := by
  rw [loader?, h]
  rfl

theorem Catalog.createNode_of_resolve {name : String} {t : Descriptor}
    (h : c.resolve name = .ok t) (config : Json) (context : ExecutionContext) :
    c.createNode name config context = match c.loader? name with
      | some load => load config context
      | none => .error (.nodeUnavailable t.typeName) := by
  rw [createNode, h, loader?_of_resolve h]
  rfl

/-- The type of the node has a loader, and it rejects the config of the node. -/
def NodeEntry.RejectedWith (c : Catalog) (context : ExecutionContext) (n : NodeEntry α)
    (e : WorkflowError) : Prop :=
  ∃ load, c.loader? n.nodeType = some load ∧ load (.obj n.config) context = .error e

/-- The loader that the type of a node leads to makes the instance of the node. -/
theorem NodeEntry.created_eq_ok_iff {i : NodeInstance}
    (hresolve : ∃ t, c.resolve n.nodeType = .ok t) :
    n.created c context = .ok i ↔
      ∃ load, c.loader? n.nodeType = some load ∧ load (.obj n.config) context = .ok i := by
  obtain ⟨t, ht⟩ := hresolve
  rw [created, Catalog.createNode_of_resolve ht]
  cases c.loader? n.nodeType <;> simp

/-- Where types are known and no loader is missing, the nodes that fail are those that a loader
rejects. -/
theorem NodeEntry.fails_iff_rejectedWith (hresolve : ∃ t, c.resolve n.nodeType = .ok t)
    (hloader : ∀ load, c.loader? n.nodeType = some load → load.NeverUnavailable) :
    n.Fails c context e ↔ n.RejectedWith c context e := by
  obtain ⟨t, ht⟩ := hresolve
  rw [Fails, RejectedWith, created, Catalog.createNode_of_resolve ht]
  cases hload : c.loader? n.nodeType with
  | none =>
    simp only [Except.error.injEq, reduceCtorEq, false_and, exists_false, iff_false, not_and]
    rintro rfl hother
    exact hother _ rfl
  | some load =>
    simp only [Option.some.injEq, exists_eq_left', and_iff_left_iff_imp]
    rintro herror name rfl
    exact hloader load hload _ _ _ herror

/-- A loader that does not reject a node makes an instance of it. -/
theorem NodeEntry.exists_created (hresolve : ∃ t, c.resolve n.nodeType = .ok t)
    (haccepted : ∀ e, ¬ n.RejectedWith c context e) {load : NodeLoader}
    (hload : c.loader? n.nodeType = some load) :
    ∃ i, load (.obj n.config) context = .ok i ∧ n.created c context = .ok i := by
  cases hmade : load (.obj n.config) context with
  | error e => exact absurd ⟨load, hload, hmade⟩ (haccepted e)
  | ok i => exact ⟨i, rfl, (created_eq_ok_iff hresolve).2 ⟨load, hload, hmade⟩⟩

end Loaders

namespace WorkflowGraph

variable {c : Catalog} {context : ExecutionContext} {nodes : List Definition.Node}

/-- The construction fails exactly with the error of the first node that a loader rejects, where
these are the nodes that fail. -/
theorem instantiateNodes_rejected_iff
    (hfails : ∀ n ∈ nodes, ∀ e, n.Fails c context e ↔ n.RejectedWith c context e)
    {e : WorkflowError} :
    instantiateNodes c context nodes = .error e ↔ ∃ before n after, nodes = before ++ n :: after ∧
      (∀ m ∈ before, ∀ e', ¬ m.RejectedWith c context e') ∧ n.RejectedWith c context e := by
  rw [instantiateNodes_eq_error_iff]
  refine exists_congr fun before => exists_congr fun n => exists_congr fun after =>
    and_congr_right ?_
  rintro rfl
  obtain ⟨hbefore, hrest⟩ := List.forall_mem_append.1 hfails
  refine and_congr ?_ ((List.forall_mem_cons.1 hrest).1 e)
  exact forall₂_congr fun m hm => forall_congr' fun e' => not_congr (hbefore m hm e')

/-- Where no loader rejects a node, the instances have the ids of the nodes whose types lead to a
loader, and the instance under an id is what the loader has made. -/
theorem createdInstances_by_loaders (hnodup : (nodes.map NodeEntry.id).Nodup)
    (hresolve : ∀ n ∈ nodes, ∃ t, c.resolve n.nodeType = .ok t)
    (haccepted : ∀ n ∈ nodes, ∀ e, ¬ n.RejectedWith c context e) :
    (∀ id, id ∈ (createdInstances c context nodes).map Prod.fst ↔
      ∃ n ∈ nodes, n.id = id ∧ ∃ load, c.loader? n.nodeType = some load) ∧
    ∀ n ∈ nodes, ∀ load, c.loader? n.nodeType = some load →
      ∃ i, (createdInstances c context nodes).lookup n.id = some i ∧
        load (.obj n.config) context = .ok i := by
  refine ⟨fun id => ⟨fun hid => ?_, ?_⟩, fun n hn load hload => ?_⟩
  · obtain ⟨⟨_, i⟩, hmem, rfl⟩ := List.mem_map.1 hid
    obtain ⟨n, hn, rfl, hcreated⟩ := mem_createdInstances_iff.1 hmem
    obtain ⟨load, hload, -⟩ := (NodeEntry.created_eq_ok_iff (hresolve n hn)).1 hcreated
    exact ⟨n, hn, rfl, load, hload⟩
  · rintro ⟨n, hn, rfl, load, hload⟩
    obtain ⟨i, -, hcreated⟩ := NodeEntry.exists_created (hresolve n hn) (haccepted n hn) hload
    exact List.mem_map_of_mem (mem_createdInstances_iff.2 ⟨n, hn, rfl, hcreated⟩)
  · obtain ⟨i, hi, hcreated⟩ := NodeEntry.exists_created (hresolve n hn) (haccepted n hn) hload
    exact ⟨i, (lookup_createdInstances_iff hnodup).2 ⟨n, hn, rfl, hcreated⟩, hi⟩

end WorkflowGraph

/-! ## Levels of accepted workflows -/

namespace CatalogBuilder

/-- A level of an accepted workflow whose links form no cycle, constructed through the catalog that
it has been checked against. The type of each of its nodes stands for something in the catalog. The
construction fails exactly if a loader rejects one of the nodes, with the error of the first such
node in the topological order; so no name is reported as unknown, unless it is by a loader.
Otherwise the instances have the ids of the nodes whose types lead to a loader, each of them once,
and the instance under an id is what the loader has made of the config of the node. -/
theorem instantiate_levels (b : CatalogBuilder)
    (hloaders : ∀ t ∈ b.assemble.1.descriptors, ∀ load, t.loader = some load →
      load.NeverUnavailable)
    {config : ValidatorConfig} {w : Workflow} {d s : Definition}
    (h : (b.validator config).validate w = .ok d)
    (hs : Relation.ReflTransGen Definition.Owns d s) (hacyclic : ∀ id, ¬ s.OnCycle id) :
    ∃ g, WorkflowGraph.make s = .ok g ∧ g.nodes.Perm s.nodes ∧
      (∀ l ∈ s.links, ∃ i j : Nat, i < j ∧ (g.nodes.map NodeEntry.id)[i]? = some l.sourceId ∧
        (g.nodes.map NodeEntry.id)[j]? = some l.targetId) ∧
      (∀ n ∈ s.nodes, ∃ t, b.assemble.1.resolve n.nodeType = .ok t) ∧
      ∀ context,
        (∀ name, g.instantiate b.assemble.1 context = .error (.unknownNodeType name) →
          ∃ n ∈ s.nodes, n.RejectedWith b.assemble.1 context (.unknownNodeType name)) ∧
        ((∃ e, g.instantiate b.assemble.1 context = .error e) ↔
          ∃ n ∈ s.nodes, ∃ e, n.RejectedWith b.assemble.1 context e) ∧
        (∀ e, g.instantiate b.assemble.1 context = .error e ↔
          ∃ before n after, g.nodes = before ++ n :: after ∧
            (∀ m ∈ before, ∀ e', ¬ m.RejectedWith b.assemble.1 context e') ∧
            n.RejectedWith b.assemble.1 context e) ∧
        ∀ instances, g.instantiate b.assemble.1 context = .ok instances →
          (instances.map Prod.fst).Nodup ∧
          (∀ id, id ∈ instances.map Prod.fst ↔ ∃ n ∈ s.nodes, n.id = id ∧
            ∃ load, b.assemble.1.loader? n.nodeType = some load) ∧
          ∀ n ∈ s.nodes, ∀ load, b.assemble.1.loader? n.nodeType = some load →
            ∃ i, instances.lookup n.id = some i ∧ load (.obj n.config) context = .ok i := by
  have hd : s.Validated := (Definition.Validated.accepted h).of_reachable hs
  rcases WorkflowGraph.make_cases hd with ⟨g, hg, hdefinition, htopological⟩ | ⟨id, -, hcycle, -⟩
  · obtain ⟨hperm, hnodup, hforward⟩ :=
      WorkflowGraph.nodes_of_topological hd hdefinition htopological
    have hresolve : ∀ n ∈ s.nodes, ∃ t, b.assemble.1.resolve n.nodeType = .ok t :=
      fun n hn => b.exists_resolve_of_reachable h hs hn
    refine ⟨g, hg, hperm, hforward, hresolve, fun context => ?_⟩
    -- all that is left is about the nodes in their order
    simp only [← hperm.mem_iff] at hresolve ⊢
    have hfails : ∀ n ∈ g.nodes, ∀ e,
        n.Fails b.assemble.1 context e ↔ n.RejectedWith b.assemble.1 context e := by
      intro n hn e
      obtain ⟨t, ht⟩ := hresolve n hn
      refine NodeEntry.fails_iff_rejectedWith ⟨t, ht⟩ fun load hload => ?_
      rw [Catalog.loader?_of_resolve ht] at hload
      exact hloaders t (b.consistent_assemble.resolve_eq_ok_iff.1 ht).1 load hload
    have hfirst (e : WorkflowError) : g.instantiate b.assemble.1 context = .error e ↔ _ :=
      WorkflowGraph.instantiateNodes_rejected_iff hfails
    have hsome : (∃ e, g.instantiate b.assemble.1 context = .error e) ↔
        ∃ n ∈ g.nodes, ∃ e, n.RejectedWith b.assemble.1 context e := by
      refine WorkflowGraph.exists_instantiateNodes_error_iff.trans ?_
      exact exists_congr fun n => and_congr_right fun hn => exists_congr (hfails n hn)
    refine ⟨?_, hsome, hfirst, ?_⟩
    · intro name hname
      obtain ⟨before, n, after, horder, -, hn⟩ := (hfirst _).1 hname
      exact ⟨n, by simp [horder], hn⟩
    · intro instances hinstances
      obtain ⟨hpasses, rfl⟩ := WorkflowGraph.instantiateNodes_eq_ok_iff.1 hinstances
      refine ⟨WorkflowGraph.nodup_createdInstances hnodup, ?_⟩
      exact WorkflowGraph.createdInstances_by_loaders hnodup hresolve
        fun n hn e he => hpasses n hn e ((hfails n hn e).2 he)
  · exact absurd hcycle (hacyclic id)

/-- A catalog with a loader for one of its types, which is also that of a deprecated name. -/
def hostTypes : CatalogBuilder :=
  renamedTypes.withLoader "LoopNode" Primitive.inputNode.loader

theorem neverUnavailable_hostTypes : ∀ t ∈ hostTypes.assemble.1.descriptors, ∀ load,
    t.loader = some load → load.NeverUnavailable := by
  have htypes : hostTypes.assemble.1.descriptors =
      [⟨"InputNode", "primitives", "nodes", "InputNode", none⟩,
        ⟨"LoopNode", "loops", "nodes", "LoopNode", some Primitive.inputNode.loader⟩] := rfl
  have hkind : ("InputNode", Primitive.inputNode) ∈ primitiveTypes := List.mem_cons_self ..
  rw [htypes]
  intro t ht load hload
  simp only [List.mem_cons, List.not_mem_nil, or_false] at ht
  obtain rfl | rfl := ht
  · cases hload
  · exact Option.some.inj hload ▸ Primitive.neverUnavailable hkind

/-- A level with a node of the deprecated name. -/
def hostedLevel : Workflow :=
  ⟨[⟨"again", none, none, "RepeatNode", [("input_schema", .obj [("n", .str "int")])], none, none⟩,
    ⟨"in", none, none, "InputNode", [], none, none⟩], [⟨"in", "x", "again", "x", none⟩], []⟩

/-- A loop around it. -/
def hostingWorkflow : Workflow :=
  ⟨[⟨"in", none, none, "InputNode", [], none, none⟩,
    ⟨"outer", none, none, "LoopNode", [], none, some hostedLevel⟩], [], []⟩

theorem instantiate_levels_hostedLevel :
    (hostTypes.validator .standard).validate hostingWorkflow =
      .ok (.ofValidated hostingWorkflow) ∧
    Relation.ReflTransGen Definition.Owns (.ofValidated hostingWorkflow)
      (.ofValidated hostedLevel) ∧
    (∀ id, ¬ (Definition.ofValidated hostedLevel).OnCycle id) ∧
    ∃ g instances, WorkflowGraph.make (.ofValidated hostedLevel) = .ok g ∧
      g.instantiate hostTypes.assemble.1 none = .ok instances ∧
      (∀ id, id ∈ instances.map Prod.fst ↔ id = "again") ∧
      ∃ i, instances.lookup "again" = some i ∧
        Primitive.inputNode.loader (.obj [("input_schema", .obj [("n", .str "int")])]) none =
          .ok i := by
  have haccepted : (hostTypes.validator .standard).validate hostingWorkflow =
      .ok (.ofValidated hostingWorkflow) := rfl
  have hreachable : Relation.ReflTransGen Definition.Owns (.ofValidated hostingWorkflow)
      (.ofValidated hostedLevel) := .single ⟨"outer", List.mem_singleton_self _⟩
  have hmake : WorkflowGraph.make (.ofValidated hostedLevel) =
      .ok ⟨.ofValidated hostedLevel, ["in", "again"]⟩ := rfl
  have hacyclic := ((Definition.Validated.accepted haccepted).of_reachable
    hreachable).not_onCycle_of_make hmake
  obtain ⟨g, hg, -, -, -, hall⟩ :=
    instantiate_levels hostTypes neverUnavailable_hostTypes haccepted hreachable hacyclic
  obtain rfl := Except.ok.inj (hmake.symm.trans hg)
  obtain ⟨-, -, -, hok⟩ := hall none
  have hsucceeds : (WorkflowGraph.instantiate ⟨.ofValidated hostedLevel, ["in", "again"]⟩
      hostTypes.assemble.1 none).isOk = true := by decide +kernel
  cases hinstances : WorkflowGraph.instantiate ⟨.ofValidated hostedLevel, ["in", "again"]⟩
      hostTypes.assemble.1 none with
  | error e =>
    rw [hinstances] at hsucceeds
    cases hsucceeds
  | ok instances =>
    obtain ⟨-, hids, hmade⟩ := hok instances hinstances
    refine ⟨haccepted, hreachable, hacyclic, _, instances, hmake, hinstances, ?_, ?_⟩
    · intro id
      rw [hids]
      constructor
      · rintro ⟨n, hn, rfl, load, hload⟩
        have hnone : hostTypes.assemble.1.loader? "InputNode" = none := rfl
        obtain _ | ⟨_, _ | ⟨_, ⟨⟩⟩⟩ := hn
        · rfl
        · exact absurd (hnone.symm.trans hload) (by simp)
      · rintro rfl
        exact ⟨_, List.mem_cons_self .., rfl, _, rfl⟩
    · exact hmade _ (List.mem_cons_self ..) _ rfl

theorem neverUnavailable_forwardedTypes : ∀ t ∈ forwardedTypes.assemble.1.descriptors, ∀ load,
    t.loader = some load → load.NeverUnavailable := by
  have htypes : forwardedTypes.assemble.1.descriptors =
      [⟨"InputNode", "primitives", "nodes", "InputNode", some forwardingLoader⟩] := rfl
  rw [htypes]
  intro t ht load hload config context name
  obtain rfl := List.mem_singleton.1 ht
  obtain rfl := Option.some.inj hload
  simp [forwardingLoader]

/-- A level of one node, the type of which the catalog knows. -/
def forwardedLevel : Workflow :=
  ⟨[⟨"in", none, none, "InputNode", [], none, none⟩], [], []⟩

/-- That the catalog knows all types is not enough: a loader of its own may still report a name as
unknown, and the construction of the level ends with that error. -/
theorem not_instantiate_ne_unknown :
    ¬ ∀ b : CatalogBuilder, (∀ t ∈ b.assemble.1.descriptors, ∀ load, t.loader = some load →
        load.NeverUnavailable) → ∀ (config : ValidatorConfig) (w : Workflow) (d s : Definition),
      (b.validator config).validate w = .ok d → Relation.ReflTransGen Definition.Owns d s →
      (∀ id, ¬ s.OnCycle id) → ∀ g, WorkflowGraph.make s = .ok g → ∀ context name,
        g.instantiate b.assemble.1 context ≠ .error (.unknownNodeType name) := by
  intro hall
  have haccepted : (forwardedTypes.validator .standard).validate forwardedLevel =
      .ok (.ofValidated forwardedLevel) := rfl
  have hmake : WorkflowGraph.make (.ofValidated forwardedLevel) =
      .ok ⟨.ofValidated forwardedLevel, ["in"]⟩ := rfl
  have hacyclic := (Definition.Validated.accepted haccepted).not_onCycle_of_make hmake
  exact hall forwardedTypes neverUnavailable_forwardedTypes .standard forwardedLevel _ _ haccepted
    .refl hacyclic _ hmake none "OutputNode" rfl

end CatalogBuilder

end TypedWorkflow
