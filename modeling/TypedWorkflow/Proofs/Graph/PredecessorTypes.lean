import TypedWorkflow.Proofs.Graph.LinkTypes
import TypedWorkflow.Proofs.Graph.Neighbors
import TypedWorkflow.Proofs.Schema.Equality
import TypedWorkflow.Proofs.Schema.Instances

/-!
# The types of predecessors' outputs

What a node receives from its predecessors is typed twice: before a run from the models of the
predecessors, in the order of the level, and during a run from the outputs that they have produced,
in the order of their ids. An output is of the output model of its node and a node is a predecessor
only once, however many links lead from it, so both types have the same fields. The first accepts
the outputs and changes none of them.

## Main definitions

* `WorkflowGraph.outputType?`: the output model of a constructed node.
* `WorkflowGraph.predecessorType_eq_ok`, `WorkflowGraph.predecessorType_eq_error`: the type before a
  run, and the predecessor that is reported when it is missing.
* `WorkflowGraph.predecessorType_agrees`: both types are equal.
-/

namespace TypedWorkflow.WorkflowGraph

variable {d : Definition} {g : WorkflowGraph} {instances : NodeInstances}

/-! ## Predecessors -/

/-- The predecessors before a predecessor are nodes before it. -/
theorem exists_predecessors_eq_append (hd : d.Validated) (hg : g.definition = d) {id : String}
    {before after : List Definition.Node} {n : Definition.Node}
    (hnodes : d.nodes = before ++ n :: after) (hn : d.Linked n.id id) :
    ∃ earlier later, g.predecessors id = earlier ++ n.id :: later ∧
      ∀ p ∈ earlier, ∃ m ∈ before, m.id = p := by
  have hmem : n.id ∈ g.predecessors id := (mem_predecessors_iff hd hg).2 hn
  rw [predecessors, workflow, hg, Definition.ids_workflow, hnodes, List.map_append,
    List.filter_append, List.map_cons, List.filter_cons_of_pos]
  · refine ⟨_, _, rfl, ?_⟩
    intro p hp
    exact List.mem_map.1 (List.mem_filter.1 hp).1
  · rw [← hg]
    exact (List.mem_filter.1 hmem).2

/-! ## The type before a run -/

/-- The output model of a node, if it is constructed. -/
def outputType? (instances : NodeInstances) (p : String) : Option RecordType :=
  (instances.lookup p).map fun i => i.models.output

theorem outputType?_eq_getD {p : String} (h : (instances.lookup p).isSome = true) :
    outputType? instances p = some ((outputType? instances p).getD default) := by
  obtain ⟨i, hi⟩ := Option.isSome_iff_exists.1 h
  simp [outputType?, hi]

/-- Constructed predecessors add a field each, in order. -/
theorem insertOutputs_append {s : Schema} {ids : List String} {types : String → RecordType}
    (hnames : (s.names ++ ids).Nodup)
    (htypes : ∀ p ∈ ids, outputType? instances p = some (types p)) (rest : List String) :
    g.insertOutputs instances s (ids ++ rest) =
      g.insertOutputs instances ⟨s.fields ++ ids.map fun p => (p, (types p).token)⟩ rest := by
  induction ids generalizing s with
  | nil => simp
  | cons p ids ih =>
    obtain ⟨hp, hids⟩ := List.forall_mem_cons.1 htypes
    obtain ⟨i, hi, hmodel⟩ := Option.map_eq_some_iff.1 hp
    have hfresh : p ∉ s.names := Entries.notMem_of_nodup hnames
    have hinsert : s.insert p i.models.output.token = .ok ⟨s.fields ++ [(p, (types p).token)]⟩ := by
      rw [hmodel]
      exact Schema.insert_eq_ok_iff.2 ⟨hfresh, rfl⟩
    have hrest : ((⟨s.fields ++ [(p, (types p).token)]⟩ : Schema).names ++ ids).Nodup := by
      simpa [Schema.names] using hnames
    rw [List.cons_append, insertOutputs, hi]
    dsimp only
    rw [hinsert]
    exact (ih hrest hids).trans (by simp)

/-- If all predecessors are constructed, then there is a type with a field for each. -/
theorem predecessorType_eq_ok {id : String} (hids : (g.predecessors id).Nodup)
    {types : String → RecordType}
    (htypes : ∀ p ∈ g.predecessors id, outputType? instances p = some (types p)) :
    g.predecessorType id instances = .ok ⟨id ++ ".predecessors",
      ⟨(g.predecessors id).map fun p => (p, (types p).token)⟩⟩ := by
  have hnames : (Schema.empty.names ++ g.predecessors id).Nodup := hids
  have hinsert := insertOutputs_append (g := g) hnames htypes []
  rw [List.append_nil] at hinsert
  rw [predecessorType, hinsert]
  rfl

/-- The first predecessor that is not constructed is reported by the type of its node. -/
theorem predecessorType_eq_error (hd : d.Validated) (hg : g.definition = d) {id : String}
    {before after : List Definition.Node} {n : Definition.Node}
    (hnodes : d.nodes = before ++ n :: after) (hn : d.Linked n.id id)
    (hmissing : instances.lookup n.id = none)
    (hbefore : ∀ m ∈ before, d.Linked m.id id → (instances.lookup m.id).isSome = true) :
    g.predecessorType id instances = .error (.nodeUnavailable n.nodeType) := by
  obtain ⟨earlier, later, hids, hearlier⟩ := exists_predecessors_eq_append hd hg hnodes hn
  have hnodup : (Schema.empty.names ++ earlier).Nodup :=
    (List.nodup_append.1 (hids ▸ nodup_predecessors hd hg id)).1
  have htypes : ∀ p ∈ earlier,
      outputType? instances p = some ((outputType? instances p).getD default) := by
    intro p hp
    have hlinked : d.Linked p id :=
      (mem_predecessors_iff hd hg).1 (hids ▸ List.mem_append_left _ hp)
    obtain ⟨m, hm, rfl⟩ := hearlier p hp
    exact outputType?_eq_getD (hbefore m hm hlinked)
  have hnode : g.definition.node? n.id = some n := by
    rw [hg]
    exact hd.node?_of_mem (by simp [hnodes])
  rw [predecessorType, hids, insertOutputs_append hnodup htypes, insertOutputs, hmissing, hnode]
  rfl

/-- Among the predecessors that are not constructed one is the first. -/
theorem exists_first_missing (hd : d.Validated) {p id : String} (hp : d.Linked p id)
    (hmissing : instances.lookup p = none) :
    ∃ before n after, d.nodes = before ++ n :: after ∧ d.Linked n.id id ∧
      instances.lookup n.id = none ∧
      ∀ m ∈ before, d.Linked m.id id → (instances.lookup m.id).isSome = true := by
  classical
  obtain ⟨l, hl, rfl, htarget⟩ := hp
  obtain ⟨m, hm, hid⟩ := List.mem_map.1 (hd.mem_nodeIds_of_linked ⟨l, hl, rfl, htarget⟩).1
  let missing (n : Definition.Node) : Bool :=
    decide (d.Linked n.id id ∧ instances.lookup n.id = none)
  have hsome : (d.nodes.find? missing).isSome = true := by
    rw [List.find?_isSome]
    exact ⟨m, hm, decide_eq_true ⟨⟨l, hl, hid.symm, htarget⟩, hid ▸ hmissing⟩⟩
  obtain ⟨n, hn⟩ := Option.isSome_iff_exists.1 hsome
  obtain ⟨hfirst, before, after, hnodes, hbefore⟩ := List.find?_eq_some_iff_append.1 hn
  obtain ⟨hlinked, hnone⟩ := of_decide_eq_true hfirst
  refine ⟨before, n, after, hnodes, hlinked, hnone, ?_⟩
  intro m hm hlinked
  have hfound := hbefore m hm
  simp only [missing, Bool.not_eq_true', decide_eq_false_iff_not, not_and] at hfound
  exact Option.isSome_iff_ne_none.2 (hfound hlinked)

/-! ## Both types -/

section Outputs

variable {id : String} {outputs : String → RecordInstance} {T : RecordType} {ids : List String}

/-- The type before a run equals the type of the outputs, in whatever order these are listed. -/
theorem exists_ofInstances_same (hids : (g.predecessors id).Nodup)
    (htypes : ∀ p ∈ g.predecessors id, outputType? instances p = some (outputs p).type)
    (hgenuine : ∀ p ∈ g.predecessors id, (outputs p).Genuine)
    (hT : g.predecessorType id instances = .ok T) (hperm : ids.Perm (g.predecessors id))
    (name : String) :
    ∃ U, RecordType.ofInstances name (ids.map fun p => (p, outputs p)) = .ok U ∧
      T.same U = true ∧ U.same T = true := by
  obtain rfl := Except.ok.inj (hT.symm.trans (predecessorType_eq_ok hids htypes))
  -- it is the type of the outputs in the order of the level
  have hwellFormed (name : String) {ids : List String} (h : ids.Perm (g.predecessors id)) :
      RecordType.WellFormed ⟨name, ⟨ids.map fun p => (p, (outputs p).type.token)⟩⟩ := by
    refine RecordType.wellFormed_ofInstances ?_
      (RecordType.ofInstances_tabulate name (h.nodup_iff.2 hids) outputs)
    simpa using fun p hp => (hgenuine p (h.mem_iff.1 hp)).wellFormed
  have hfields := hperm.map fun p => (p, (outputs p).type.token)
  exact ⟨_, RecordType.ofInstances_tabulate name (hperm.nodup_iff.2 hids) outputs,
    RecordType.same_of_perm (hwellFormed _ (.refl _)) hfields.symm,
    RecordType.same_of_perm (hwellFormed name hperm) hfields⟩

/-- The type before a run accepts the object of the outputs and takes them out in the order of the
level. -/
theorem validate_outputs (hids : (g.predecessors id).Nodup)
    (htypes : ∀ p ∈ g.predecessors id, outputType? instances p = some (outputs p).type)
    (hgenuine : ∀ p ∈ g.predecessors id, (outputs p).Genuine)
    (hT : g.predecessorType id instances = .ok T) (hperm : ids.Perm (g.predecessors id)) :
    T.validate (.obj (ids.map fun p => (p, (outputs p).toJson))) =
      .ok ⟨T, (g.predecessors id).map fun p => (p, (outputs p).toJson)⟩ := by
  obtain rfl := Except.ok.inj (hT.symm.trans (predecessorType_eq_ok hids htypes))
  have hlookup : ∀ p ∈ g.predecessors id,
      (ids.map fun p => (p, (outputs p).toJson)).lookup p = some (outputs p).toJson :=
    fun p hp => Entries.lookup_tabulate (fun p => (outputs p).toJson) (hperm.mem_iff.2 hp)
  have hdumps : RecordInstance.dumps ((g.predecessors id).map fun p => (p, outputs p)) =
      (g.predecessors id).map fun p => (p, (outputs p).toJson) := by
    simp [RecordInstance.dumps, Function.comp_def]
  rw [← hdumps]
  refine RecordType.validate_eq_dumps (by simp [Function.comp_def]) ?_ ?_
  · simpa using hgenuine
  · simpa using hlookup

end Outputs

/-- A node of a level without cycles is given the type of its predecessors' outputs before they are
produced. If the predecessors are constructed, this type equals the type of any outputs that their
output models have made, in whatever order these are listed; and it accepts the object of the
outputs, in whatever order of keys, and changes none of them. Otherwise the type of the first
predecessor that is missing is reported, and nothing else ever is. -/
theorem predecessorType_agrees (hd : d.Validated) (hg : make d = .ok g)
    (hinstances : ∀ p i, instances.lookup p = some i → i.Reachable) (id : String) :
    ((∀ p, p ∈ g.predecessors id ↔ d.Linked p id) ∧
      (g.predecessors id).Sublist (d.nodes.map NodeEntry.id)) ∧
    ((∀ p, d.Linked p id → (instances.lookup p).isSome = true) →
      ∃ T, g.predecessorType id instances = .ok T ∧
        ∀ outputs : String → RecordInstance,
          (∀ p, d.Linked p id → ∃ i, instances.lookup p = some i ∧
            i.models.output.Makes (outputs p)) →
          ∀ ids : List String, ids.Perm (g.predecessors id) →
            (∀ name, ∃ U, RecordType.ofInstances name (ids.map fun p => (p, outputs p)) = .ok U ∧
              T.same U = true ∧ U.same T = true) ∧
            T.validate (.obj (ids.map fun p => (p, (outputs p).toJson))) =
              .ok ⟨T, (g.predecessors id).map fun p => (p, (outputs p).toJson)⟩) ∧
    (∀ before n after, d.nodes = before ++ n :: after → d.Linked n.id id →
      instances.lookup n.id = none →
      (∀ m ∈ before, d.Linked m.id id → (instances.lookup m.id).isSome = true) →
      g.predecessorType id instances = .error (.nodeUnavailable n.nodeType)) ∧
    ∀ e, g.predecessorType id instances = .error e → ∃ n ∈ d.nodes, d.Linked n.id id ∧
      instances.lookup n.id = none ∧ e = .nodeUnavailable n.nodeType := by
  have hdefinition := definition_of_make hg
  have hids := nodup_predecessors hd hdefinition id
  have hmem (p : String) : p ∈ g.predecessors id ↔ d.Linked p id :=
    mem_predecessors_iff hd hdefinition
  have hok (h : ∀ p, d.Linked p id → (instances.lookup p).isSome = true) :
      ∃ T, g.predecessorType id instances = .ok T :=
    ⟨_, predecessorType_eq_ok hids fun p hp => outputType?_eq_getD (h p ((hmem p).1 hp))⟩
  refine ⟨⟨hmem, predecessors_sublist hdefinition id⟩, ?_, ?_, ?_⟩
  · intro h
    obtain ⟨T, hT⟩ := hok h
    refine ⟨T, hT, ?_⟩
    intro outputs houtputs ids hperm
    have htypes : ∀ p ∈ g.predecessors id, outputType? instances p = some (outputs p).type := by
      intro p hp
      obtain ⟨i, hi, hmade⟩ := houtputs p ((hmem p).1 hp)
      simp [outputType?, hi, hmade.type_eq]
    have hgenuine : ∀ p ∈ g.predecessors id, (outputs p).Genuine := by
      intro p hp
      obtain ⟨i, hi, hmade⟩ := houtputs p ((hmem p).1 hp)
      exact hmade.genuine (hinstances p i hi).wellFormed_models.output
    exact ⟨exists_ofInstances_same hids htypes hgenuine hT hperm,
      validate_outputs hids htypes hgenuine hT hperm⟩
  · intro before n after hnodes hn hmissing hbefore
    exact predecessorType_eq_error hd hdefinition hnodes hn hmissing hbefore
  · intro e he
    by_cases h : ∀ p, d.Linked p id → (instances.lookup p).isSome = true
    · obtain ⟨T, hT⟩ := hok h
      rw [hT] at he
      cases he
    · push Not at h
      obtain ⟨p, hp, hnone⟩ := h
      obtain ⟨before, n, after, hnodes, hn, hmissing, hbefore⟩ :=
        exists_first_missing hd hp (Option.not_isSome_iff_eq_none.1 hnone)
      rw [predecessorType_eq_error hd hdefinition hnodes hn hmissing hbefore] at he
      exact ⟨n, by simp [hnodes], hn, hmissing, (Except.error.inj he).symm⟩

/-- What such a node produces of the range from 1 to 2. -/
def rangeOutput (swapped : Bool) : RecordInstance :=
  ⟨(rangeNode swapped).models.output, [("range", (rangeType swapped).normalForm oneToTwoSample)]⟩

/-- Two of the nodes of a level, constructed, with types of ranges that list their fields in
different orders. -/
def rangeInstances : NodeInstances :=
  [("in", rangeNode false), ("loop", rangeNode true)]

theorem predecessorType_agrees_nestingLevel :
    ∃ g T, make (.ofValidated nestingLevel) = .ok g ∧ g.predecessors "out" = ["loop", "in"] ∧
      g.predecessorType "out" rangeInstances = .ok T ∧
      (∃ U, RecordType.ofInstances "seen" [("in", rangeOutput false), ("loop", rangeOutput true)] =
        .ok U ∧ T.same U = true ∧ U.same T = true) ∧
      T.validate (.obj [("in", (rangeOutput false).toJson), ("loop", (rangeOutput true).toJson)]) =
        .ok ⟨T, [("loop", (rangeOutput true).toJson), ("in", (rangeOutput false).toJson)]⟩ ∧
      g.predecessorType "out" [("in", rangeNode false)] =
        .error (.nodeUnavailable "FixedIterationLoopNode") := by
  have hreach : ∀ e ∈ rangeInstances, e.2.Reachable := by
    simp [rangeInstances, reachable_rangeNode]
  have hmade (swapped : Bool) : (rangeNode swapped).models.output.Makes (rangeOutput swapped) := by
    cases swapped <;> exact ⟨.obj [("range", oneToTwoSample)], rfl⟩
  have hgraph : make (.ofValidated nestingLevel) =
      .ok ⟨.ofValidated nestingLevel, ["in", "loop", "out"]⟩ := rfl
  obtain ⟨⟨hmem, -⟩, hok, -, -⟩ := @predecessorType_agrees _ _ rangeInstances
    validated_nestingLevel hgraph (fun _ _ h => hreach _ (Entries.mem_of_lookup_eq_some h)) "out"
  have hlinked {p : String} : (Definition.ofValidated nestingLevel).Linked p "out" ↔
      p = "loop" ∨ p = "in" := by
    rw [← hmem]
    exact List.mem_pair
  have hpresent : ∀ p, (Definition.ofValidated nestingLevel).Linked p "out" →
      (rangeInstances.lookup p).isSome = true := by
    intro p hp
    rcases hlinked.1 hp with rfl | rfl <;> rfl
  have houtputs : ∀ p, (Definition.ofValidated nestingLevel).Linked p "out" →
      ∃ i, rangeInstances.lookup p = some i ∧
        i.models.output.Makes (rangeOutput (p == "loop")) := by
    intro p hp
    rcases hlinked.1 hp with rfl | rfl
    · exact ⟨_, rfl, hmade true⟩
    · exact ⟨_, rfl, hmade false⟩
  obtain ⟨T, hT, hagrees⟩ := hok hpresent
  obtain ⟨hsame, hvalidate⟩ :=
    hagrees (fun p => rangeOutput (p == "loop")) houtputs ["in", "loop"] (.swap ..)
  obtain ⟨-, -, hmissing, -⟩ := @predecessorType_agrees _ _ [("in", rangeNode false)]
    validated_nestingLevel hgraph (fun _ _ h => hreach _ (List.mem_cons.2 (.inl
      (List.mem_singleton.1 (Entries.mem_of_lookup_eq_some h))))) "out"
  refine ⟨_, T, hgraph, rfl, hT, hsame "seen", hvalidate, ?_⟩
  refine hmissing [_] _ [_] rfl (hlinked.2 (.inl rfl)) rfl ?_
  intro m hm hout
  obtain rfl := List.mem_singleton.1 hm
  rcases hlinked.1 hout with h | h <;> simp at h

end TypedWorkflow.WorkflowGraph
