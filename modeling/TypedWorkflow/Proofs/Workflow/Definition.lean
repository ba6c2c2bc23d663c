import Mathlib.Data.List.Nodup
import TypedWorkflow.Proofs.Workflow.Acceptance

/-!
# Definitions and the workflows they are made of

Making a definition of a workflow and going back loses nothing, at whatever depth it stands, and
neither is anything added: both ways only change what the nodes own. A definition is written as the
workflow that it goes back to.

Definitions come from a validator, or are owned by a node of one that does. So a level of a
definition keeps the rules that the validator checks, whether it is the outermost one or not; in
particular its ids are distinct and its links have both ends in it.

## Main definitions

* `Definition.workflow_ofValidated`, `Definition.ofValidated_workflow`: there and back.
* `Definition.toJson_workflow`: the written forms agree.
* `Definition.Validated`: the definitions that a validator has made, and those inside.
* `Definition.Validated.nodup_ids`, `Definition.Validated.mem_ids_of_link`: what their levels keep.
-/

namespace TypedWorkflow

/-! ## What nodes own -/

namespace NodeEntry

variable {α β γ : Type}

/-- The node that owns `f` of what this one owns, and is the same otherwise. -/
def mapOwned (f : α → β) (n : NodeEntry α) : NodeEntry β :=
  ⟨n.id, n.parentId, n.title, n.nodeType, n.config, n.coordinates, n.subworkflow.map f⟩

theorem mapOwned_mapOwned (g : β → γ) (f : α → β) (n : NodeEntry α) :
    (n.mapOwned f).mapOwned g = n.mapOwned (g ∘ f) := by
  simp [mapOwned]

/-- A node does not change if what it owns does not. -/
theorem mapOwned_eq_self {f : α → α} {n : NodeEntry α}
    (h : ∀ s, n.subworkflow = some s → f s = s) : n.mapOwned f = n := by
  obtain ⟨id, parent, title, type, config, coordinates, owned⟩ := n
  cases owned with
  | none => rfl
  | some s => simp [mapOwned, h s rfl]

/-- Nodes do not change if what they own does not. -/
theorem map_mapOwned_eq_self {f : α → α} {nodes : List (NodeEntry α)}
    (h : ∀ n ∈ nodes, ∀ s, n.subworkflow = some s → f s = s) :
    nodes.map (mapOwned f) = nodes := by
  rw [List.map_congr_left fun n hn => mapOwned_eq_self (h n hn), List.map_id']

end NodeEntry

namespace Definition

/-- Induction on definitions: the statement may be assumed of every definition that a node owns. -/
@[elab_as_elim]
theorem ind {motive : Definition → Prop}
    (level : ∀ d : Definition,
      (∀ n ∈ d.nodes, ∀ s, n.subworkflow = some s → motive s) → motive d)
    (d : Definition) : motive d := by
  refine @Definition.rec motive
    (fun nodes => ∀ n ∈ nodes, ∀ s, n.subworkflow = some s → motive s)
    (fun n => ∀ s, n.subworkflow = some s → motive s) (fun owned => ∀ s, owned = some s → motive s)
    ?_ ?_ ?_ ?_ ?_ ?_ d
  · intro nodes links inputs hnodes
    exact level ⟨nodes, links, inputs⟩ hnodes
  · simp
  · intro n nodes hn hnodes
    exact List.forall_mem_cons.2 ⟨hn, hnodes⟩
  · intro id parent title type config coordinates owned howned
    exact howned
  · simp
  · intro s hs t ht
    exact Option.some.inj ht ▸ hs

/-! ## There and back -/

theorem ofValidatedNodes_eq_map (nodes : List Workflow.Node) :
    ofValidatedNodes nodes = nodes.map (NodeEntry.mapOwned ofValidated) := by
  induction nodes with
  | nil => rfl
  | cons n rest ih =>
    obtain ⟨id, parent, title, type, config, coordinates, owned⟩ := n
    rw [ofValidatedNodes, ih]
    cases owned <;> rfl

theorem workflowNodes_eq_map (nodes : List Node) :
    workflowNodes nodes = nodes.map (NodeEntry.mapOwned workflow) := by
  induction nodes with
  | nil => rfl
  | cons n rest ih =>
    obtain ⟨id, parent, title, type, config, coordinates, owned⟩ := n
    rw [workflowNodes, ih]
    cases owned <;> rfl

@[simp] theorem nodes_ofValidated (w : Workflow) :
    (ofValidated w).nodes = w.nodes.map (NodeEntry.mapOwned ofValidated) := by
  obtain ⟨nodes, links, inputs⟩ := w
  rw [ofValidated, ofValidatedNodes_eq_map]

@[simp] theorem nodes_workflow (d : Definition) :
    d.workflow.nodes = d.nodes.map (NodeEntry.mapOwned workflow) := by
  obtain ⟨nodes, links, inputs⟩ := d
  rw [workflow, workflowNodes_eq_map]

theorem mem_nodes_workflow {d : Definition} {n : Node} (h : n ∈ d.nodes) :
    n.mapOwned workflow ∈ d.workflow.nodes := by
  rw [nodes_workflow]
  exact List.mem_map_of_mem h

@[simp] theorem links_workflow (d : Definition) : d.workflow.links = d.links := by
  obtain ⟨nodes, links, inputs⟩ := d
  rw [workflow]

theorem ids_workflow (d : Definition) :
    d.workflow.ids = d.nodes.map NodeEntry.id := by
  rw [Workflow.ids, nodes_workflow, List.map_map]
  rfl

theorem roots_workflow (d : Definition) (nodeType : String) :
    d.workflow.roots nodeType =
      (d.nodes.filter fun n => n.parentId.isNone && n.nodeType == nodeType).map
        (NodeEntry.mapOwned workflow) := by
  rw [Workflow.roots, nodes_workflow, List.filter_map]
  rfl

/-- Going back from the definition of a workflow gives the workflow. -/
theorem workflow_ofValidated (w : Workflow) : (ofValidated w).workflow = w := by
  induction w using Workflow.ind with
  | level w ih =>
    have hnodes : (ofValidated w).workflow.nodes = w.nodes := by
      rw [nodes_workflow, nodes_ofValidated, List.map_map]
      calc w.nodes.map (NodeEntry.mapOwned workflow ∘ NodeEntry.mapOwned ofValidated)
        _ = w.nodes.map (NodeEntry.mapOwned (workflow ∘ ofValidated)) :=
          List.map_congr_left fun n _ => n.mapOwned_mapOwned workflow ofValidated
        _ = w.nodes := NodeEntry.map_mapOwned_eq_self ih
    obtain ⟨nodes, links, inputs⟩ := w
    rw [ofValidated, workflow] at hnodes ⊢
    exact congrArg (Workflow.mk · links inputs) hnodes

/-- The definition of the workflow that a definition goes back to is that definition. -/
theorem ofValidated_workflow (d : Definition) : ofValidated d.workflow = d := by
  induction d using Definition.ind with
  | level d ih =>
    have hnodes : (ofValidated d.workflow).nodes = d.nodes := by
      rw [nodes_ofValidated, nodes_workflow, List.map_map]
      calc d.nodes.map (NodeEntry.mapOwned ofValidated ∘ NodeEntry.mapOwned workflow)
        _ = d.nodes.map (NodeEntry.mapOwned (ofValidated ∘ workflow)) :=
          List.map_congr_left fun n _ => n.mapOwned_mapOwned ofValidated workflow
        _ = d.nodes := NodeEntry.map_mapOwned_eq_self ih
    obtain ⟨nodes, links, inputs⟩ := d
    rw [workflow, ofValidated] at hnodes ⊢
    exact congrArg (Definition.mk · links inputs) hnodes

/-! ## Written forms -/

theorem nodesToJson_eq_map (nodes : List Node) : nodesToJson nodes = nodes.map nodeToJson := by
  induction nodes with
  | nil => rfl
  | cons n rest ih =>
    obtain ⟨id, parent, title, type, config, coordinates, owned⟩ := n
    rw [nodesToJson, ih]
    cases owned <;> rfl

end Definition

theorem Workflow.nodesToJson_eq_map (nodes : List Workflow.Node) :
    nodesToJson nodes = nodes.map nodeToJson := by
  induction nodes with
  | nil => rfl
  | cons n rest ih =>
    obtain ⟨id, parent, title, type, config, coordinates, owned⟩ := n
    cases owned <;> rw [nodesToJson, ih] <;> rfl

namespace Definition

/-- A definition is written as the workflow that it goes back to. -/
theorem toJson_workflow (d : Definition) : d.workflow.toJson = d.toJson := by
  induction d using Definition.ind with
  | level d ih =>
    have hnodes : Workflow.nodesToJson (workflowNodes d.nodes) = nodesToJson d.nodes := by
      rw [Workflow.nodesToJson_eq_map, nodesToJson_eq_map, workflowNodes_eq_map, List.map_map]
      refine List.map_congr_left fun n hn => ?_
      have howned := ih n hn
      obtain ⟨id, parent, title, type, config, coordinates, owned⟩ := n
      cases owned with
      | none => rfl
      | some s => simp [NodeEntry.mapOwned, Workflow.nodeToJson, nodeToJson, howned s rfl]
    obtain ⟨nodes, links, inputs⟩ := d
    rw [workflow, Workflow.toJson, toJson, hnodes]

/-! ## Validated definitions -/

/-- Definitions come from a validator, or are owned by one that does. -/
inductive Validated : Definition → Prop where
  | accepted {v : Validator} {w : Workflow} {d : Definition} (h : v.validate w = .ok d) :
      Validated d
  | owned {d s : Definition} {id : String} (hd : Validated d) (hs : (id, s) ∈ d.subworkflows) :
      Validated s

end Definition

namespace Validator

theorem validate_eq_ok_iff {v : Validator} {w : Workflow} {d : Definition} :
    v.validate w = .ok d ↔ v.check w = [] ∧ d = .ofValidated w := by
  rw [validate]
  split
  case h_1 hcheck => simp [hcheck, eq_comm]
  case h_2 hcheck => simp_all

/-- A definition is accepted again, and becomes itself, exactly if its workflow breaks no rule. -/
theorem validate_workflow_iff {v : Validator} {d : Definition} :
    v.validate d.workflow = .ok d ↔ v.check d.workflow = [] := by
  rw [validate_eq_ok_iff, Definition.ofValidated_workflow]
  exact and_iff_left rfl

end Validator

namespace Definition

/-- What a definition owns is owned by a node of its workflow. -/
theorem exists_owner {d s : Definition} {id : String} (h : (id, s) ∈ d.subworkflows) :
    ∃ n ∈ d.workflow.nodes, n.id = id ∧ n.subworkflow = some s.workflow := by
  obtain ⟨n, hn, hsome⟩ := List.mem_filterMap.1 h
  obtain ⟨t, ht, heq⟩ := Option.map_eq_some_iff.1 hsome
  obtain ⟨rfl, rfl⟩ := Prod.mk.inj heq
  exact ⟨n.mapOwned workflow, mem_nodes_workflow hn, rfl, by simp [NodeEntry.mapOwned, ht]⟩

/-- Where the workflow of a definition breaks no rule, what the definition owns breaks none. -/
theorem check_eq_nil_of_mem_subworkflows {v : Validator} {d s : Definition} {id : String}
    (h : v.check d.workflow = []) (hs : (id, s) ∈ d.subworkflows) : v.check s.workflow = [] := by
  obtain ⟨n, hn, -, howned⟩ := exists_owner hs
  exact Validator.check_eq_nil_of_owned h hn howned

/-- A validated definition breaks no rule of the validator that it comes from. -/
theorem Validated.exists_check_eq_nil {d : Definition} (h : d.Validated) :
    ∃ v : Validator, v.check d.workflow = [] := by
  induction h with
  | @accepted v w d h =>
    obtain ⟨hcheck, rfl⟩ := Validator.validate_eq_ok_iff.1 h
    exact ⟨v, by rwa [workflow_ofValidated]⟩
  | owned hd hs ih =>
    obtain ⟨v, hcheck⟩ := ih
    exact ⟨v, check_eq_nil_of_mem_subworkflows hcheck hs⟩

theorem Validated.exists_admits {d : Definition} (h : d.Validated) :
    ∃ v : Validator, v.Admits d.workflow := by
  obtain ⟨v, hcheck⟩ := h.exists_check_eq_nil
  exact ⟨v, (Validator.check_eq_nil_iff.1 hcheck [] _ .top).2⟩

/-- The ids of a level are distinct. -/
theorem Validated.nodup_ids {d : Definition} (h : d.Validated) : d.workflow.ids.Nodup := by
  obtain ⟨v, hadmits⟩ := h.exists_admits
  exact hadmits.nodup_ids

theorem Validated.nodup_nodeIds {d : Definition} (h : d.Validated) :
    (d.nodes.map NodeEntry.id).Nodup :=
  ids_workflow d ▸ h.nodup_ids

/-- Both ends of a link are nodes of its level. -/
theorem Validated.mem_ids_of_link {d : Definition} (h : d.Validated) {l : Link}
    (hl : l ∈ d.links) : l.sourceId ∈ d.workflow.ids ∧ l.targetId ∈ d.workflow.ids := by
  obtain ⟨v, hadmits⟩ := h.exists_admits
  rw [← links_workflow] at hl
  exact hadmits.ends l hl

end Definition

end TypedWorkflow
