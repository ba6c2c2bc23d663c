import Mathlib.Logic.Relation
import TypedWorkflow.Proofs.Workflow.Deprecation

/-!
# The levels of an accepted workflow

A level of a definition has been checked as part of a whole, at its location there. On its own it is
accepted as well, by the same validator: it is the outermost level then, so that the levels inside
lie less deep than before, and all else that the validator wants of a level has nothing to do with
where it lies. So whoever gets hold of a level, however deep, can rely on it as on the whole.

## Main definitions

* `Definition.Owns`: a step from a level to one inside.
* `Validator.validate_of_reachable`: the levels of what has been accepted are accepted.
* `CatalogBuilder.validate_levels`: so what has been checked of the whole holds of each level.
-/

namespace TypedWorkflow

namespace Definition

/-- A node of the first definition owns the second. -/
def Owns (d s : Definition) : Prop :=
  ∃ id, (id, s) ∈ d.subworkflows

/-- Whatever is reached from a validated definition is validated. -/
theorem Validated.of_reachable {d s : Definition} (h : d.Validated)
    (hs : Relation.ReflTransGen Owns d s) : s.Validated := by
  induction hs with
  | refl => exact h
  | tail _ howns ih =>
    obtain ⟨id, hid⟩ := howns
    exact .owned ih hid

end Definition

namespace Validator

variable {v : Validator} {w : Workflow} {d s : Definition}

/-- The levels of what has been accepted break no rule on their own. -/
theorem check_eq_nil_of_reachable (h : v.validate w = .ok d)
    (hs : Relation.ReflTransGen Definition.Owns d s) : v.check s.workflow = [] := by
  induction hs with
  | refl =>
    obtain ⟨hcheck, rfl⟩ := validate_eq_ok_iff.1 h
    rwa [Definition.workflow_ofValidated]
  | tail _ howns ih =>
    obtain ⟨id, hid⟩ := howns
    exact Definition.check_eq_nil_of_mem_subworkflows ih hid

/-- They are accepted, and become what they are. -/
theorem validate_of_reachable (h : v.validate w = .ok d)
    (hs : Relation.ReflTransGen Definition.Owns d s) : v.validate s.workflow = .ok s :=
  validate_workflow_iff.2 (check_eq_nil_of_reachable h hs)

theorem admits_of_reachable (h : v.validate w = .ok d)
    (hs : Relation.ReflTransGen Definition.Owns d s) : v.Admits s.workflow :=
  (check_eq_nil_iff.1 (check_eq_nil_of_reachable h hs) [] _ .top).2

end Validator

namespace CatalogBuilder

/-- The types of all nodes, at whatever level, stand for something in the catalog. -/
theorem exists_resolve_of_reachable (b : CatalogBuilder) {config : ValidatorConfig} {w : Workflow}
    {d s : Definition} (h : (b.validator config).validate w = .ok d)
    (hs : Relation.ReflTransGen Definition.Owns d s) {n : Definition.Node} (hn : n ∈ s.nodes) :
    ∃ t, b.assemble.1.resolve n.nodeType = .ok t := by
  rw [← b.consistent_assemble.isValid_iff_resolve, Catalog.isValid_iff]
  exact (Validator.admits_of_reachable h hs).known _ (Definition.mem_nodes_workflow hn)

/-- Every level of an accepted workflow is accepted on its own by the same validator, and becomes
the same definition. So the ids of every level are distinct, there is one input node without a
parent and no other, all types stand for something in the catalog, the parent of a node is another
node of its level, and both ends of a link are nodes of its level. -/
theorem validate_levels (b : CatalogBuilder) {config : ValidatorConfig} {w : Workflow}
    {d s : Definition} (h : (b.validator config).validate w = .ok d)
    (hs : Relation.ReflTransGen Definition.Owns d s) :
    (b.validator config).validate s.workflow = .ok s ∧
    (s.nodes.map NodeEntry.id).Nodup ∧
    (∃ entry, (s.nodes.filter fun n => n.parentId.isNone && n.nodeType == config.inputType) =
      [entry]) ∧
    (∀ n ∈ s.nodes, ∃ t, b.assemble.1.resolve n.nodeType = .ok t) ∧
    (∀ n ∈ s.nodes, ∀ parent, n.parentId = some parent →
      parent ≠ n.id ∧ ∃ m ∈ s.nodes, m.id = parent) ∧
    ∀ l ∈ s.links, (∃ m ∈ s.nodes, m.id = l.sourceId) ∧ ∃ m ∈ s.nodes, m.id = l.targetId := by
  have hadmits := Validator.admits_of_reachable h hs
  have hmem {id : String} (hid : id ∈ s.workflow.ids) : ∃ m ∈ s.nodes, m.id = id := by
    rwa [Definition.ids_workflow, List.mem_map] at hid
  refine ⟨Validator.validate_of_reachable h hs, ?_, ?_,
    fun n hn => b.exists_resolve_of_reachable h hs hn, ?_, ?_⟩
  · rw [← Definition.ids_workflow]
    exact hadmits.nodup_ids
  · obtain ⟨n, hroots⟩ := hadmits.exists_roots_eq
    rw [Definition.roots_workflow] at hroots
    obtain ⟨entry, hentry, -⟩ := List.map_eq_singleton_iff.1 hroots
    exact ⟨entry, hentry⟩
  · intro n hn parent hparent
    have hnode : n.mapOwned Definition.workflow ∈ s.workflow.nodes := by
      rw [Definition.nodes_workflow]
      exact List.mem_map_of_mem hn
    obtain ⟨hne, hid⟩ := hadmits.parents _ hnode parent hparent
    exact ⟨hne, hmem hid⟩
  · intro l hl
    rw [← Definition.links_workflow] at hl
    exact ⟨hmem (hadmits.ends l hl).1, hmem (hadmits.ends l hl).2⟩

/-- The innermost of three levels, one of whose nodes has a deprecated type. -/
def innermostLevel : Workflow :=
  ⟨[⟨"in", none, none, "InputNode", [], none, none⟩,
    ⟨"again", some "in", none, "RepeatNode", [], none, none⟩],
    [⟨"in", "x", "again", "x", none⟩], []⟩

/-- A loop around a loop, as deep as the validator lets it be. -/
def loopInLoop : Workflow :=
  ⟨[⟨"in", none, none, "InputNode", [], none, none⟩,
    ⟨"outer", none, none, "LoopNode", [], none, some ⟨[
      ⟨"inner", none, none, "LoopNode", [], none, some innermostLevel⟩,
      ⟨"in", none, none, "InputNode", [], none, none⟩], [], []⟩⟩], [], []⟩

theorem validate_innermostLevel :
    (renamedTypes.validator ⟨"InputNode", "OutputNode", 2⟩).validate loopInLoop =
      .ok (.ofValidated loopInLoop) ∧
    Relation.ReflTransGen Definition.Owns (.ofValidated loopInLoop)
      (.ofValidated innermostLevel) ∧
    (renamedTypes.validator ⟨"InputNode", "OutputNode", 2⟩).validate innermostLevel =
      .ok (.ofValidated innermostLevel) := by
  have haccepted : (renamedTypes.validator ⟨"InputNode", "OutputNode", 2⟩).validate loopInLoop =
      .ok (.ofValidated loopInLoop) := rfl
  have hreachable : Relation.ReflTransGen Definition.Owns (.ofValidated loopInLoop)
      (.ofValidated innermostLevel) :=
    .head ⟨"outer", List.mem_singleton_self _⟩ (.single ⟨"inner", List.mem_singleton_self _⟩)
  have hlevel := (validate_levels renamedTypes haccepted hreachable).1
  rw [Definition.workflow_ofValidated] at hlevel
  exact ⟨haccepted, hreachable, hlevel⟩

end CatalogBuilder

end TypedWorkflow
