import Mathlib.Combinatorics.Pigeonhole
import TypedWorkflow.Proofs.Graph.TopologicalOrder
import TypedWorkflow.Proofs.Workflow.AcceptedLevels

/-!
# Parents

A node may name another node of its level as its parent, and the parent may name one in turn. In an
accepted workflow every name leads to a node of the level, so that the walk from parent to parent
can only stop at a node without one. As a level is finite, the walk that does not stop comes to a
node a second time, and then it goes round for ever. The validator rules out that a node is its own
parent, but not the longer rings: whether they occur decides whether the nodes form a forest.

## Main definitions

* `Definition.parent?`, `Definition.ancestor?`: the parent of a node, and what a number of steps
  from parent to parent leads to.
* `Definition.InRing`: nodes that the walk leads back to.
* `Validator.parents_end_iff`: the walks that stop are those that meet no ring.
-/

namespace TypedWorkflow

namespace Definition

/-- The node of the level that a node names as its parent. -/
def parent? (d : Definition) (n : Node) : Option Node :=
  n.parentId.bind d.node?

/-- The node that so many steps from parent to parent lead to. -/
def ancestor? (d : Definition) : Nat → Node → Option Node
  | 0, n => some n
  | k + 1, n => (d.parent? n).bind (d.ancestor? k)

/-- A node that steps from parent to parent lead back to. -/
def InRing (d : Definition) (n : Node) : Prop :=
  ∃ k, d.ancestor? (k + 1) n = some n

variable {d : Definition} {n m e : Node} {j k : Nat}

/-! ## Walking up -/

theorem ancestor?_add (d : Definition) (j k : Nat) (n : Node) :
    d.ancestor? (j + k) n = (d.ancestor? j n).bind (d.ancestor? k) := by
  induction j generalizing n with
  | zero => simp [ancestor?]
  | succ j ih =>
    rw [Nat.add_right_comm, ancestor?, ancestor?, Option.bind_assoc]
    exact Option.bind_congr fun p _ => ih p

theorem ancestor?_succ_eq_none (hk : d.ancestor? k n = some m) (hm : m.parentId = none) :
    d.ancestor? (k + 1) n = none := by
  rw [ancestor?_add, hk, Option.bind_some, ancestor?, parent?, hm]
  rfl

/-- Where a number of steps leads somewhere, fewer do. -/
theorem exists_ancestor?_of_le (hk : d.ancestor? k n = some m) (hj : j ≤ k) :
    ∃ e, d.ancestor? j n = some e := by
  obtain ⟨i, rfl⟩ := Nat.exists_eq_add_of_le hj
  obtain ⟨e, he, -⟩ := Option.bind_eq_some_iff.1 (ancestor?_add d j i n ▸ hk)
  exact ⟨e, he⟩

theorem ancestor?_mem (hn : n ∈ d.nodes) (hk : d.ancestor? k n = some m) : m ∈ d.nodes := by
  induction k generalizing n with
  | zero => rwa [← Option.some.inj hk]
  | succ k ih =>
    obtain ⟨p, hp, hrest⟩ := Option.bind_eq_some_iff.1 hk
    obtain ⟨id, -, hfound⟩ := Option.bind_eq_some_iff.1 hp
    exact ih (List.mem_of_find?_eq_some hfound) hrest

/-! ## Rings -/

/-- From a node in a ring the walk never stops. -/
theorem InRing.exists_ancestor? (h : d.InRing n) (k : Nat) : ∃ e, d.ancestor? k n = some e := by
  obtain ⟨length, hround⟩ := h
  -- `k` rounds lead back to the node, and are no fewer than `k` steps
  have hrounds : d.ancestor? ((length + 1) * k) n = some n := by
    induction k with
    | zero => rfl
    | succ k ih => rw [Nat.mul_succ, ancestor?_add, ih, Option.bind_some, hround]
  exact exists_ancestor?_of_le hrounds (Nat.le_mul_of_pos_left k length.succ_pos)

/-- A walk that stops meets no ring. -/
theorem not_inRing_of_ends (hk : d.ancestor? k n = some m) (hm : m.parentId = none)
    (hj : d.ancestor? j n = some e) : ¬ d.InRing e := by
  intro hring
  obtain ⟨e', he'⟩ := hring.exists_ancestor? (k + 1)
  have hfar : d.ancestor? (j + (k + 1)) n = some e' := by
    rw [ancestor?_add, hj, Option.bind_some, he']
  obtain ⟨e'', he''⟩ := exists_ancestor?_of_le hfar (Nat.le_add_left (k + 1) j)
  simp [ancestor?_succ_eq_none hk hm] at he''

/-- A walk of as many steps as there are nodes meets a ring. -/
theorem exists_inRing (hn : n ∈ d.nodes) (hk : d.ancestor? d.nodes.length n = some m) :
    ∃ j e, d.ancestor? j n = some e ∧ d.InRing e := by
  classical
  obtain ⟨walk, hwalk⟩ : ∃ walk : Nat → Node,
      ∀ j ≤ d.nodes.length, d.ancestor? j n = some (walk j) := by
    refine ⟨fun j => (d.ancestor? j n).getD n, fun j hj => ?_⟩
    obtain ⟨e, he⟩ := exists_ancestor?_of_le hk hj
    simp only [he, Option.getD_some]
  -- these are more steps than nodes, so two of them lead to the same one
  have hcard : d.nodes.toFinset.card < (Finset.range (d.nodes.length + 1)).card := by
    rw [Finset.card_range]
    exact Nat.lt_succ_of_le (List.toFinset_card_le d.nodes)
  have hmaps : ∀ j ∈ Finset.range (d.nodes.length + 1), walk j ∈ d.nodes.toFinset := fun j hj =>
    List.mem_toFinset.2 (ancestor?_mem hn (hwalk j (Finset.mem_range_succ_iff.1 hj)))
  obtain ⟨i, hi, j, hj, hne, heq⟩ := Finset.exists_ne_map_eq_of_card_lt_of_maps_to hcard hmaps
  wlog hlt : i < j generalizing i j
  · exact this j hj i hi hne.symm heq.symm (by omega)
  obtain ⟨r, rfl⟩ := Nat.exists_eq_add_of_lt hlt
  have hfirst := hwalk i (Finset.mem_range_succ_iff.1 hi)
  have hsecond := hwalk (i + r + 1) (Finset.mem_range_succ_iff.1 hj)
  rw [Nat.add_assoc, ancestor?_add, hfirst, Option.bind_some, ← Nat.add_assoc, ← heq] at hsecond
  exact ⟨i, walk i, hfirst, r, hsecond⟩

/-- A walk that stops takes fewer steps than there are nodes. -/
theorem lt_length_of_ends (hn : n ∈ d.nodes) (hk : d.ancestor? k n = some m)
    (hm : m.parentId = none) : k < d.nodes.length := by
  by_contra hlong
  obtain ⟨e, he⟩ := exists_ancestor?_of_le hk (Nat.le_of_not_lt hlong)
  obtain ⟨j, e, hj, hring⟩ := exists_inRing hn he
  exact not_inRing_of_ends hk hm hj hring

end Definition

namespace Validator

variable {v : Validator} {w : Workflow} {d s : Definition}

/-! ## Accepted workflows -/

/-- The parent that a node names is another node of its level. -/
theorem exists_parent?_eq_some (h : v.validate w = .ok d)
    (hs : Relation.ReflTransGen Definition.Owns d s) {n : Definition.Node} (hn : n ∈ s.nodes)
    {id : String} (hid : n.parentId = some id) :
    ∃ p ∈ s.nodes, s.parent? n = some p ∧ p.id = id ∧ p ≠ n := by
  obtain ⟨hne, hmem⟩ :=
    (admits_of_reachable h hs).parents _ (Definition.mem_nodes_workflow hn) id hid
  rw [Definition.ids_workflow, List.mem_map] at hmem
  obtain ⟨p, hp, rfl⟩ := hmem
  have hvalidated : s.Validated := (Definition.Validated.accepted h).of_reachable hs
  refine ⟨p, hp, ?_, rfl, fun hpn => hne (congrArg NodeEntry.id hpn)⟩
  rw [Definition.parent?, hid, Option.bind_some, hvalidated.node?_of_mem hp]

/-- Unless it comes to a node without a parent, the walk goes on. -/
theorem exists_ancestor?_of_parents (h : v.validate w = .ok d)
    (hs : Relation.ReflTransGen Definition.Owns d s) {n : Definition.Node} (hn : n ∈ s.nodes)
    (hparents : ∀ k m, s.ancestor? k n = some m → m.parentId ≠ none) (k : Nat) :
    ∃ m, s.ancestor? k n = some m := by
  induction k with
  | zero => exact ⟨n, rfl⟩
  | succ k ih =>
    obtain ⟨m, hm⟩ := ih
    obtain ⟨id, hid⟩ := Option.ne_none_iff_exists'.1 (hparents k m hm)
    obtain ⟨p, -, hp, -⟩ := exists_parent?_eq_some h hs (Definition.ancestor?_mem hn hm) hid
    refine ⟨p, ?_⟩
    rw [Definition.ancestor?_add, hm, Option.bind_some, Definition.ancestor?, hp]
    rfl

theorem ends_iff_of_reachable (h : v.validate w = .ok d)
    (hs : Relation.ReflTransGen Definition.Owns d s) {n : Definition.Node} (hn : n ∈ s.nodes) :
    (∃ k m, s.ancestor? k n = some m ∧ m.parentId = none) ↔
      ∀ k m, s.ancestor? k n = some m → ¬ s.InRing m := by
  constructor
  · rintro ⟨k, m, hk, hm⟩ j e hj
    exact Definition.not_inRing_of_ends hk hm hj
  · intro hnone
    by_contra hgoes
    have hparents : ∀ k m, s.ancestor? k n = some m → m.parentId ≠ none :=
      fun k m hk hm => hgoes ⟨k, m, hk, hm⟩
    obtain ⟨m, hm⟩ := exists_ancestor?_of_parents h hs hn hparents s.nodes.length
    obtain ⟨j, e, hj, hring⟩ := Definition.exists_inRing hn hm
    exact hnone j e hj hring

/-- At every level of an accepted workflow the parents that nodes name are other nodes of the level.
The walk from a node to its parent and on comes to a node without a parent exactly if it meets no
node that it would come back to, and then in fewer steps than the level has nodes. So the walks from
all nodes of a level stop exactly if no two or more of the nodes form a ring. -/
theorem parents_end_iff (h : v.validate w = .ok d)
    (hs : Relation.ReflTransGen Definition.Owns d s) :
    (∀ n ∈ s.nodes, ∀ id, n.parentId = some id →
      ∃ p ∈ s.nodes, s.parent? n = some p ∧ p.id = id ∧ p ≠ n) ∧
    (∀ n ∈ s.nodes,
      ((∃ k m, s.ancestor? k n = some m ∧ m.parentId = none) ↔
        ∀ k m, s.ancestor? k n = some m → ¬ s.InRing m) ∧
      ∀ k m, s.ancestor? k n = some m → m.parentId = none → k < s.nodes.length) ∧
    ((∀ n ∈ s.nodes, ∃ k m, s.ancestor? k n = some m ∧ m.parentId = none) ↔
      ∀ n ∈ s.nodes, ¬ s.InRing n) := by
  refine ⟨fun n hn id hid => exists_parent?_eq_some h hs hn hid,
    fun n hn => ⟨ends_iff_of_reachable h hs hn, fun k m => Definition.lt_length_of_ends hn⟩,
    fun hall n hn => ?_, fun hnone n hn => ?_⟩
  · exact (ends_iff_of_reachable h hs hn).1 (hall n hn) 0 n rfl
  · exact (ends_iff_of_reachable h hs hn).2 fun k m hk => hnone m (Definition.ancestor?_mem hn hk)

/-- A level with a loop in a loop in a loop. -/
def groupedLevel : Workflow :=
  ⟨[⟨"innermost", some "inner", none, "FixedIterationLoopNode", [], none, none⟩,
    ⟨"in", none, none, "InputNode", [], none, none⟩,
    ⟨"outer", none, none, "FixedIterationLoopNode", [], none, none⟩,
    ⟨"inner", some "outer", none, "FixedIterationLoopNode", [], none, none⟩], [], []⟩

/-- A workflow that has it inside. -/
def groupedSample : Workflow :=
  ⟨[⟨"in", none, none, "InputNode", [], none, none⟩,
    ⟨"body", some "in", none, "FixedIterationLoopNode", [], none, some groupedLevel⟩], [], []⟩

theorem parents_end_groupedSample :
    standard.validate groupedSample = .ok (.ofValidated groupedSample) ∧
    Relation.ReflTransGen Definition.Owns (.ofValidated groupedSample)
      (.ofValidated groupedLevel) ∧
    (∀ n ∈ (Definition.ofValidated groupedLevel).nodes, ∃ k m,
      (Definition.ofValidated groupedLevel).ancestor? k n = some m ∧ m.parentId = none) ∧
    ∀ n ∈ (Definition.ofValidated groupedLevel).nodes,
      ¬ (Definition.ofValidated groupedLevel).InRing n := by
  have haccepted : standard.validate groupedSample = .ok (.ofValidated groupedSample) := rfl
  have hreachable : Relation.ReflTransGen Definition.Owns (.ofValidated groupedSample)
      (.ofValidated groupedLevel) :=
    .single ⟨"body", List.mem_singleton_self _⟩
  have hends : ∀ n ∈ (Definition.ofValidated groupedLevel).nodes, ∃ k m,
      (Definition.ofValidated groupedLevel).ancestor? k n = some m ∧ m.parentId = none :=
    List.forall_mem_cons.2 ⟨⟨2, _, rfl, rfl⟩, List.forall_mem_cons.2 ⟨⟨0, _, rfl, rfl⟩,
      List.forall_mem_cons.2 ⟨⟨0, _, rfl, rfl⟩, List.forall_mem_singleton.2 ⟨1, _, rfl, rfl⟩⟩⟩⟩
  exact ⟨haccepted, hreachable, hends, (parents_end_iff haccepted hreachable).2.2.1 hends⟩

/-- Two loops, each of which is the parent of the other. -/
def ringSample : Workflow :=
  ⟨[⟨"in", none, none, "InputNode", [], none, none⟩,
    ⟨"a", some "b", none, "FixedIterationLoopNode", [], none, none⟩,
    ⟨"b", some "a", none, "FixedIterationLoopNode", [], none, none⟩], [], []⟩

/-- Not every walk stops: two nodes that are the parents of each other are accepted. -/
theorem not_parents_end :
    ¬ ∀ (v : Validator) (w : Workflow) (d s : Definition), v.validate w = .ok d →
      Relation.ReflTransGen Definition.Owns d s → ∀ n ∈ s.nodes,
        ∃ k m, s.ancestor? k n = some m ∧ m.parentId = none := by
  intro hall
  have haccepted : standard.validate ringSample = .ok (.ofValidated ringSample) := rfl
  let a : Definition.Node := ⟨"a", some "b", none, "FixedIterationLoopNode", [], none, none⟩
  have ha : a ∈ (Definition.ofValidated ringSample).nodes :=
    List.mem_cons_of_mem _ List.mem_cons_self
  have hring : (Definition.ofValidated ringSample).InRing a := ⟨1, rfl⟩
  obtain ⟨k, m, hk, hm⟩ := hall _ _ _ _ haccepted .refl a ha
  exact Definition.not_inRing_of_ends (j := 0) hk hm rfl hring

end Validator

end TypedWorkflow
