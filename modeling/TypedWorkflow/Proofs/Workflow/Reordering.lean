import Mathlib.Logic.Relation
import TypedWorkflow.Proofs.Workflow.Deprecation

/-!
# The order of nodes and links

The nodes of a level and its links are lists, and the report of a validator follows them, as does
the search for repeated ids, which depends on what has been met before. The order decides only where
something is reported. What is reported, and how often, is the same for any order of the nodes and
links, at any number of levels; so it is the same workflows that are accepted. Nodes that share an
id are no exception: the levels that they own are at one location, and both are looked into.

## Main definitions

* `Workflow.Reordered`: the nodes and links of one level in another order.
* `Validator.checkLevel_perm`: what a level breaks does not depend on its order.
* `Validator.checkAt_perm`: what a workflow breaks does not depend on the order of one level.
* `Validator.check_perm_of_reordered`: nor does it depend on the order of many levels.
-/

namespace TypedWorkflow

/-- The nodes and the links of one level, at whatever depth, stand in another order. -/
inductive Workflow.Reordered : Workflow → Workflow → Prop where
  | here {nodes others : List Workflow.Node} {links rest : List Link} {inputs : List Json.Entries}
      (hnodes : nodes.Perm others) (hlinks : links.Perm rest) :
      Reordered ⟨nodes, links, inputs⟩ ⟨others, rest, inputs⟩
  | owned {before after : List Workflow.Node} {n : Workflow.Node} {s t : Workflow}
      {links : List Link} {inputs : List Json.Entries} (hs : n.subworkflow = some s)
      (h : Reordered s t) :
      Reordered ⟨before ++ n :: after, links, inputs⟩
        ⟨before ++ { n with subworkflow := some t } :: after, links, inputs⟩

namespace Validator

variable {v : Validator}

/-! ## One level -/

/-- The ids that are repeated do not depend on the order. -/
theorem repeatedIds_perm {ids others : List String} (h : ids.Perm others) :
    (repeatedIds [] [] ids).Perm (repeatedIds [] [] others) := by
  have hids := repeats_repeatedIds ids
  have hothers := repeats_repeatedIds others
  rw [List.perm_ext_iff_of_nodup hids.nodup hothers.nodup]
  intro id
  rw [hids.mem_iff, hothers.mem_iff, h.count_eq]

section Level

variable {nodes others : List Workflow.Node} {links rest : List Link} {inputs : List Json.Entries}

theorem ids_perm (h : nodes.Perm others) :
    (⟨nodes, links, inputs⟩ : Workflow).ids.Perm (⟨others, rest, inputs⟩ : Workflow).ids :=
  h.map NodeEntry.id

theorem mem_ids_perm (h : nodes.Perm others) (links rest : List Link)
    (inputs : List Json.Entries) (id : String) :
    id ∈ (⟨nodes, links, inputs⟩ : Workflow).ids ↔
      id ∈ (⟨others, rest, inputs⟩ : Workflow).ids :=
  (ids_perm h).mem_iff

/-- What is wrong with a node depends on which ids there are. -/
theorem nodeReport_perm (h : nodes.Perm others) :
    v.nodeReport ⟨nodes, links, inputs⟩ = v.nodeReport ⟨others, rest, inputs⟩ := by
  funext n
  simp only [nodeReport, mem_ids_perm h links rest inputs]

/-- What is wrong with a link depends on which ids there are. -/
theorem linkReport_perm (h : nodes.Perm others) :
    linkReport ⟨nodes, links, inputs⟩ = linkReport ⟨others, rest, inputs⟩ := by
  funext l
  simp only [linkReport, mem_ids_perm h links rest inputs]

/-- What a level breaks does not depend on the order of its nodes and links. -/
theorem checkLevel_perm (hnodes : nodes.Perm others) (hlinks : links.Perm rest) :
    (v.checkLevel ⟨nodes, links, inputs⟩).Perm (v.checkLevel ⟨others, rest, inputs⟩) := by
  have hinputs : v.inputNodes ⟨nodes, links, inputs⟩ = v.inputNodes ⟨others, rest, inputs⟩ :=
    hnodes.countP_eq _
  have houtputs : v.outputNodes ⟨nodes, links, inputs⟩ = v.outputNodes ⟨others, rest, inputs⟩ :=
    hnodes.countP_eq _
  rw [checkLevel_eq, checkLevel_eq, hinputs, houtputs, nodeReport_perm hnodes,
    linkReport_perm hnodes]
  refine .append (.append ?_ (hnodes.flatMap_right _)) (hlinks.flatMap_right _)
  exact .append_right _ (.append_right _ ((repeatedIds_perm (ids_perm hnodes)).map _))

end Level

/-! ## All levels -/

/-- What a workflow breaks does not depend on the order of one of its levels. -/
theorem checkAt_perm {w u : Workflow} (h : w.Reordered u) (location : Location) :
    (v.checkAt location w).Perm (v.checkAt location u) := by
  induction h generalizing location with
  | here hnodes hlinks =>
    rw [checkAt_eq, checkAt_eq]
    exact .append ((checkLevel_perm hnodes hlinks).map _) (hnodes.flatMap_right _)
  | @owned before after n s t links inputs hs _ ih =>
    have hrules : v.checkLevel ⟨before ++ n :: after, links, inputs⟩ =
        v.checkLevel ⟨before ++ { n with subworkflow := some t } :: after, links, inputs⟩ :=
      checkLevel_congr rfl rfl rfl Iff.rfl Iff.rfl
    have hinside : (v.checkNode location n).Perm
        (v.checkNode location { n with subworkflow := some t }) := by
      simp only [checkNode, hs]
      split
      · exact .refl _
      · exact ih _
    rw [checkAt_eq, checkAt_eq, hrules]
    simp only [List.flatMap_append, List.flatMap_cons]
    exact .append_left _ (.append_left _ (hinside.append_right _))

/-- Whatever levels have their nodes and links in another order: the same violations are reported,
each as often as before, and the same workflows are accepted. -/
theorem check_perm_of_reordered (v : Validator) {w u : Workflow}
    (h : Relation.ReflTransGen Workflow.Reordered w u) :
    (v.check w).Perm (v.check u) ∧
      ((∃ d, v.validate w = .ok d) ↔ ∃ d, v.validate u = .ok d) := by
  have hperm : (v.check w).Perm (v.check u) := by
    induction h with
    | refl => exact .refl _
    | tail _ hstep ih => exact ih.trans (checkAt_perm hstep [])
  have hnil : v.check w = [] ↔ v.check u = [] := by
    rw [← List.length_eq_zero_iff, ← List.length_eq_zero_iff, hperm.length_eq]
  refine ⟨hperm, ?_⟩
  simp only [validate_eq_ok_iff, exists_and_left, exists_eq, and_true, hnil]

/-- Two nodes share an id. One owns a level with the given links, the other one without nodes. -/
def twins (links : List Link) : List Workflow.Node :=
  [⟨"twin", none, none, "LoopNode", [], none,
      some ⟨[⟨"in", none, none, "InputNode", [], none, none⟩], links, []⟩⟩,
    ⟨"twin", none, none, "LoopNode", [], none, some .empty⟩]

/-- A link from the input node to a node that is not there. -/
def strayLink (target : String) : Link :=
  ⟨"in", "x", target, "x", none⟩

theorem reordered_twins : Relation.ReflTransGen Workflow.Reordered
    ⟨twins [strayLink "a", strayLink "b"], [], []⟩
    ⟨(twins [strayLink "b", strayLink "a"]).reverse, [], []⟩ := by
  have hlinks : Workflow.Reordered ⟨twins [strayLink "a", strayLink "b"], [], []⟩
      ⟨twins [strayLink "b", strayLink "a"], [], []⟩ :=
    @Workflow.Reordered.owned [] _ _ _ _ [] [] rfl (.here (.refl _) (.swap _ _ []))
  have hnodes : Workflow.Reordered ⟨twins [strayLink "b", strayLink "a"], [], []⟩
      ⟨(twins [strayLink "b", strayLink "a"]).reverse, [], []⟩ :=
    .here (List.reverse_perm _).symm (.refl _)
  exact .head hlinks (.single hnodes)

theorem check_perm_twins :
    (CatalogBuilder.renamedTypes.validator .standard).check
        ⟨twins [strayLink "a", strayLink "b"], [], []⟩ =
      [⟨[], .duplicateNodeId "twin"⟩, ⟨[], .inputNodeCount "InputNode" 0⟩,
        ⟨["twin"], .danglingLink "in" "a" "a"⟩, ⟨["twin"], .danglingLink "in" "b" "b"⟩,
        ⟨["twin"], .inputNodeCount "InputNode" 0⟩] ∧
    ((CatalogBuilder.renamedTypes.validator .standard).check
        ⟨(twins [strayLink "b", strayLink "a"]).reverse, [], []⟩).Perm
      [⟨[], .duplicateNodeId "twin"⟩, ⟨[], .inputNodeCount "InputNode" 0⟩,
        ⟨["twin"], .danglingLink "in" "a" "a"⟩, ⟨["twin"], .danglingLink "in" "b" "b"⟩,
        ⟨["twin"], .inputNodeCount "InputNode" 0⟩] := by
  have hreport : (CatalogBuilder.renamedTypes.validator .standard).check
      ⟨twins [strayLink "a", strayLink "b"], [], []⟩ =
      [⟨[], .duplicateNodeId "twin"⟩, ⟨[], .inputNodeCount "InputNode" 0⟩,
        ⟨["twin"], .danglingLink "in" "a" "a"⟩, ⟨["twin"], .danglingLink "in" "b" "b"⟩,
        ⟨["twin"], .inputNodeCount "InputNode" 0⟩] := rfl
  have hperm := (check_perm_of_reordered (CatalogBuilder.renamedTypes.validator .standard)
    reordered_twins).1
  exact ⟨hreport, hreport ▸ hperm.symm⟩

end Validator

end TypedWorkflow
