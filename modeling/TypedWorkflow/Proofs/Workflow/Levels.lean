import TypedWorkflow.Proofs.Workflow.Report

/-!
# Levels and their violations

A chain of owners leads from a workflow to the levels inside. A broken rule is reported for a
location exactly if a level that breaks it is found there and does not lie too deep, so that every
question about a report comes down to a question about one level.

## Main definitions

* `Workflow.LevelAt`: the levels at a location.
* `Validator.mem_check_iff`: which broken rules of levels are reported.
* `Validator.unknownNodeType_mem_check_iff`: which nodes are reported for their types.
-/

namespace TypedWorkflow

/-- The chain of owners leads to the level. A chain may lead to several levels, where ids are
repeated. -/
inductive Workflow.LevelAt : Workflow → Location → Workflow → Prop where
  | top {w : Workflow} : LevelAt w [] w
  | owned {w s level : Workflow} {n : Workflow.Node} {location : Location} (hn : n ∈ w.nodes)
      (hs : n.subworkflow = some s) (h : LevelAt s location level) :
      LevelAt w (n.id :: location) level

theorem Workflow.levelAt_nil_iff {w level : Workflow} : w.LevelAt [] level ↔ level = w := by
  constructor
  · rintro ⟨⟩
    rfl
  · rintro rfl
    exact .top

theorem Workflow.levelAt_cons_iff {w level : Workflow} {id : String} {location : Location} :
    w.LevelAt (id :: location) level ↔ ∃ n ∈ w.nodes, n.id = id ∧
      ∃ s, n.subworkflow = some s ∧ s.LevelAt location level := by
  constructor
  · rintro (_ | ⟨hn, hs, h⟩)
    exact ⟨_, hn, rfl, _, hs, h⟩
  · rintro ⟨n, hn, rfl, s, hs, h⟩
    exact .owned hn hs h

namespace Validator

variable {v : Validator}

/-- A rule that a level breaks, as opposed to one about its depth, is reported below a location
exactly if a level that is looked into breaks it. -/
theorem mem_checkAt_iff {rule : Rule} (hrule : ∀ depth, rule ≠ .maxDepthExceeded depth)
    {base location : Location} {w : Workflow} :
    ⟨location, rule⟩ ∈ v.checkAt base w ↔ ∃ inner level, location = base ++ inner ∧
      w.LevelAt inner level ∧ (inner = [] ∨ location.length ≤ v.config.maxDepth) ∧
      rule ∈ v.checkLevel level := by
  induction w using Workflow.ind generalizing base with
  | level w ih =>
    rw [checkAt_eq, List.mem_append, List.mem_map, List.mem_flatMap]
    constructor
    · rintro (⟨rule, hmem, heq⟩ | ⟨n, hn, hmem⟩)
      · obtain ⟨rfl, rfl⟩ := RuleViolation.mk.inj heq
        exact ⟨[], w, by simp, .top, .inl rfl, hmem⟩
      · cases hs : n.subworkflow with
        | none => simp [checkNode, hs] at hmem
        | some s =>
          simp only [checkNode, hs] at hmem
          split at hmem
          case isTrue => simp [hrule] at hmem
          case isFalse hdepth =>
            obtain ⟨inner, level, rfl, hlevel, hinner, hbroken⟩ := (ih n hn s hs).1 hmem
            refine ⟨n.id :: inner, level, by simp, .owned hn hs hlevel, .inr ?_, hbroken⟩
            rcases hinner with rfl | hinner
            · simpa using hdepth
            · exact hinner
    · rintro ⟨inner, level, rfl, hlevel, hinner, hbroken⟩
      cases hlevel with
      | top => exact .inl ⟨rule, hbroken, by simp⟩
      | @owned _ s _ n inner hn hs hlevel =>
        refine .inr ⟨n, hn, ?_⟩
        have hshallow := hinner.resolve_left (List.cons_ne_nil _ _)
        have hdepth : ¬ v.config.maxDepth < (base ++ [n.id]).length := by
          simp only [List.length_append, List.length_cons, List.length_nil] at hshallow ⊢
          omega
        simp only [checkNode, hs]
        rw [if_neg hdepth, ih n hn s hs]
        exact ⟨inner, level, by simp, hlevel, .inr hshallow, hbroken⟩

/-- A rule that a level breaks, as opposed to one about its depth, is reported exactly if a level
that does not lie too deep breaks it. -/
theorem mem_check_iff {rule : Rule} (hrule : ∀ depth, rule ≠ .maxDepthExceeded depth)
    {location : Location} {w : Workflow} :
    ⟨location, rule⟩ ∈ v.check w ↔ ∃ level, w.LevelAt location level ∧
      location.length ≤ v.config.maxDepth ∧ rule ∈ v.checkLevel level := by
  rw [check, mem_checkAt_iff hrule]
  constructor
  · rintro ⟨inner, level, rfl, hlevel, hinner, hbroken⟩
    refine ⟨level, hlevel, ?_, hbroken⟩
    rcases hinner with rfl | hinner
    · exact Nat.zero_le _
    · exact hinner
  · rintro ⟨level, hlevel, hdepth, hbroken⟩
    exact ⟨location, level, rfl, hlevel, .inr hdepth, hbroken⟩

/-! ## Unknown types -/

theorem unknownNodeType_mem_nodeRules_iff {ids : List String} {n : Workflow.Node}
    {id name : String} :
    .unknownNodeType id name ∈ v.typeOfNode n ++ parentOfNode ids n ↔
      n.id = id ∧ n.nodeType = name ∧ v.catalog.isValid name = false := by
  have hparent : .unknownNodeType id name ∉ parentOfNode ids n := by
    rw [parentOfNode]
    split
    · simp
    · split
      · simp
      · split <;> simp
  rw [List.mem_append, or_iff_left hparent, typeOfNode]
  split
  case isTrue hvalid =>
    simp only [List.not_mem_nil, false_iff]
    rintro ⟨-, rfl, hinvalid⟩
    simp [hvalid] at hinvalid
  case isFalse hvalid =>
    rw [Bool.not_eq_true] at hvalid
    constructor
    · intro h
      obtain ⟨rfl, rfl⟩ := Rule.unknownNodeType.inj (List.mem_singleton.1 h)
      exact ⟨rfl, rfl, hvalid⟩
    · rintro ⟨rfl, rfl, -⟩
      exact List.mem_singleton_self _

theorem unknownNodeType_mem_checkLevel_iff {w : Workflow} {id name : String} :
    .unknownNodeType id name ∈ v.checkLevel w ↔
      ∃ n ∈ w.nodes, n.id = id ∧ n.nodeType = name ∧ v.catalog.isValid name = false := by
  have hids : .unknownNodeType id name ∉ duplicateIds w := by simp [duplicateIds]
  have hinputs : .unknownNodeType id name ∉ v.inputCount w := by
    rw [inputCount]
    split <;> simp
  have houtputs : .unknownNodeType id name ∉ v.outputCount w := by
    rw [outputCount]
    split <;> simp
  have hlinks : .unknownNodeType id name ∉ w.links.flatMap (endsOfLink w.ids) := by
    simp [endsOfLink]
  simp only [checkLevel, List.mem_append, hids, hinputs, houtputs, hlinks, false_or, or_false]
  rw [List.mem_flatMap]
  exact exists_congr fun n => and_congr_right fun _ => unknownNodeType_mem_nodeRules_iff

/-- A node is reported for its type exactly if the type is unknown and the level of the node does
not lie too deep. -/
theorem unknownNodeType_mem_check_iff {w : Workflow} {location : Location} {id name : String} :
    ⟨location, .unknownNodeType id name⟩ ∈ v.check w ↔ v.catalog.isValid name = false ∧
      ∃ level, w.LevelAt location level ∧ location.length ≤ v.config.maxDepth ∧
        ∃ n ∈ level.nodes, n.id = id ∧ n.nodeType = name := by
  rw [mem_check_iff (by simp)]
  simp only [unknownNodeType_mem_checkLevel_iff]
  constructor
  · rintro ⟨level, hlevel, hdepth, n, hn, hid, htype, hinvalid⟩
    exact ⟨hinvalid, level, hlevel, hdepth, n, hn, hid, htype⟩
  · rintro ⟨hinvalid, level, hlevel, hdepth, n, hn, hid, htype⟩
    exact ⟨level, hlevel, hdepth, n, hn, hid, htype, hinvalid⟩

end Validator

end TypedWorkflow
