import TypedWorkflow.Proofs.Workflow.Levels

/-!
# Accepted workflows

What a validator wants of a level is said here without the violations that it would report. A level
breaks no rule exactly if it is admitted, and a workflow breaks none exactly if all its levels are
admitted and none lies too deep. Nothing else is looked at: neither the order in which levels are
visited, nor what a node holds apart from its id, its parent, its type and the level that it owns.

## Main definitions

* `Validator.Admits`: what a validator wants of a level.
* `Validator.checkLevel_eq_nil_iff`: a level breaks no rule if it is admitted.
* `Validator.check_eq_nil_iff`: a workflow breaks none if all its levels are admitted.
-/

namespace TypedWorkflow

theorem Rule.brokenIf_eq_nil_iff {rule : Rule} {p : Prop} [Decidable p] :
    rule.brokenIf p = [] ↔ ¬ p := by
  rw [brokenIf]
  split <;> simp_all

namespace Validator

variable {v : Validator}

/-- No id is reported exactly if the ids are distinct. -/
theorem repeatedIds_eq_nil_iff {ids : List String} : repeatedIds [] [] ids = [] ↔ ids.Nodup := by
  rw [List.eq_nil_iff_forall_not_mem, List.nodup_iff_count_le_one]
  refine forall_congr' fun id => ?_
  rw [(repeats_repeatedIds ids).mem_iff]
  omega

/-! ## One level -/

/-- What a validator wants of a level, apart from the levels inside. -/
structure Admits (v : Validator) (w : Workflow) : Prop where
  nodup_ids : w.ids.Nodup
  one_input : v.inputNodes w = 1
  outputs_le_one : v.outputNodes w ≤ 1
  known : ∀ n ∈ w.nodes, v.catalog.Knows n.nodeType
  parents : ∀ n ∈ w.nodes, ∀ parent, n.parentId = some parent → parent ≠ n.id ∧ parent ∈ w.ids
  ends : ∀ l ∈ w.links, l.sourceId ∈ w.ids ∧ l.targetId ∈ w.ids

theorem nodeReport_eq_nil_iff {w : Workflow} {n : Workflow.Node} :
    v.nodeReport w n = [] ↔ v.catalog.Knows n.nodeType ∧
      ∀ parent, n.parentId = some parent → parent ≠ n.id ∧ parent ∈ w.ids := by
  rw [nodeReport, List.append_eq_nil_iff, List.flatMap_eq_nil_iff, Rule.brokenIf_eq_nil_iff,
    not_not]
  refine and_congr_right fun _ => forall_congr' fun parent => ?_
  rw [Option.mem_toList, List.append_eq_nil_iff, Rule.brokenIf_eq_nil_iff,
    Rule.brokenIf_eq_nil_iff]
  tauto

theorem linkReport_eq_nil_iff {w : Workflow} {l : Link} :
    linkReport w l = [] ↔ l.sourceId ∈ w.ids ∧ l.targetId ∈ w.ids := by
  simp [linkReport, Rule.brokenIf_eq_nil_iff]

/-- A level breaks no rule exactly if it is admitted. -/
theorem checkLevel_eq_nil_iff {w : Workflow} : v.checkLevel w = [] ↔ v.Admits w := by
  simp only [checkLevel_eq, List.append_eq_nil_iff, List.map_eq_nil_iff, List.flatMap_eq_nil_iff,
    repeatedIds_eq_nil_iff, Rule.brokenIf_eq_nil_iff, nodeReport_eq_nil_iff, linkReport_eq_nil_iff]
  constructor
  · rintro ⟨⟨⟨⟨hids, hinputs⟩, houtputs⟩, hnodes⟩, hlinks⟩
    exact ⟨hids, not_not.1 hinputs, Nat.not_lt.1 houtputs, fun n hn => (hnodes n hn).1,
      fun n hn => (hnodes n hn).2, hlinks⟩
  · intro h
    exact ⟨⟨⟨⟨h.nodup_ids, not_not.2 h.one_input⟩, Nat.not_lt.2 h.outputs_le_one⟩,
      fun n hn => ⟨h.known n hn, h.parents n hn⟩⟩, h.ends⟩

/-- There is one input node without a parent, and only one. -/
theorem Admits.exists_roots_eq {w : Workflow} (h : v.Admits w) :
    ∃ n, w.roots v.config.inputType = [n] := by
  have hbroken : v.inputCount w = [] := by
    rw [inputCount_eq, Rule.brokenIf_eq_nil_iff, not_not, h.one_input]
  rw [inputCount] at hbroken
  split at hbroken
  case isTrue hone => exact List.length_eq_one_iff.1 hone
  case isFalse => cases hbroken

/-! ## All levels -/

theorem checkNode_eq_nil_iff {location : Location} {n : Workflow.Node} :
    v.checkNode location n = [] ↔ ∀ s, n.subworkflow = some s →
      (location ++ [n.id]).length ≤ v.config.maxDepth ∧ v.checkAt (location ++ [n.id]) s = [] := by
  rw [checkNode]
  cases n.subworkflow with
  | none => simp
  | some s =>
    simp only [Option.some.injEq, forall_eq']
    -- a level that lies too deep is reported for that
    split
    case isTrue hdepth => simp only [List.cons_ne_nil, Nat.not_le.2 hdepth, false_and]
    case isFalse hdepth => simp only [Nat.not_lt.1 hdepth, true_and]

/-- Below a location nothing is reported exactly if all levels from there on are admitted, and those
inside do not lie too deep. -/
theorem checkAt_eq_nil_iff {base : Location} {w : Workflow} :
    v.checkAt base w = [] ↔ ∀ inner level, w.LevelAt inner level →
      (inner = [] ∨ (base ++ inner).length ≤ v.config.maxDepth) ∧ v.Admits level := by
  induction w using Workflow.ind generalizing base with
  | level w ih =>
    rw [checkAt_eq, List.append_eq_nil_iff, List.map_eq_nil_iff, checkLevel_eq_nil_iff,
      List.flatMap_eq_nil_iff]
    simp only [checkNode_eq_nil_iff]
    constructor
    · rintro ⟨hlevel, hnodes⟩ inner level h
      cases h with
      | top => exact ⟨.inl rfl, hlevel⟩
      | @owned _ s _ n inner hn hs h =>
        obtain ⟨hdepth, hcheck⟩ := hnodes n hn s hs
        obtain ⟨hinner, hadmitted⟩ := (ih n hn s hs).1 hcheck inner level h
        rw [List.append_assoc, List.singleton_append] at hinner
        refine ⟨.inr ?_, hadmitted⟩
        rcases hinner with rfl | hinner
        · exact hdepth
        · exact hinner
    · intro hall
      refine ⟨(hall [] w .top).2, fun n hn s hs => ⟨?_, (ih n hn s hs).2 fun inner level h => ?_⟩⟩
      · exact (hall [n.id] s (.owned hn hs .top)).1.resolve_left (List.cons_ne_nil _ _)
      · obtain ⟨hdepth, hadmitted⟩ := hall (n.id :: inner) level (.owned hn hs h)
        refine ⟨.inr ?_, hadmitted⟩
        rw [List.append_assoc]
        exact hdepth.resolve_left (List.cons_ne_nil _ _)

/-- A workflow breaks no rule exactly if all its levels are admitted and none lies too deep. -/
theorem check_eq_nil_iff {w : Workflow} :
    v.check w = [] ↔ ∀ location level, w.LevelAt location level →
      location.length ≤ v.config.maxDepth ∧ v.Admits level := by
  rw [check, checkAt_eq_nil_iff]
  refine forall₃_congr fun location level _ => and_congr_left fun _ => ?_
  rw [List.nil_append, or_iff_right_iff_imp]
  rintro rfl
  exact Nat.zero_le _

/-- What breaks no rule at its level and below does not do so from a level inside either: it lies
less deep there. -/
theorem check_eq_nil_of_owned {w s : Workflow} {n : Workflow.Node} (h : v.check w = [])
    (hn : n ∈ w.nodes) (hs : n.subworkflow = some s) : v.check s = [] := by
  rw [check_eq_nil_iff] at h ⊢
  intro location level hlevel
  obtain ⟨hdepth, hadmitted⟩ := h (n.id :: location) level (.owned hn hs hlevel)
  rw [List.length_cons] at hdepth
  exact ⟨Nat.le_of_succ_le hdepth, hadmitted⟩

end Validator

end TypedWorkflow
