import TypedWorkflow.Proofs.Entries
import TypedWorkflow.Proofs.Workflow.RepeatedIds

/-!
# The report of a validator

A validator reports what is wrong with a workflow level by level. What the report of a level has to
be is said here rule by rule, and what the report of a workflow has to be by going down the levels:
first the level itself, then in node order the levels that its nodes own, each named by the chain of
its owners. A level with a chain that is too long is reported for that alone. The report of the
validator is the only one of this kind.

## Main definitions

* `Workflow.ind`: induction on the nesting of workflows.
* `Catalog.Knows`: the names that a catalog knows.
* `Validator.LevelReport`, `Validator.Report`: what the reports of a level and of a workflow are.
* `Validator.levelReport_iff`: the rules that a level breaks are found.
* `Validator.check_eq_iff_report`: the validator gives the report.
-/

namespace TypedWorkflow

/-- Induction on workflows: the statement may be assumed of every level that a node owns. -/
@[elab_as_elim]
theorem Workflow.ind {motive : Workflow → Prop}
    (level : ∀ w : Workflow,
      (∀ n ∈ w.nodes, ∀ s, n.subworkflow = some s → motive s) → motive w)
    (w : Workflow) : motive w := by
  refine @Workflow.rec motive (fun nodes => ∀ n ∈ nodes, ∀ s, n.subworkflow = some s → motive s)
    (fun n => ∀ s, n.subworkflow = some s → motive s) (fun owned => ∀ s, owned = some s → motive s)
    ?_ ?_ ?_ ?_ ?_ ?_ w
  · intro nodes links inputs hnodes
    exact level ⟨nodes, links, inputs⟩ hnodes
  · simp
  · intro n nodes hn hnodes
    exact List.forall_mem_cons.2 ⟨hn, hnodes⟩
  · intro id parent title type config coordinates owned howned
    exact howned
  · simp
  · intro s hs t ht
    exact Option.some.inj ht ▸ hs

/-! ## Known names -/

namespace Catalog

/-- A name of a supported type or a deprecated name. -/
def Knows (c : Catalog) (name : String) : Prop :=
  name ∈ c.supported.map Prod.fst ∨ name ∈ c.aliases.map Prod.fst

theorem isValid_iff {c : Catalog} {name : String} : c.isValid name = true ↔ c.Knows name := by
  rw [isValid, isDeprecated, Bool.or_eq_true]
  exact or_congr Entries.isSome_lookup_iff Entries.isSome_lookup_iff

instance (c : Catalog) (name : String) : Decidable (c.Knows name) :=
  decidable_of_iff _ isValid_iff

end Catalog

/-! ## One level -/

/-- The report of a rule, if it is broken. -/
def Rule.brokenIf (rule : Rule) (p : Prop) [Decidable p] : List Rule :=
  if p then [rule] else []

namespace Validator

/-- The number of input nodes without a parent. -/
def inputNodes (v : Validator) (w : Workflow) : Nat :=
  w.nodes.countP fun n => n.parentId = none ∧ n.nodeType = v.config.inputType

/-- The number of output nodes, with or without a parent. -/
def outputNodes (v : Validator) (w : Workflow) : Nat :=
  w.nodes.countP fun n => n.nodeType = v.config.outputType

/-- What is wrong with a node of a level: its type is unknown; it is its own parent, or else its
parent is no node of the level. -/
def nodeReport (v : Validator) (w : Workflow) (n : Workflow.Node) : List Rule :=
  (Rule.unknownNodeType n.id n.nodeType).brokenIf (¬ v.catalog.Knows n.nodeType) ++
    n.parentId.toList.flatMap fun parent =>
      (Rule.selfParent n.id).brokenIf (parent = n.id) ++
        (Rule.danglingParent n.id parent).brokenIf (parent ≠ n.id ∧ parent ∉ w.ids)

/-- What is wrong with a link of a level: its source, and then its target, is no node of the
level. -/
def linkReport (w : Workflow) (l : Link) : List Rule :=
  [l.sourceId, l.targetId].flatMap fun id =>
    (Rule.danglingLink l.sourceId l.targetId id).brokenIf (id ∉ w.ids)

/-- The rules that a level breaks, apart from the levels inside. -/
def LevelReport (v : Validator) (w : Workflow) (rules : List Rule) : Prop :=
  ∃ repeated, Repeats w.ids repeated ∧ rules =
    repeated.map .duplicateNodeId ++
    (Rule.inputNodeCount v.config.inputType (v.inputNodes w)).brokenIf (v.inputNodes w ≠ 1) ++
    (Rule.outputNodeCount v.config.outputType (v.outputNodes w)).brokenIf (1 < v.outputNodes w) ++
    w.nodes.flatMap (v.nodeReport w) ++
    w.links.flatMap (linkReport w)

theorem inputCount_eq (v : Validator) (w : Workflow) :
    v.inputCount w = (Rule.inputNodeCount v.config.inputType (v.inputNodes w)).brokenIf
      (v.inputNodes w ≠ 1) := by
  have hcount : (w.roots v.config.inputType).length = v.inputNodes w := by
    rw [Workflow.roots, ← List.countP_eq_length_filter, inputNodes]
    refine List.countP_congr fun n _ => ?_
    simp
  rw [inputCount, hcount]
  simp [Rule.brokenIf]

theorem outputCount_eq (v : Validator) (w : Workflow) :
    v.outputCount w = (Rule.outputNodeCount v.config.outputType (v.outputNodes w)).brokenIf
      (1 < v.outputNodes w) := by
  have hcount : (w.nodes.filter fun n => n.nodeType == v.config.outputType).length =
      v.outputNodes w := by
    rw [← List.countP_eq_length_filter, outputNodes]
    refine List.countP_congr fun n _ => ?_
    simp
  rw [outputCount, hcount, Rule.brokenIf]
  grind

theorem nodeReport_eq (v : Validator) (w : Workflow) (n : Workflow.Node) :
    v.typeOfNode n ++ parentOfNode w.ids n = v.nodeReport w n := by
  have htype : v.typeOfNode n =
      (Rule.unknownNodeType n.id n.nodeType).brokenIf (¬ v.catalog.Knows n.nodeType) := by
    by_cases hknown : v.catalog.Knows n.nodeType
    · rw [typeOfNode, if_pos (Catalog.isValid_iff.2 hknown), Rule.brokenIf,
        if_neg (not_not.2 hknown)]
    · rw [typeOfNode, if_neg (mt Catalog.isValid_iff.1 hknown), Rule.brokenIf, if_pos hknown]
  rw [htype, nodeReport, parentOfNode]
  cases n.parentId with
  | none => rfl
  | some parent =>
    simp only [Option.toList_some, List.flatMap_singleton, Rule.brokenIf, List.contains_eq_mem]
    grind

theorem endsOfLink_eq (w : Workflow) : endsOfLink w.ids = linkReport w := by
  funext l
  simp only [endsOfLink, linkReport, Rule.brokenIf, List.contains_eq_mem]
  grind

/-- The rules that a level breaks, in the terms in which they are said. -/
theorem checkLevel_eq (v : Validator) (w : Workflow) :
    v.checkLevel w = (repeatedIds [] [] w.ids).map .duplicateNodeId ++
      (Rule.inputNodeCount v.config.inputType (v.inputNodes w)).brokenIf (v.inputNodes w ≠ 1) ++
      (Rule.outputNodeCount v.config.outputType (v.outputNodes w)).brokenIf
        (1 < v.outputNodes w) ++
      w.nodes.flatMap (v.nodeReport w) ++ w.links.flatMap (linkReport w) := by
  simp only [checkLevel, duplicateIds, inputCount_eq, outputCount_eq, nodeReport_eq, endsOfLink_eq]

/-- The rules that a level breaks are found. -/
theorem levelReport_iff {v : Validator} {w : Workflow} {rules : List Rule} :
    v.LevelReport w rules ↔ rules = v.checkLevel w := by
  have hfound := repeats_repeatedIds w.ids
  rw [checkLevel_eq]
  constructor
  · rintro ⟨repeated, hrepeated, rfl⟩
    rw [hrepeated.unique hfound]
  · rintro rfl
    exact ⟨_, hfound, rfl⟩

/-! ## All levels -/

mutual

/-- The report of the level at a location and of the levels inside: the level itself comes first. -/
inductive Report (v : Validator) : Location → Workflow → List RuleViolation → Prop where
  | level {location : Location} {w : Workflow} {rules : List Rule} {inside : List RuleViolation}
      (hrules : v.LevelReport w rules) (hinside : OwnedReport v location w.nodes inside) :
      Report v location w (rules.map (⟨location, ·⟩) ++ inside)

/-- The report of the levels that nodes own, in node order. -/
inductive OwnedReport (v : Validator) :
    Location → List Workflow.Node → List RuleViolation → Prop where
  | nil {location : Location} : OwnedReport v location [] []
  | leaf {location : Location} {n : Workflow.Node} {rest : List Workflow.Node}
      {others : List RuleViolation} (hn : n.subworkflow = none)
      (hrest : OwnedReport v location rest others) : OwnedReport v location (n :: rest) others
  | tooDeep {location : Location} {n : Workflow.Node} {s : Workflow} {rest : List Workflow.Node}
      {others : List RuleViolation} (hn : n.subworkflow = some s)
      (hdepth : v.config.maxDepth < (location ++ [n.id]).length)
      (hrest : OwnedReport v location rest others) :
      OwnedReport v location (n :: rest)
        (⟨location ++ [n.id], .maxDepthExceeded v.config.maxDepth⟩ :: others)
  | nested {location : Location} {n : Workflow.Node} {s : Workflow} {rest : List Workflow.Node}
      {own others : List RuleViolation} (hn : n.subworkflow = some s)
      (hdepth : (location ++ [n.id]).length ≤ v.config.maxDepth)
      (hown : Report v (location ++ [n.id]) s own)
      (hrest : OwnedReport v location rest others) :
      OwnedReport v location (n :: rest) (own ++ others)

end

/-- The violations of the level that a node owns, if it owns one. -/
def checkNode (v : Validator) (location : Location) (n : Workflow.Node) : List RuleViolation :=
  match n.subworkflow with
  | none => []
  | some s =>
    if v.config.maxDepth < (location ++ [n.id]).length then
      [⟨location ++ [n.id], .maxDepthExceeded v.config.maxDepth⟩]
    else v.checkAt (location ++ [n.id]) s

theorem checkOwned_eq (v : Validator) (location : Location) (nodes : List Workflow.Node) :
    v.checkOwned location nodes = nodes.flatMap (v.checkNode location) := by
  induction nodes with
  | nil => rw [checkOwned, List.flatMap_nil]
  | cons n rest ih =>
    obtain ⟨id, parent, title, type, config, coordinates, owned⟩ := n
    cases owned with
    | none => rw [checkOwned, ih]; rfl
    | some s => rw [checkOwned, ih]; rfl

theorem checkAt_eq (v : Validator) (location : Location) (w : Workflow) :
    v.checkAt location w =
      (v.checkLevel w).map (⟨location, ·⟩) ++ w.nodes.flatMap (v.checkNode location) := by
  obtain ⟨nodes, links, inputs⟩ := w
  rw [checkAt, checkOwned_eq]

theorem ownedReport_iff {v : Validator} {location : Location} {nodes : List Workflow.Node}
    (ih : ∀ n ∈ nodes, ∀ s, n.subworkflow = some s → ∀ location vs,
      v.Report location s vs ↔ vs = v.checkAt location s) {vs : List RuleViolation} :
    v.OwnedReport location nodes vs ↔ vs = nodes.flatMap (v.checkNode location) := by
  induction nodes generalizing vs with
  | nil =>
    constructor
    · rintro ⟨⟩
      rfl
    · rintro rfl
      exact .nil
  | cons n rest ihrest =>
    obtain ⟨hn, hrest⟩ := List.forall_mem_cons.1 ih
    rw [List.flatMap_cons, checkNode]
    constructor
    · rintro (_ | ⟨hleaf, hothers⟩ | ⟨howned, hdepth, hothers⟩ | ⟨howned, hdepth, hown, hothers⟩)
      · rw [(ihrest hrest).1 hothers, hleaf, List.nil_append]
      · rw [(ihrest hrest).1 hothers, howned]
        dsimp only
        rw [if_pos hdepth, List.singleton_append]
      · rw [(ihrest hrest).1 hothers, (hn _ howned _ _).1 hown, howned]
        dsimp only
        rw [if_neg (Nat.not_lt.2 hdepth)]
    · rintro rfl
      have hothers := (ihrest hrest).2 rfl
      cases howned : n.subworkflow with
      | none => exact .leaf howned hothers
      | some s =>
        dsimp only
        split
        case isTrue hdepth => exact .tooDeep howned hdepth hothers
        case isFalse hdepth =>
          exact .nested howned (Nat.not_lt.1 hdepth) ((hn s howned _ _).2 rfl) hothers

theorem report_iff {v : Validator} {location : Location} {w : Workflow} {vs : List RuleViolation} :
    v.Report location w vs ↔ vs = v.checkAt location w := by
  induction w using Workflow.ind generalizing location vs with
  | level w ih =>
    have howned (inside : List RuleViolation) : v.OwnedReport location w.nodes inside ↔
        inside = w.nodes.flatMap (v.checkNode location) :=
      ownedReport_iff fun n hn s hs _ _ => ih n hn s hs
    rw [checkAt_eq]
    constructor
    · rintro ⟨hrules, hinside⟩
      rw [levelReport_iff.1 hrules, (howned _).1 hinside]
    · rintro rfl
      exact .level (levelReport_iff.2 rfl) ((howned _).2 rfl)

/-- The validator gives the report of a workflow, and no other. -/
theorem check_eq_iff_report {v : Validator} {w : Workflow} {vs : List RuleViolation} :
    v.check w = vs ↔ v.Report [] w vs := by
  rw [report_iff, check, eq_comm]

end Validator

end TypedWorkflow
