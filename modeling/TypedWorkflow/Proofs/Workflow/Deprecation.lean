import TypedWorkflow.Proofs.Catalog.Consistency
import TypedWorkflow.Proofs.Workflow.Definition

/-!
# Deprecated names in workflows

A node may have a deprecated type, and the rule that types must be known takes the replacement just
the same. The two rules that count the nodes of the designated types do not look at the catalog:
they compare names. So all that can change when a deprecated name gives way to its replacement are
these counts, and they do change, in some workflow, as soon as one of the two names is designated.

## Main definitions

* `Workflow.Retyped`: workflows that differ in the type of one node.
* `Validator.exists_checkLevel_eq`: what a node has to do with the rules of its level.
* `Validator.filter_checkAt_of_retyped`: what is kept at a level is kept at all levels.
* `CatalogBuilder.check_retyped`: when a deprecated name and its replacement are interchangeable.
* `CatalogBuilder.not_check_retyped`: they are not, where the replacement is designated.
-/

namespace TypedWorkflow

/-- The workflows differ in one node, at some level, that has the one type in the first and the
other in the second. -/
inductive Workflow.Retyped (old new : String) : Workflow → Workflow → Prop where
  | here {before after : List Workflow.Node} {n : Workflow.Node} {links : List Link}
      {inputs : List Json.Entries} (hn : n.nodeType = old) :
      Retyped old new ⟨before ++ n :: after, links, inputs⟩
        ⟨before ++ { n with nodeType := new } :: after, links, inputs⟩
  | owned {before after : List Workflow.Node} {n : Workflow.Node} {s t : Workflow}
      {links : List Link} {inputs : List Json.Entries} (hs : n.subworkflow = some s)
      (h : Retyped old new s t) :
      Retyped old new ⟨before ++ n :: after, links, inputs⟩
        ⟨before ++ { n with subworkflow := some t } :: after, links, inputs⟩

/-- The rules about the number of nodes of a type. -/
def Rule.countsNodes : Rule → Bool
  | .inputNodeCount _ _ | .outputNodeCount _ _ => true
  | _ => false

namespace Validator

variable {v : Validator}

/-! ## One level -/

section Level

variable {n m : Workflow.Node} {before after : List Workflow.Node} {links : List Link}
  {inputs : List Json.Entries}

/-- The rules that a level breaks, apart from the counts, depend on a node by its id, its parent and
the rules that its type breaks. -/
theorem exists_checkLevel_eq (before after : List Workflow.Node) (links : List Link)
    (inputs : List Json.Entries) (hid : n.id = m.id) (hparent : n.parentId = m.parentId)
    (htype : v.typeOfNode n = v.typeOfNode m) :
    ∃ first last,
      v.checkLevel ⟨before ++ n :: after, links, inputs⟩ =
        first ++ v.inputCount ⟨before ++ n :: after, links, inputs⟩ ++
          v.outputCount ⟨before ++ n :: after, links, inputs⟩ ++ last ∧
      v.checkLevel ⟨before ++ m :: after, links, inputs⟩ =
        first ++ v.inputCount ⟨before ++ m :: after, links, inputs⟩ ++
          v.outputCount ⟨before ++ m :: after, links, inputs⟩ ++ last := by
  have hids : (⟨before ++ n :: after, links, inputs⟩ : Workflow).ids =
      (⟨before ++ m :: after, links, inputs⟩ : Workflow).ids := by
    simp [Workflow.ids, hid]
  have hrules (ids : List String) :
      v.typeOfNode n ++ parentOfNode ids n = v.typeOfNode m ++ parentOfNode ids m := by
    rw [htype, parentOfNode, parentOfNode, hid, hparent]
  refine ⟨_, _, List.append_assoc _ _ _, ?_⟩
  rw [checkLevel, duplicateIds, duplicateIds, hids]
  simp [hrules]

theorem inputCount_congr (hparent : n.parentId = m.parentId)
    (htype : n.nodeType = v.config.inputType ↔ m.nodeType = v.config.inputType) :
    v.inputCount ⟨before ++ n :: after, links, inputs⟩ =
      v.inputCount ⟨before ++ m :: after, links, inputs⟩ := by
  have hcount : v.inputNodes ⟨before ++ n :: after, links, inputs⟩ =
      v.inputNodes ⟨before ++ m :: after, links, inputs⟩ := by
    simp only [inputNodes, List.countP_append, List.countP_cons, hparent, htype]
  simp only [inputCount_eq, hcount]

theorem outputCount_congr
    (htype : n.nodeType = v.config.outputType ↔ m.nodeType = v.config.outputType) :
    v.outputCount ⟨before ++ n :: after, links, inputs⟩ =
      v.outputCount ⟨before ++ m :: after, links, inputs⟩ := by
  have hcount : v.outputNodes ⟨before ++ n :: after, links, inputs⟩ =
      v.outputNodes ⟨before ++ m :: after, links, inputs⟩ := by
    simp only [outputNodes, List.countP_append, List.countP_cons, htype]
  simp only [outputCount_eq, hcount]

/-- Nodes with the same id and parent are interchangeable if their types break the same rules and
are counted alike. -/
theorem checkLevel_congr (hid : n.id = m.id) (hparent : n.parentId = m.parentId)
    (htype : v.typeOfNode n = v.typeOfNode m)
    (hinput : n.nodeType = v.config.inputType ↔ m.nodeType = v.config.inputType)
    (houtput : n.nodeType = v.config.outputType ↔ m.nodeType = v.config.outputType) :
    v.checkLevel ⟨before ++ n :: after, links, inputs⟩ =
      v.checkLevel ⟨before ++ m :: after, links, inputs⟩ := by
  obtain ⟨first, last, hn, hm⟩ :=
    exists_checkLevel_eq before after links inputs hid hparent htype
  rw [hn, hm, inputCount_congr hparent hinput, outputCount_congr houtput]

/-- Nodes with the same id and parent make a difference at most to the counts if their types break
the same rules. -/
theorem filter_checkLevel_congr (hid : n.id = m.id) (hparent : n.parentId = m.parentId)
    (htype : v.typeOfNode n = v.typeOfNode m) :
    (v.checkLevel ⟨before ++ n :: after, links, inputs⟩).filter (fun rule => !rule.countsNodes) =
      (v.checkLevel ⟨before ++ m :: after, links, inputs⟩).filter
        fun rule => !rule.countsNodes := by
  have hinputs (w : Workflow) : (v.inputCount w).filter (fun rule => !rule.countsNodes) = [] := by
    rw [inputCount]
    split <;> rfl
  have houtputs (w : Workflow) : (v.outputCount w).filter (fun rule => !rule.countsNodes) = [] := by
    rw [outputCount]
    split <;> rfl
  obtain ⟨first, last, hn, hm⟩ :=
    exists_checkLevel_eq before after links inputs hid hparent htype
  rw [hn, hm]
  simp only [List.filter_append, hinputs, houtputs]

end Level

/-! ## All levels -/

/-- If a change of type keeps a part of the rules that each level breaks, then it keeps this part of
the report, at whatever level it is made. -/
theorem filter_checkAt_of_retyped {old new : String} (keep : Rule → Bool)
    (hlevel : ∀ before after (n : Workflow.Node) links inputs, n.nodeType = old →
      (v.checkLevel ⟨before ++ n :: after, links, inputs⟩).filter keep =
        (v.checkLevel ⟨before ++ { n with nodeType := new } :: after, links, inputs⟩).filter keep)
    {w u : Workflow} (h : w.Retyped old new u) (location : Location) :
    (v.checkAt location w).filter (fun x => keep x.rule) =
      (v.checkAt location u).filter fun x => keep x.rule := by
  have hmap (location : Location) (rules : List Rule) :
      (rules.map (RuleViolation.mk location)).filter (fun x => keep x.rule) =
        (rules.filter keep).map (RuleViolation.mk location) :=
    List.filter_map
  induction h generalizing location with
  | @here before after n links inputs hn =>
    rw [checkAt_eq, checkAt_eq, List.filter_append, List.filter_append, hmap, hmap,
      hlevel before after n links inputs hn]
    simp [checkNode]
  | @owned before after n s t links inputs hs _ ih =>
    have hrules : v.checkLevel ⟨before ++ n :: after, links, inputs⟩ =
        v.checkLevel ⟨before ++ { n with subworkflow := some t } :: after, links, inputs⟩ :=
      checkLevel_congr rfl rfl rfl Iff.rfl Iff.rfl
    have hinside : (v.checkNode location n).filter (fun x => keep x.rule) =
        (v.checkNode location { n with subworkflow := some t }).filter fun x => keep x.rule := by
      simp only [checkNode, hs]
      split
      · rfl
      · exact ih _
    rw [checkAt_eq, checkAt_eq, hrules]
    simp [hinside]

theorem typeOfNode_of_isValid {n : Workflow.Node} (h : v.catalog.isValid n.nodeType = true) :
    v.typeOfNode n = [] := by
  rw [typeOfNode, if_pos h]

/-- From one known type to another nothing changes but the counts. -/
theorem filter_check_of_retyped {old new : String} (hold : v.catalog.isValid old = true)
    (hnew : v.catalog.isValid new = true) {w u : Workflow} (h : w.Retyped old new u) :
    (v.check w).filter (fun x => !x.rule.countsNodes) =
      (v.check u).filter fun x => !x.rule.countsNodes := by
  refine filter_checkAt_of_retyped (fun rule => !rule.countsNodes) ?_ h []
  rintro before after n links inputs rfl
  refine filter_checkLevel_congr rfl rfl ?_
  rw [typeOfNode_of_isValid hold, typeOfNode_of_isValid hnew]

/-- From one known type to another nothing changes at all if they are counted alike. -/
theorem check_of_retyped {old new : String} (hold : v.catalog.isValid old = true)
    (hnew : v.catalog.isValid new = true)
    (hinput : old = v.config.inputType ↔ new = v.config.inputType)
    (houtput : old = v.config.outputType ↔ new = v.config.outputType) {w u : Workflow}
    (h : w.Retyped old new u) : v.check w = v.check u := by
  have hall := filter_checkAt_of_retyped (v := v) (fun _ => true) ?_ h []
  · simpa [check] using hall
  rintro before after n links inputs rfl
  refine congrArg (List.filter _) (checkLevel_congr rfl rfl ?_ hinput houtput)
  rw [typeOfNode_of_isValid hold, typeOfNode_of_isValid hnew]

/-! ## Counted nodes -/

theorem mem_checkLevel_of_countsNodes {w : Workflow} {rule : Rule} (h : rule.countsNodes = true) :
    rule ∈ v.checkLevel w ↔ rule ∈ v.inputCount w ∨ rule ∈ v.outputCount w := by
  have hids : rule ∉ duplicateIds w := by
    cases rule <;> simp_all [duplicateIds, Rule.countsNodes]
  have hnodes : ∀ n : Workflow.Node, rule ∉ v.typeOfNode n ++ parentOfNode w.ids n := by
    intro n
    grind [typeOfNode, parentOfNode, Rule.countsNodes]
  have hlinks : rule ∉ w.links.flatMap (endsOfLink w.ids) := by
    cases rule <;> simp_all [endsOfLink, Rule.countsNodes]
  simp [checkLevel, hids, hlinks, hnodes]

/-- The number of input nodes is reported exactly if it is not one. -/
theorem inputNodeCount_mem_check_iff {w : Workflow} {found : Nat} :
    ⟨[], .inputNodeCount v.config.inputType found⟩ ∈ v.check w ↔
      found = v.inputNodes w ∧ v.inputNodes w ≠ 1 := by
  rw [mem_check_iff (by simp)]
  simp only [Workflow.levelAt_nil_iff, List.length_nil, Nat.zero_le, true_and, exists_eq_left]
  rw [mem_checkLevel_of_countsNodes rfl, inputCount_eq, outputCount_eq]
  simp only [Rule.brokenIf]
  grind

/-- The number of output nodes is reported exactly if it is more than one. -/
theorem outputNodeCount_mem_check_iff {w : Workflow} {found : Nat} :
    ⟨[], .outputNodeCount v.config.outputType found⟩ ∈ v.check w ↔
      found = v.outputNodes w ∧ 1 < v.outputNodes w := by
  rw [mem_check_iff (by simp)]
  simp only [Workflow.levelAt_nil_iff, List.length_nil, Nat.zero_le, true_and, exists_eq_left]
  rw [mem_checkLevel_of_countsNodes rfl, inputCount_eq, outputCount_eq]
  simp only [Rule.brokenIf]
  grind

/-- A node of a type and nothing else. -/
def plainNode (nodeType : String) : Workflow.Node :=
  ⟨"node", none, none, nodeType, [], none, none⟩

theorem retyped_plainNode (old new : String) (rest : List Workflow.Node) :
    Workflow.Retyped old new ⟨plainNode old :: rest, [], []⟩ ⟨plainNode new :: rest, [], []⟩ :=
  @Workflow.Retyped.here old new [] rest (plainNode old) [] [] rfl

/-- A single node is reported as no input node exactly if it is none. -/
theorem no_inputNode_reported_iff (nodeType : String) :
    ⟨[], .inputNodeCount v.config.inputType 0⟩ ∈ v.check ⟨[plainNode nodeType], [], []⟩ ↔
      nodeType ≠ v.config.inputType := by
  rw [inputNodeCount_mem_check_iff]
  by_cases h : nodeType = v.config.inputType <;> simp [inputNodes, plainNode, h]

/-- A node beside an output node is reported as the second one exactly if it is one. -/
theorem two_outputNodes_reported_iff (nodeType : String) :
    ⟨[], .outputNodeCount v.config.outputType 2⟩ ∈
        v.check ⟨[plainNode nodeType, plainNode v.config.outputType], [], []⟩ ↔
      nodeType = v.config.outputType := by
  rw [outputNodeCount_mem_check_iff]
  by_cases h : nodeType = v.config.outputType <;> simp [outputNodes, plainNode, h]

/-- Where a change of type changes no report, the two types are counted alike. -/
theorem counted_alike_of_check {old new : String}
    (h : ∀ w u, Workflow.Retyped old new w u → v.check w = v.check u) :
    (old = v.config.inputType ↔ new = v.config.inputType) ∧
      (old = v.config.outputType ↔ new = v.config.outputType) := by
  constructor
  · have hcheck := h _ _ (retyped_plainNode old new [])
    rw [← not_iff_not, ← ne_eq, ← ne_eq, ← no_inputNode_reported_iff, hcheck,
      no_inputNode_reported_iff]
  · have hcheck := h _ _ (retyped_plainNode old new [plainNode v.config.outputType])
    rw [← two_outputNodes_reported_iff, hcheck, two_outputNodes_reported_iff]

end Validator

/-! ## Deprecated names -/

/-- The validator over the catalog of a builder. -/
def CatalogBuilder.validator (b : CatalogBuilder) (config : ValidatorConfig) : Validator :=
  ⟨b.assemble.1, config⟩

theorem Catalog.Consistent.isValid_of_replacement? {c : Catalog} (h : c.Consistent)
    {name replacement : String} (hname : c.replacement? name = some replacement) :
    c.isValid name = true ∧ c.isValid replacement = true ∧ name ≠ replacement := by
  obtain ⟨d, hd⟩ := h.exists_find?_of_replacement? hname
  refine ⟨by simp [isValid, isDeprecated, hname], by simp [isValid, hd], ?_⟩
  rintro rfl
  rw [h.find?_eq_none_of_replacement? hname] at hd
  cases hd

namespace CatalogBuilder

/-- If a node has its deprecated type replaced, then nothing changes in the report but the counts of
input and output nodes. And nothing changes at all, in any workflow, exactly if neither the
deprecated name nor its replacement is the type of the input or of the output nodes. -/
theorem check_retyped (b : CatalogBuilder) (config : ValidatorConfig) {old new : String}
    (h : b.assemble.1.replacement? old = some new) :
    (∀ w u, Workflow.Retyped old new w u →
      ((b.validator config).check w).filter (fun x => !x.rule.countsNodes) =
        ((b.validator config).check u).filter fun x => !x.rule.countsNodes) ∧
    ((∀ w u, Workflow.Retyped old new w u →
        (b.validator config).check w = (b.validator config).check u ∧
        ((∃ d, (b.validator config).validate w = .ok d) ↔
          ∃ d, (b.validator config).validate u = .ok d)) ↔
      (old ≠ config.inputType ∧ old ≠ config.outputType) ∧
        new ≠ config.inputType ∧ new ≠ config.outputType) := by
  obtain ⟨hold, hnew, hne⟩ := b.consistent_assemble.isValid_of_replacement? h
  refine ⟨fun w u hwu => Validator.filter_check_of_retyped hold hnew hwu, ?_, ?_⟩
  · intro hall
    obtain ⟨hinput, houtput⟩ := Validator.counted_alike_of_check fun w u hwu => (hall w u hwu).1
    -- two different names are not both designated for the same purpose
    change (old = config.inputType ↔ new = config.inputType) at hinput
    change (old = config.outputType ↔ new = config.outputType) at houtput
    grind
  · rintro ⟨⟨holdinput, holdoutput⟩, hnewinput, hnewoutput⟩ w u hwu
    have hcheck : (b.validator config).check w = (b.validator config).check u :=
      Validator.check_of_retyped hold hnew (iff_of_false holdinput hnewinput)
        (iff_of_false holdoutput hnewoutput) hwu
    refine ⟨hcheck, ?_⟩
    simp only [Validator.validate_eq_ok_iff, hcheck, exists_and_left, exists_eq, and_true]

/-- A catalog in which the names of two types have been changed, that of the input node and that of
a loop. -/
def renamedTypes : CatalogBuilder :=
  ((((empty.register ⟨"InputNode", "primitives", "nodes", "InputNode", none⟩).register
    ⟨"LoopNode", "loops", "nodes", "LoopNode", none⟩).addDeprecated
    ⟨"StartNode", "deprecated", "nodes", "StartNode", none⟩ "InputNode").addDeprecated
    ⟨"RepeatNode", "deprecated", "nodes", "RepeatNode", none⟩ "LoopNode")

/-- A level without an input node, whose only node names a parent that is not there. -/
def strayLevel (nodeType : String) : Workflow :=
  ⟨[⟨"inner", some "gone", none, nodeType, [], none, none⟩], [], []⟩

/-- A loop that owns such a level. -/
def nestedLoops (nodeType : String) : Workflow :=
  ⟨[⟨"in", none, none, "InputNode", [], none, none⟩,
    ⟨"outer", none, none, "LoopNode", [], none, some (strayLevel nodeType)⟩], [], []⟩

theorem retyped_nestedLoops (old new : String) :
    Workflow.Retyped old new (nestedLoops old) (nestedLoops new) := by
  have hinner : Workflow.Retyped old new (strayLevel old) (strayLevel new) :=
    @Workflow.Retyped.here old new [] [] ⟨"inner", some "gone", none, old, [], none, none⟩ [] [] rfl
  exact @Workflow.Retyped.owned old new [⟨"in", none, none, "InputNode", [], none, none⟩] []
    ⟨"outer", none, none, "LoopNode", [], none, some (strayLevel old)⟩ _ _ [] [] rfl hinner

theorem check_retyped_nestedLoops :
    renamedTypes.assemble.1.replacement? "RepeatNode" = some "LoopNode" ∧
    (renamedTypes.validator .standard).check (nestedLoops "RepeatNode") =
      [⟨["outer"], .inputNodeCount "InputNode" 0⟩,
        ⟨["outer"], .danglingParent "inner" "gone"⟩] ∧
    (renamedTypes.validator .standard).check (nestedLoops "LoopNode") =
      [⟨["outer"], .inputNodeCount "InputNode" 0⟩,
        ⟨["outer"], .danglingParent "inner" "gone"⟩] := by
  have hname : renamedTypes.assemble.1.replacement? "RepeatNode" = some "LoopNode" := rfl
  have hreport : (renamedTypes.validator .standard).check (nestedLoops "RepeatNode") =
      [⟨["outer"], .inputNodeCount "InputNode" 0⟩, ⟨["outer"], .danglingParent "inner" "gone"⟩] :=
    rfl
  have hcheck := ((check_retyped renamedTypes .standard hname).2.2 (by decide) _ _
    (retyped_nestedLoops "RepeatNode" "LoopNode")).1
  exact ⟨hname, hreport, hcheck ▸ hreport⟩

/-- Deprecated names are not interchangeable with their replacements everywhere: a level whose input
node has a deprecated type is reported to have none. -/
theorem not_check_retyped :
    ¬ ∀ (b : CatalogBuilder) (config : ValidatorConfig) (old new : String),
      b.assemble.1.replacement? old = some new → ∀ w u, Workflow.Retyped old new w u →
        (b.validator config).check w = (b.validator config).check u := by
  intro hall
  have hcheck := hall renamedTypes .standard "StartNode" "InputNode" rfl _ _
    (Validator.retyped_plainNode "StartNode" "InputNode" [])
  have hold : (renamedTypes.validator .standard).check
      ⟨[Validator.plainNode "StartNode"], [], []⟩ = [⟨[], .inputNodeCount "InputNode" 0⟩] := rfl
  have hnew : (renamedTypes.validator .standard).check
      ⟨[Validator.plainNode "InputNode"], [], []⟩ = [] := rfl
  rw [hold, hnew] at hcheck
  cases hcheck

end CatalogBuilder

end TypedWorkflow
