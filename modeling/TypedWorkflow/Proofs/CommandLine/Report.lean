import TypedWorkflow.Proofs.Graph.Construction
import TypedWorkflow.Proofs.Node.Primitive
import TypedWorkflow.Proofs.Workflow.NestedLevels
import TypedWorkflow.Proofs.Workflow.Wire

/-!
# What a report is made of

The construction of the nodes of a workflow looks at every level for itself, whatever came of the
others. The report on a workflow puts together what the levels give, in the order of a walk through
them: the problems of the whole workflow, those of its test inputs, and then those of the levels
inside, which are preceded by their locations.

## Main definitions

* `Definition.Outcome`: what the construction of one level gives.
* `Definition.TestProblems`: what the test inputs give.
* `Report.constructInside_eq`: the levels inside, one after the other.
* `Report.ofText_by_levels`: the report on a workflow text.
-/

namespace TypedWorkflow

open Report (Construction)

theorem map_describe_nil (messages : List String) :
    messages.map (Location.describe []) = messages :=
  List.map_id' messages

/-! ## One level -/

/-- What the construction of a level gives: its cycle, or else the first error of a node in
topological order, or else the number of instances and the links that do not fit. -/
inductive Definition.Outcome (d : Definition) : Construction → Prop where
  | cyclic {id : String} (hgraph : WorkflowGraph.make d = .error (.cycle id))
      (hcycle : d.OnCycle id) : Outcome d ⟨0, [(WorkflowError.cycle id).message]⟩
  | stopped {g : WorkflowGraph} {before after : List Definition.Node} {n : Definition.Node}
      {e : WorkflowError} (hgraph : WorkflowGraph.make d = .ok g)
      (htopological : d.workflow.digraph.Topological g.order)
      (horder : g.nodes = before ++ n :: after)
      (hbefore : ∀ m ∈ before, ∀ e, ¬ m.Fails .standard none e)
      (hn : n.Fails .standard none e) : Outcome d ⟨0, [e.message]⟩
  | linked (h : d.Constructs) :
      Outcome d ⟨d.nodes.countP fun n => (n.created .standard none).isOk,
        (d.links.filterMap d.mismatch?).map LinkMismatch.message⟩

namespace Report

variable {d : Definition}

theorem instancesOf_of_cycle {id : String} (h : WorkflowGraph.make d = .error (.cycle id)) :
    instancesOf d = .error (.cycle id) := by
  rw [instancesOf, h]
  rfl

theorem instancesOf_of_make {g : WorkflowGraph} (h : WorkflowGraph.make d = .ok g) :
    instancesOf d = (g.instantiate .standard none).map fun instances => (g, instances) := by
  rw [instancesOf, h]
  rfl

theorem instancesOf_of_failure {g : WorkflowGraph} {before after : List Definition.Node}
    {n : Definition.Node} {e : WorkflowError} (hgraph : WorkflowGraph.make d = .ok g)
    (horder : g.nodes = before ++ n :: after)
    (hbefore : ∀ m ∈ before, ∀ e, ¬ m.Fails .standard none e)
    (hn : n.Fails .standard none e) : instancesOf d = .error e := by
  have hstopped : g.instantiate .standard none = .error e := by
    rw [WorkflowGraph.instantiate, horder]
    exact WorkflowGraph.instantiateNodes_of_first_failure hbefore hn
  rw [instancesOf_of_make hgraph, hstopped]
  rfl

/-- Where graph and nodes can be built, the instances are those of the level. -/
theorem instancesOf_of_constructs (hd : d.Validated) (h : d.Constructs) :
    ∃ g, instancesOf d = .ok (g, WorkflowGraph.createdInstances .standard none g.nodes) ∧
      g.definition = d ∧ g.nodes.Perm d.nodes := by
  obtain ⟨⟨g, hg⟩, hnodes⟩ := h
  obtain ⟨hdefinition, -, hperm⟩ := hd.nodes_of_make hg
  have hall : g.instantiate .standard none =
      .ok (WorkflowGraph.createdInstances .standard none g.nodes) :=
    WorkflowGraph.instantiateNodes_of_forall fun n hn => hnodes n (hperm.mem_iff.1 hn)
  refine ⟨g, ?_, hdefinition, hperm⟩
  rw [instancesOf_of_make hg, hall]
  rfl

theorem linkProblems_eq (g : WorkflowGraph) (instances : NodeInstances) :
    linkProblems g instances =
      (g.workflow.links.filterMap (WorkflowGraph.linkMismatch? instances)).map
        LinkMismatch.message := by
  rw [linkProblems, WorkflowGraph.checkLinks]
  cases g.workflow.links.filterMap (WorkflowGraph.linkMismatch? instances) <;> rfl

end Report

namespace Definition

variable {d : Definition}

/-- A level gives its outcome. -/
theorem Outcome.eq_constructLevel (hd : d.Validated) {c : Construction} (h : d.Outcome c) :
    c = Report.constructLevel [] d := by
  cases h with
  | cyclic hgraph _ =>
    rw [Report.constructLevel, Report.instancesOf_of_cycle hgraph]
    rfl
  | stopped hgraph _ horder hbefore hn =>
    rw [Report.constructLevel, Report.instancesOf_of_failure hgraph horder hbefore hn]
    rfl
  | linked hconstructs =>
    obtain ⟨g, hinstances, hdefinition, hperm⟩ := Report.instancesOf_of_constructs hd hconstructs
    have hlinks : g.workflow.links = d.links := by
      rw [WorkflowGraph.workflow, hdefinition, links_workflow]
    rw [Report.constructLevel, hinstances]
    dsimp only
    rw [WorkflowGraph.length_createdInstances, hperm.countP_eq, map_describe_nil,
      Report.linkProblems_eq, hlinks, hd.linkMismatch?_createdInstances hperm]

/-- Every level has an outcome, and no other than the one that it gives. -/
theorem Validated.outcome_iff (hd : d.Validated) {c : Construction} :
    d.Outcome c ↔ c = Report.constructLevel [] d := by
  have hexists : ∃ c, d.Outcome c := by
    rcases hd.construction_cases with ⟨id, hgraph, hcycle⟩ |
      ⟨g, before, n, after, e, hgraph, horder, hbefore, hn⟩ | hconstructs
    · exact ⟨_, .cyclic hgraph hcycle⟩
    · exact ⟨_, .stopped hgraph (hd.nodes_of_make hgraph).2.1 horder hbefore hn⟩
    · exact ⟨_, .linked hconstructs⟩
  constructor
  · intro h
    exact h.eq_constructLevel hd
  · rintro rfl
    obtain ⟨c, hc⟩ := hexists
    rwa [← hc.eq_constructLevel hd]

end Definition

/-! ## All levels -/

namespace Report

/-- What several constructions have given together. -/
def Construction.total (cs : List Construction) : Construction :=
  ⟨(cs.map Construction.count).sum, cs.flatMap Construction.problems⟩

theorem Construction.total_append (cs ds : List Construction) :
    total (cs ++ ds) = (total cs).append (total ds) := by
  simp [total, append]

/-- The location of a level stands before its problems and has no influence on them. -/
theorem constructLevel_eq (location : Location) (d : Definition) :
    constructLevel location d = ⟨(constructLevel [] d).count,
      (constructLevel [] d).problems.map location.describe⟩ := by
  rw [constructLevel, constructLevel]
  cases instancesOf d with
  | error e => rfl
  | ok built => simp only [map_describe_nil]

/-- The levels that nodes own are constructed in order, each with its location. -/
theorem constructOwned_eq {nodes : List Definition.Node}
    (h : ∀ n ∈ nodes, ∀ s, n.subworkflow = some s → ∀ location, constructInside location s =
      .total (s.nestedLevels.map fun level => constructLevel (location ++ level.1) level.2))
    (location : Location) : constructOwned location nodes =
      .total ((Definition.levelsOwned nodes).map fun level =>
        constructLevel (location ++ level.1) level.2) := by
  induction nodes with
  | nil => rfl
  | cons n rest ih =>
    obtain ⟨hn, hrest⟩ := List.forall_mem_cons.1 h
    obtain ⟨id, parent, title, type, config, coordinates, owned⟩ := n
    cases owned with
    | none => rw [constructOwned, Definition.levelsOwned, ih hrest]
    | some s =>
      rw [constructOwned, Definition.levelsOwned, Definition.levels_eq, List.map_append,
        Construction.total_append, ih hrest, hn s rfl]
      simp [Construction.append, Construction.total, Function.comp_def, Nat.add_assoc]

/-- So are all levels inside a level. -/
theorem constructInside_eq (location : Location) (d : Definition) : constructInside location d =
    .total (d.nestedLevels.map fun level => constructLevel (location ++ level.1) level.2) := by
  induction d using Definition.ind generalizing location with
  | level d ih =>
    have howned := constructOwned_eq (fun n hn s hs location => ih n hn s hs location) location
    obtain ⟨nodes, links, inputs⟩ := d
    rw [constructInside, howned, Definition.nestedLevels]

end Report

/-! ## Test inputs -/

/-- The problem of a test input with its number, if the input model of a node rejects it. -/
def NodeInstance.rejection? (i : NodeInstance) (input : Json.Entries × Nat) : Option String :=
  match i.models.input.validate (.obj input.1) with
  | .ok _ => none
  | .error e =>
    some s!"test input {input.2}: {(WorkflowError.inputValidation i.kind.name e).message}"

namespace Definition

/-- The input nodes without a parent. -/
def entryNodes (d : Definition) : List Node :=
  d.nodes.filter fun n => n.parentId.isNone && n.nodeType == "InputNode"

/-- What the test inputs of a workflow give. They are tried if its graph and nodes can be built:
then the one input node without a parent is among the instances, and there is a problem for each
input that it rejects. -/
inductive TestProblems (d : Definition) : List String → Prop where
  | untried (h : ¬ d.Constructs) : TestProblems d []
  | tried {entry : Node} {node : NodeInstance} (h : d.Constructs)
      (hentry : d.entryNodes = [entry]) (hnode : entry.created .standard none = .ok node)
      (hfound : ∀ g instances, Report.instancesOf d = .ok (g, instances) →
        instances.lookup entry.id = some node) :
      TestProblems d (d.testInputs.zipIdx.filterMap node.rejection?)

theorem TestProblems.unique {d : Definition} {problems others : List String}
    (h : d.TestProblems problems) (h' : d.TestProblems others) : problems = others := by
  cases h with
  | untried h =>
    cases h' with
    | untried => rfl
    | tried h' => exact absurd h' h
  | tried h hentry hnode =>
    cases h' with
    | untried h' => exact absurd h h'
    | tried _ hentry' hnode' =>
      rw [hentry] at hentry'
      obtain rfl := (List.cons.inj hentry').1
      rw [hnode] at hnode'
      rw [Except.ok.inj hnode']

theorem testInputs_workflow (d : Definition) : d.workflow.testInputs = d.testInputs := by
  obtain ⟨nodes, links, inputs⟩ := d
  rw [workflow]

/-- The input node can be constructed if its config allows for it, since its type has a loader. -/
theorem created_of_inputNode {n : Node} (h : n.nodeType = "InputNode") :
    n.created .standard none = NodeInstance.construct Primitive.inputNode (.obj n.config) none := by
  rw [NodeEntry.created, h]
  rfl

end Definition

namespace Report

/-- Inputs are tried one after the other, but what was tried before makes no difference. -/
theorem inputProblems_eq {config : Json} (hconfig : config.Distinct) {i : NodeInstance}
    (h : NodeInstance.construct Primitive.inputNode config none = .ok i)
    (earlier : List NodeInput) (index : Nat) (inputs : List Json.Entries) :
    inputProblems (i.after earlier) index inputs =
      (inputs.zipIdx index).filterMap i.rejection? := by
  induction inputs generalizing earlier index with
  | nil => rfl
  | cons input rest ih =>
    have hinput : (NodeInput.value (.obj input)).Genuine := trivial
    have hresult := Primitive.invoke_mirror hconfig h earlier hinput
    have hkind : i.kind.name = "input_node" :=
      congrArg NodeKind.name (NodeInstance.constructed_of_construct h).kind_eq
    have hstep : (i.after earlier).invoke (.value (.obj input)) =
        (_, i.after (earlier ++ [.value (.obj input)])) :=
      Prod.ext hresult (i.after_concat earlier _).symm
    rw [inputProblems, hstep, List.zipIdx_cons, List.filterMap_cons, NodeInstance.rejection?, hkind,
      NodeInput.toJson]
    dsimp only
    cases i.models.input.validate (.obj input) with
    | ok record => exact ih _ _
    | error e => exact congrArg _ (ih _ _)

end Report

namespace Definition

variable {d : Definition}

/-- A text that denotes a definition is read as a workflow that breaks no rule, and in which no
object repeats a key. -/
theorem exists_of_ofText {text : String} (h : ofText text = .ok d) :
    ∃ w : Workflow, w.DistinctKeys ∧ Validator.standard.validate w = .ok d := by
  rw [ofText] at h
  cases hread : Decode.ofText Workflow.decode text with
  | error e =>
    rw [hread] at h
    cases h
  | ok w =>
    rw [hread] at h
    obtain ⟨w', hdecode, hrest⟩ := Except.bind_eq_ok_iff.1 hread
    split at hrest
    · cases hrest
    · obtain rfl := Except.ok.inj hrest
      exact ⟨w', (Workflow.distinctKeys_of_decode _).1 w' hdecode, h⟩

/-- A workflow that breaks no rule has one input node without a parent. -/
theorem exists_entryNodes_eq {w : Workflow} (h : Validator.standard.validate w = .ok d) :
    ∃ entry, d.entryNodes = [entry] := by
  obtain ⟨hcheck, rfl⟩ := Validator.validate_eq_ok_iff.1 h
  obtain ⟨entry, hentry⟩ := (Validator.check_eq_nil_iff.1 hcheck [] w .top).2.exists_roots_eq
  rw [← workflow_ofValidated w, roots_workflow] at hentry
  obtain ⟨n, hn, -⟩ := List.map_eq_singleton_iff.1 hentry
  exact ⟨n, hn⟩

/-- Where graph and nodes can be built, that node has an instance: its type has a loader, so that it
is not left out. -/
theorem exists_entry_instance {w : Workflow} (hkeys : w.DistinctKeys)
    (h : Validator.standard.validate w = .ok d) (hconstructs : d.Constructs) :
    ∃ entry node, d.entryNodes = [entry] ∧ entry ∈ d.nodes ∧ (Json.obj entry.config).Distinct ∧
      entry.created .standard none = .ok node ∧
      NodeInstance.construct Primitive.inputNode (.obj entry.config) none = .ok node := by
  obtain ⟨entry, hentry⟩ := exists_entryNodes_eq h
  have hmem : entry ∈ d.entryNodes := by
    rw [hentry]
    exact List.mem_singleton_self entry
  obtain ⟨hnodes, hroot⟩ := List.mem_filter.1 hmem
  simp only [Bool.and_eq_true, beq_iff_eq] at hroot
  have hconstruct := created_of_inputNode hroot.2
  have hconfig : (Json.obj entry.config).Distinct := by
    rw [(Validator.validate_eq_ok_iff.1 h).2, nodes_ofValidated] at hnodes
    obtain ⟨n, hn, rfl⟩ := List.mem_map.1 hnodes
    exact ((Workflow.distinctKeys_iff.1 hkeys).1 n hn).1
  cases hnode : entry.created .standard none with
  | ok node => exact ⟨entry, node, hentry, hnodes, hconfig, hnode, hconstruct ▸ hnode⟩
  | error e =>
    obtain ⟨fault, rfl⟩ := Primitive.exists_fault_of_construct_mirror (hconstruct ▸ hnode)
    exact absurd ⟨hnode, by simp⟩ (hconstructs.2 entry hnodes _)

/-- A test input is reported exactly if the input node rejects it. -/
theorem testProblems_of_validate {w : Workflow} (hkeys : w.DistinctKeys)
    (h : Validator.standard.validate w = .ok d) : d.TestProblems (Report.testInputProblems d) := by
  have hd : d.Validated := .accepted h
  by_cases hconstructs : d.Constructs
  · obtain ⟨g, hinstances, -, hperm⟩ := Report.instancesOf_of_constructs hd hconstructs
    obtain ⟨entry, node, hentry, hnodes, hconfig, hnode, hconstruct⟩ :=
      exists_entry_instance hkeys h hconstructs
    have hfound :
        (WorkflowGraph.createdInstances .standard none g.nodes).lookup entry.id = some node := by
      rw [hd.lookup_createdInstances hperm, hd.instance?_eq_some_iff]
      exact ⟨entry, hnodes, rfl, hnode⟩
    have hroots : (d.workflow.roots ValidatorConfig.standard.inputType).head? =
        some (entry.mapOwned workflow) := by
      rw [roots_workflow]
      exact congrArg (fun entries => (entries.map (NodeEntry.mapOwned workflow)).head?) hentry
    have hproblems : Report.testInputProblems d =
        d.testInputs.zipIdx.filterMap node.rejection? := by
      have hid : (entry.mapOwned workflow).id = entry.id := rfl
      rw [Report.testInputProblems, hinstances, hroots]
      dsimp only
      rw [hid, hfound, testInputs_workflow]
      exact Report.inputProblems_eq hconfig hconstruct [] 0 d.testInputs
    rw [hproblems]
    refine .tried hconstructs hentry hnode ?_
    intro g' instances hinstances'
    rw [hinstances] at hinstances'
    obtain ⟨-, rfl⟩ := Prod.mk.inj (Except.ok.inj hinstances')
    exact hfound
  · have herror : ∃ e, Report.instancesOf d = .error e := by
      rcases hd.construction_cases with ⟨id, hgraph, -⟩ |
        ⟨g, before, n, after, e, hgraph, horder, hbefore, hn⟩ | hall
      · exact ⟨_, Report.instancesOf_of_cycle hgraph⟩
      · exact ⟨_, Report.instancesOf_of_failure hgraph horder hbefore hn⟩
      · exact absurd hall hconstructs
    obtain ⟨e, he⟩ := herror
    rw [Report.testInputProblems, he]
    exact .untried hconstructs

end Definition

/-! ## The whole report -/

namespace Report

/-- The report on a workflow text. Every level is looked at once, with an outcome of its own. The
problems are those of the whole workflow, those of its test inputs, and those of the levels inside
with their locations, outer levels first; the count is that of the instances of all levels. If no
construction is asked for, there are no problems. -/
theorem ofText_by_levels {text : String} {d : Definition} (h : Definition.ofText text = .ok d) :
    ofText false text = ⟨d.nodes.length, d.links.length, none, []⟩ ∧
    ∃ (outcome : Definition → Construction) (inputs : List String),
      (∀ level ∈ d.levels, ∀ c, level.2.Outcome c ↔ c = outcome level.2) ∧
      (∀ problems, d.TestProblems problems ↔ problems = inputs) ∧
      ofText true text = ⟨d.nodes.length, d.links.length,
        some (d.levels.map fun level => (outcome level.2).count).sum,
        (outcome d).problems ++ inputs ++ d.nestedLevels.flatMap fun level =>
          (outcome level.2).problems.map level.1.describe⟩ ∧
      d.levels = ([], d) :: d.nestedLevels ∧ (d.levels.map Prod.fst).Nodup ∧
      ∀ location s, (location, s) ∈ d.levels ↔ d.workflow.LevelAt location s.workflow := by
  obtain ⟨w, hkeys, hvalidate⟩ := Definition.exists_of_ofText h
  have hd : d.Validated := .accepted hvalidate
  have htests := Definition.testProblems_of_validate hkeys hvalidate
  have hinside : constructInside [] d =
      .total (d.nestedLevels.map fun level => constructLevel level.1 level.2) :=
    constructInside_eq [] d
  have hproblems (level : Location × Definition) : (constructLevel level.1 level.2).problems =
      (constructLevel [] level.2).problems.map level.1.describe := by
    rw [constructLevel_eq]
  have hcount (level : Location × Definition) : (constructLevel level.1 level.2).count =
      (constructLevel [] level.2).count := by
    rw [constructLevel_eq]
  refine ⟨by rw [ofText, h]; rfl, constructLevel [], testInputProblems d, ?_, ?_, ?_, d.levels_eq,
    hd.nodup_levels, fun location s => Definition.mem_levels_iff⟩
  · intro level hlevel c
    exact (hd.of_mem_levels hlevel).outcome_iff
  · intro problems
    constructor
    · intro hother
      exact hother.unique htests
    · rintro rfl
      exact htests
  · rw [ofText, h]
    dsimp only
    rw [ofDefinition, if_pos rfl]
    dsimp only
    rw [hinside, d.levels_eq]
    simp [Construction.total, List.flatMap_map, hproblems, hcount, Function.comp_def]

/-- The text of a node and of its further fields, by pieces. -/
def nodeText (id nodeType : String) (more : List String) : List String :=
  ["\x7b\"id\": \"", id, "\", \"node_type\": \"", nodeType, "\""] ++ more ++ ["\x7d"]

/-- The text of a level whose input node has no schema, and of further nodes. -/
def faultyText (more : List String) : List String :=
  ["\x7b\"nodes\": ["] ++ nodeText "in" "InputNode" [] ++ more ++ ["]\x7d"]

/-- A workflow with a test input that is rejected, and with two faulty levels inside each other. -/
def trialText : String :=
  String.join (["\x7b\"nodes\": ["] ++
    nodeText "in" "InputNode" [", \"config\": \x7b\"input_schema\": \x7b\"n\": \"int\"\x7d\x7d"] ++
    [", "] ++ nodeText "a" "MCTSNode" ([", \"subworkflow\": "] ++
      faultyText ([", "] ++ nodeText "b" "MCTSNode" ([", \"subworkflow\": "] ++ faultyText []))) ++
    ["], \"test_inputs\": [\x7b\"n\": 1\x7d, \x7b\x7d]\x7d"])

theorem ofText_by_levels_trialText :
    ∃ d, Definition.ofText trialText = .ok d ∧
      ofText false trialText = ⟨d.nodes.length, d.links.length, none, []⟩ ∧
      ∃ (outcome : Definition → Construction) (inputs : List String),
        (∀ level ∈ d.levels, ∀ c, level.2.Outcome c ↔ c = outcome level.2) ∧
        (∀ problems, d.TestProblems problems ↔ problems = inputs) ∧
        (d.levels.map fun level => (outcome level.2).count).sum = 1 ∧
        (outcome d).problems ++ inputs ++ (d.nestedLevels.flatMap fun level =>
            (outcome level.2).problems.map level.1.describe) =
          ["test input 1: invalid input for node input_node: 1 validation error for " ++
              "input_node.input; n: field required",
            "in a: invalid config for node input_node: input_schema is required",
            "in a > b: invalid config for node input_node: input_schema is required"] := by
  have hreport : ofText true trialText = ⟨2, 0, some 1,
      ["test input 1: invalid input for node input_node: 1 validation error for " ++
          "input_node.input; n: field required",
        "in a: invalid config for node input_node: input_schema is required",
        "in a > b: invalid config for node input_node: input_schema is required"]⟩ := by
    rw [ofText, Definition.ofText, Decode.ofText, Document.readText, trialText, String.toList_join]
    decide +kernel
  obtain ⟨d, hd⟩ : ∃ d, Definition.ofText trialText = .ok d := by
    rw [ofText] at hreport
    split at hreport
    case h_1 d hd => exact ⟨d, hd⟩
    case h_2 => cases hreport
    case h_3 => cases hreport
  obtain ⟨hplain, outcome, inputs, houtcome, hinputs, heq, -⟩ := ofText_by_levels hd
  obtain ⟨-, -, hcount, hproblems⟩ := Report.mk.inj (heq.symm.trans hreport)
  exact ⟨d, hd, hplain, outcome, inputs, houtcome, hinputs, Option.some.inj hcount, hproblems⟩

end Report

end TypedWorkflow
