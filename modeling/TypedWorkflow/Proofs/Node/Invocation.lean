import TypedWorkflow.Proofs.Node.InputForms

/-!
# The boundary of an invocation

Whatever an implementation does, what passes into it and out of it has passed a check. To see what
passes in, the implementation is made to note every record that it is run on; to see that nothing
depends on it, it may do anything to a world of its own between the notes. An invocation then ends
in one of four ways.

## Main definitions

* `Runner.logged`: an implementation that notes what it is run on.
* `Call`, `NodeInstance.call`, `NodeInstance.history`: an invocation and a sequence of them, with
  what is to be seen of each.
* `NodeInstance.call_of_rejected`, `NodeInstance.call_of_accepted`: what an invocation does.
* `Call.Outcome`, `NodeInstance.call_outcome`: the four ways in which an invocation can end.
-/

namespace TypedWorkflow

variable {σ : Type}

/-! ## Invocations and what is seen of them -/

/-- The same implementation, which also notes what it is run on. -/
def Runner.logged (run : Runner (StateM σ)) : Runner (StateM (σ × List RecordInstance)) :=
  fun behavior around input => do
    let (world, log) ← get
    let (produced, world) := (run behavior around input).run world
    set (world, log ++ [input])
    return produced

/-- What is seen of an invocation: whether the input passed its check, what the implementation was
run on, in order, and the result. -/
structure Call where
  accepted : Bool
  runs : List RecordInstance
  result : Except WorkflowError RecordInstance

namespace NodeInstance

/-- One invocation of an implementation with a world of its own, seen from outside. -/
def call (run : Runner (StateM σ)) (i : NodeInstance) (world : σ) (input : NodeInput) :
    Call × NodeInstance × σ :=
  let ((result, after), world, runs) := (i.invokeWith run.logged input).run (world, [])
  (⟨(i.accept input).isOk, runs, result⟩, after, world)

/-- A sequence of invocations, what is seen of each, and where it leads. -/
def history (run : Runner (StateM σ)) :
    NodeInstance → σ → List NodeInput → List Call × NodeInstance × σ
  | i, world, [] => ([], i, world)
  | i, world, input :: rest =>
    let (c, after, world) := i.call run world input
    let (calls, last, world) := after.history run world rest
    (c :: calls, last, world)

/-! ## Results -/

theorem inputResult_eq_ok_iff {α : Type} {i : NodeInstance} {x : Except ValidationError α} {a : α} :
    i.inputResult x = .ok a ↔ x = .ok a := by
  cases x <;> simp [inputResult]

theorem outputResult_eq_ok_iff {α : Type} {i : NodeInstance} {x : Except ValidationError α}
    {a : α} : i.outputResult x = .ok a ↔ x = .ok a := by
  cases x <;> simp [outputResult]

/-- An accepted input is an instance of the input model. -/
theorem makes_of_accept {i : NodeInstance} {input : NodeInput} {record : RecordInstance}
    (h : i.accept input = .ok record) : i.models.input.Makes record := by
  cases input with
  | predecessors outputs =>
    obtain ⟨T, -, h⟩ := Except.bind_eq_ok_iff.1 h
    obtain ⟨checked, -, h⟩ := Except.bind_eq_ok_iff.1 h
    exact ⟨_, inputResult_eq_ok_iff.1 h⟩
  | record r => exact ⟨_, inputResult_eq_ok_iff.1 h⟩
  | value v => exact ⟨_, inputResult_eq_ok_iff.1 h⟩

/-- A result is an instance of the output model. -/
theorem makes_of_conclude {i : NodeInstance} {produced : Except String Payload}
    {o : RecordInstance} (h : i.conclude produced = .ok o) : i.models.output.Makes o := by
  cases produced with
  | error reason => cases h
  | ok payload => exact ⟨_, outputResult_eq_ok_iff.1 h⟩

/-- The input is remembered, and the output if there is one. -/
theorem finish_remember (i : NodeInstance) (record : RecordInstance)
    (produced : Except String Payload) :
    (i.remember record).finish produced = (i.conclude produced,
      { i with
        lastInput := some record.toJson
        lastOutput := (i.conclude produced).toOption.map RecordInstance.toJson }) := by
  have hconclude : (i.remember record).conclude produced = i.conclude produced := by
    cases produced <;> rfl
  rw [finish, hconclude]
  cases i.conclude produced <;> rfl

/-! ## One invocation -/

/-- A rejected input never reaches the implementation and changes nothing. -/
theorem call_of_rejected {i : NodeInstance} {input : NodeInput} {e : WorkflowError}
    (h : i.accept input = .error e) (run : Runner (StateM σ)) (world : σ) :
    i.call run world input = (⟨false, [], .error e⟩, i, world) := by
  rw [call, invokeWith, h]
  rfl

/-- With an accepted input the implementation runs once, on just that input. -/
theorem call_of_accepted {i : NodeInstance} {input : NodeInput} {record : RecordInstance}
    (h : i.accept input = .ok record) {behavior : Behavior} (hbehavior : i.behavior = .ok behavior)
    (run : Runner (StateM σ)) (world : σ) :
    i.call run world input =
      let ran := (run behavior ⟨i.context, i.models⟩ record).run world
      (⟨true, [record], i.conclude ran.1⟩,
        { i with
          lastInput := some record.toJson
          lastOutput := (i.conclude ran.1).toOption.map RecordInstance.toJson },
        ran.2) := by
  have hremember : (i.remember record).behavior = .ok behavior := hbehavior
  rw [call, invokeWith, h]
  dsimp only
  rw [hremember]
  change (let ran := (run behavior ⟨i.context, i.models⟩ record).run world
    let finished := (i.remember record).finish ran.1
    ((⟨true, [record], finished.1⟩ : Call), finished.2, ran.2)) = _
  simp only [finish_remember]

/-- An invocation leaves an instance what it is, apart from what it remembers. -/
theorem exists_call_eq {i : NodeInstance} {behavior : Behavior}
    (hbehavior : i.behavior = .ok behavior) (run : Runner (StateM σ)) (world : σ)
    (input : NodeInput) :
    ∃ a b, (i.call run world input).2.1 = { i with lastInput := a, lastOutput := b } := by
  cases h : i.accept input with
  | error e => exact ⟨_, _, by rw [call_of_rejected h]⟩
  | ok record => exact ⟨_, _, by rw [call_of_accepted h hbehavior]⟩

theorem behavior_call {i : NodeInstance} {behavior : Behavior}
    (hbehavior : i.behavior = .ok behavior) (run : Runner (StateM σ)) (world : σ)
    (input : NodeInput) : (i.call run world input).2.1.behavior = .ok behavior := by
  obtain ⟨a, b, hcall⟩ := exists_call_eq hbehavior run world input
  rw [hcall]
  exact hbehavior

/-- So does a sequence of invocations. -/
theorem exists_history_eq {i : NodeInstance} {behavior : Behavior}
    (hbehavior : i.behavior = .ok behavior) (run : Runner (StateM σ)) (world : σ)
    (inputs : List NodeInput) :
    ∃ a b, (i.history run world inputs).2.1 = { i with lastInput := a, lastOutput := b } := by
  induction inputs generalizing i world with
  | nil => exact ⟨_, _, rfl⟩
  | cons input rest ih =>
    obtain ⟨a, b, hcall⟩ := exists_call_eq hbehavior run world input
    have hafter := behavior_call hbehavior run world input
    obtain ⟨c, d, hrest⟩ := ih hafter (i.call run world input).2.2
    refine ⟨c, d, ?_⟩
    rw [history]
    exact hrest.trans (by rw [hcall])

end NodeInstance

/-! ## Outcomes -/

/-- The ways in which an invocation can end, for a node of the given name and models, an
implementation that produces something of each record, and the value of an input. -/
inductive Call.Outcome (node : String) (models : NodeModels)
    (produce : RecordInstance → Except String Payload) (v : Json) : Call → Prop where
  /-- The input is not of the input model, and the implementation does not run. -/
  | rejected {e : ValidationError} (hinput : models.input.validate v = .error e)
      (hname : e.record = models.input.name) :
      Outcome node models produce v ⟨false, [], .error (.inputValidation node e)⟩
  /-- The implementation fails on the input. -/
  | failed {record : RecordInstance} {reason : String}
      (hinput : models.input.validate v = .ok record) (hrun : produce record = .error reason) :
      Outcome node models produce v ⟨true, [record], .error (.nodeFailed node reason)⟩
  /-- The implementation produces what is not of the output model. -/
  | misshapen {record : RecordInstance} {payload : Payload} {e : ValidationError}
      (hinput : models.input.validate v = .ok record) (hrun : produce record = .ok payload)
      (houtput : models.output.validate payload.toJson = .error e)
      (hname : e.record = models.output.name) :
      Outcome node models produce v ⟨true, [record], .error (.outputValidation node e)⟩
  /-- The implementation produces what is of the output model. -/
  | returned {record : RecordInstance} {payload : Payload} {o : RecordInstance}
      (hinput : models.input.validate v = .ok record) (hrun : produce record = .ok payload)
      (houtput : models.output.validate payload.toJson = .ok o) :
      Outcome node models produce v ⟨true, [record], .ok o⟩

theorem RecordType.record_of_validate {T : RecordType} {v : Json} {e : ValidationError}
    (h : T.validate v = .error e) : e.record = T.name := by
  obtain ⟨-, rfl⟩ := (validate_eq_error_iff T v e).1 h
  rfl

namespace NodeInstance

/-- After any invocations, the next one ends in one of the four ways: with an instance of the output
model or with one of three errors, which name the node. The implementation runs at most once, and
only on an instance of the input model. -/
theorem call_outcome {kind : NodeKind} {config : Json} {context : ExecutionContext}
    {i : NodeInstance} (h : construct kind config context = .ok i) {run : Runner (StateM σ)}
    {world w : σ} {earlier : List NodeInput} {calls : List Call} {j : NodeInstance}
    (hearlier : i.history run world earlier = (calls, j, w)) {input : NodeInput}
    (hinput : input.Genuine) :
    ∃ behavior, kind.decode i.config = .ok behavior ∧
      Call.Outcome kind.name i.models
        (fun record => ((run behavior ⟨context, i.models⟩ record).run w).1)
        input.toJson (j.call run w input).1 := by
  have hmade := constructed_of_construct h
  obtain ⟨behavior, hbehavior⟩ := hmade.exists_behavior
  obtain rfl := hmade.kind_eq
  obtain rfl := hmade.context_eq
  obtain ⟨a, b, hj⟩ := exists_history_eq hbehavior run world earlier
  rw [hearlier] at hj
  subst hj
  refine ⟨behavior, behavior_eq_ok_iff.1 hbehavior, ?_⟩
  have haccept := accept_eq { i with lastInput := a, lastOutput := b } hinput
  cases hv : i.models.input.validate input.toJson with
  | error e =>
    rw [hv] at haccept
    rw [call_of_rejected haccept]
    exact .rejected hv (RecordType.record_of_validate hv)
  | ok record =>
    rw [hv] at haccept
    rw [call_of_accepted haccept hbehavior]
    change Call.Outcome _ _ _ _
      ⟨true, [record], i.conclude ((run behavior ⟨i.context, i.models⟩ record).run w).1⟩
    cases hrun : ((run behavior ⟨i.context, i.models⟩ record).run w).1 with
    | error reason => exact .failed hv hrun
    | ok payload =>
      rw [conclude]
      cases houtput : i.models.output.validate payload.toJson with
      | error e => exact .misshapen hv hrun houtput (RecordType.record_of_validate houtput)
      | ok o => exact .returned hv hrun houtput

/-- An implementation that returns the number that it is given. -/
def echoKind : NodeKind where
  name := "echo_node"
  variant := .fixed
  fixed := ⟨some (.single "n" .int), some (.single "n" .int)⟩
  decode _ := .ok fun _ input => .ok (.record input)

/-- Does what the behavior says, but fails every second time. -/
def everySecondTimeBusy : Runner (StateM Bool) :=
  fun behavior around input => do
    let busy ← get
    set !busy
    return if busy then .error "busy" else behavior around input

/-- The instance of the implementation that returns a number. -/
def echoNode : NodeInstance where
  kind := echoKind
  config := .obj []
  context := none
  models := .make "echo_node" (.single "n" .int) (.single "n" .int)
  tag := .ofName "echo_node"
  lastInput := none
  lastOutput := none

/-- The record of a number, at the input or the output of that instance. -/
def echoRecord (side : Side) (n : Int) : RecordInstance :=
  ⟨⟨side.recordName "echo_node", .single "n" .int⟩, [("n", .num (.int n))]⟩

theorem call_outcome_echoNode :
    construct echoKind .null none = .ok echoNode ∧
      echoNode.history everySecondTimeBusy false
          [.value (.obj [("n", .num (.int 1))]), .value (.obj [("n", .null)])] =
        ([⟨true, [echoRecord .input 1], .ok (echoRecord .output 1)⟩,
          ⟨false, [], .error (.inputValidation "echo_node"
            ⟨"echo_node.input", [⟨"n", .typeMismatch "int" .null⟩]⟩)⟩],
        { echoNode with
          lastInput := some (.obj [("n", .num (.int 1))])
          lastOutput := some (.obj [("n", .num (.int 1))]) }, true) ∧
      ∃ behavior, echoKind.decode echoNode.config = .ok behavior ∧
        Call.Outcome "echo_node" echoNode.models
          (fun record => ((everySecondTimeBusy behavior ⟨none, echoNode.models⟩ record).run true).1)
          (.obj [("n", .num (.int 2))])
          ⟨true, [echoRecord .input 2], .error (.nodeFailed "echo_node" "busy")⟩ := by
  have hconstruct : construct echoKind .null none = .ok echoNode := rfl
  have hearlier : echoNode.history everySecondTimeBusy false
      [.value (.obj [("n", .num (.int 1))]), .value (.obj [("n", .null)])] =
      (_, { echoNode with
        lastInput := some (.obj [("n", .num (.int 1))])
        lastOutput := some (.obj [("n", .num (.int 1))]) }, true) := rfl
  have hinput : (NodeInput.value (.obj [("n", .num (.int 2))])).Genuine := trivial
  exact ⟨hconstruct, hearlier, call_outcome hconstruct hearlier hinput⟩

end NodeInstance

end TypedWorkflow
