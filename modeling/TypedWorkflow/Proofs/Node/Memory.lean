import TypedWorkflow.Proofs.Node.Invocation

/-!
# What an instance remembers

An instance keeps the objects of an input and of an output, and checks them again when it is asked
for them. The input is written before the implementation runs and the output after it, so the two
could come from different invocations; that they do not is the invariant here. It is kept by every
single invocation and so by every sequence of them, and since records in normal form pass their
check unchanged, what an instance gives back is what it was.

## Main definitions

* `Call.last?`: the last call with an accepted input.
* `NodeInstance.Remembers`: the invariant, that what is remembered comes from one given call.
* `NodeInstance.Remembers.call`, `NodeInstance.Remembers.history`: it is kept.
* `NodeInstance.history_remembered`: what an instance remembers after any invocations.
-/

namespace TypedWorkflow

variable {σ : Type}

/-! ## The last accepted call -/

namespace Call

/-- The last of some calls with an accepted input. -/
def last? (calls : List Call) : Option Call :=
  calls.reverse.find? Call.accepted

theorem last?_cons (c : Call) (calls : List Call) :
    last? (c :: calls) = (last? calls).or (if c.accepted then some c else none) := by
  rw [last?, List.reverse_cons, List.find?_append, last?]
  cases h : c.accepted <;> simp [h]

end Call

namespace NodeInstance

/-! ## The invariant -/

/-- An instance remembers a call: the input that the implementation was run on, and the output if
there was one. Without a call it remembers nothing. -/
def Remembers (i : NodeInstance) : Option Call → Prop
  | none => i.lastInput = none ∧ i.lastOutput = none
  | some c => ∃ record, c.runs = [record] ∧ i.models.input.Makes record ∧
      i.lastInput = some record.toJson ∧
      i.lastOutput = c.result.toOption.map RecordInstance.toJson ∧
      ∀ o, c.result = .ok o → i.models.output.Makes o

/-- A call whose input is rejected changes nothing. -/
theorem call_of_not_accepted {i : NodeInstance} {run : Runner (StateM σ)} {world : σ}
    {input : NodeInput} (h : (i.call run world input).1.accepted = false) :
    (i.call run world input).2 = (i, world) := by
  cases haccept : i.accept input with
  | error e => rw [call_of_rejected haccept]
  | ok record =>
    have haccepted : (i.call run world input).1.accepted = (i.accept input).isOk := rfl
    rw [haccepted, haccept] at h
    cases h

/-- A call is remembered if its input is accepted, and else what was remembered before. -/
theorem Remembers.call {i : NodeInstance} {behavior : Behavior}
    (hbehavior : i.behavior = .ok behavior) {last : Option Call} (h : i.Remembers last)
    (run : Runner (StateM σ)) (world : σ) (input : NodeInput) :
    (i.call run world input).2.1.Remembers
      ((if (i.call run world input).1.accepted then some (i.call run world input).1
        else none).or last) := by
  cases haccept : i.accept input with
  | error e =>
    rw [call_of_rejected haccept]
    simpa using h
  | ok record =>
    rw [call_of_accepted haccept hbehavior]
    exact ⟨record, rfl, makes_of_accept haccept, rfl, rfl, fun o ho => makes_of_conclude ho⟩

/-- Of a sequence of calls the last one with an accepted input is remembered. -/
theorem Remembers.history {i : NodeInstance} {behavior : Behavior}
    (hbehavior : i.behavior = .ok behavior) {last : Option Call} (h : i.Remembers last)
    (run : Runner (StateM σ)) (world : σ) (inputs : List NodeInput) :
    (i.history run world inputs).2.1.Remembers
      ((Call.last? (i.history run world inputs).1).or last) := by
  induction inputs generalizing i world last with
  | nil => exact h
  | cons input rest ih =>
    have hafter := behavior_call hbehavior run world input
    have hrest := ih hafter (h.call hbehavior run world input) (i.call run world input).2.2
    rw [← Option.or_assoc, ← Call.last?_cons] at hrest
    exact hrest

/-! ## What is given back -/

/-- What is remembered passes its check again and is given back. -/
theorem Remembers.input_output {i : NodeInstance} (hmodels : i.models.WellFormed) {c : Call}
    (h : i.Remembers (some c)) : ∃ record, c.runs = [record] ∧ i.input = .ok (some record) ∧
      i.output = .ok c.result.toOption := by
  obtain ⟨record, hruns, hrecord, hinput, houtput, hmakes⟩ := h
  refine ⟨record, hruns, ?_, ?_⟩
  · rw [input, hinput]
    dsimp only
    rw [hrecord.validate_toJson hmodels.input]
    rfl
  · rw [output, houtput]
    cases hresult : c.result with
    | error e => rfl
    | ok o =>
      change (i.outputResult (i.models.output.validate o.toJson)).map some = _
      rw [(hmakes o hresult).validate_toJson hmodels.output]
      rfl

/-- After any invocations an instance gives back the input that its implementation was run on in the
last invocation whose input was accepted, and the output of just that invocation. A rejected input
changes nothing, and config and models never change. -/
theorem history_remembered {kind : NodeKind} (hkind : kind.Lawful) {config : Json}
    (hconfig : config.Distinct) {context : ExecutionContext} {i : NodeInstance}
    (h : construct kind config context = .ok i) {run : Runner (StateM σ)} {world w : σ}
    {inputs : List NodeInput} {calls : List Call} {j : NodeInstance}
    (hrun : i.history run world inputs = (calls, j, w)) :
    (match Call.last? calls with
      | none => j.input = .ok none ∧ j.output = .ok none
      | some c => ∃ record, c.runs = [record] ∧ j.input = .ok (some record) ∧
          j.output = .ok c.result.toOption) ∧
    (∀ input v, (j.call run v input).1.accepted = false → (j.call run v input).2 = (j, v)) ∧
    j.config = i.config ∧ j.models = i.models := by
  have hmade := constructed_of_construct h
  obtain ⟨behavior, hbehavior⟩ := hmade.exists_behavior
  have hfresh : i.Remembers none := ⟨hmade.lastInput_eq, hmade.lastOutput_eq⟩
  have hremembers := hfresh.history hbehavior run world inputs
  obtain ⟨a, b, hj⟩ := exists_history_eq hbehavior run world inputs
  rw [hrun] at hremembers hj
  rw [Option.or_none] at hremembers
  dsimp only at hremembers hj
  have hsame : j.config = i.config ∧ j.models = i.models := by
    rw [hj]
    exact ⟨rfl, rfl⟩
  have hmodels : j.models.WellFormed := by
    rw [hsame.2]
    exact wellFormed_models_of_construct hkind hconfig h
  refine ⟨?_, fun input v => call_of_not_accepted, hsame⟩
  split
  case h_1 hlast =>
    rw [hlast] at hremembers
    obtain ⟨hinput, houtput⟩ : j.lastInput = none ∧ j.lastOutput = none := hremembers
    exact ⟨by rw [NodeInstance.input, hinput], by rw [output, houtput]⟩
  case h_2 c hlast =>
    rw [hlast] at hremembers
    exact Remembers.input_output hmodels hremembers

theorem lawful_echoKind : echoKind.Lawful := by
  refine NodeKind.lawful_of_variant ?_ fun _ => rfl
  rintro (_ | _) s hs
  · exact Option.some.inj hs ▸ Schema.wellFormed_single "n" trivial
  · exact Option.some.inj hs ▸ Schema.wellFormed_single "n" trivial

/-- The instance that returns a number, after it was busy with the last one. -/
def busyEchoNode : NodeInstance :=
  { echoNode with lastInput := some (.obj [("n", .num (.int 2))]), lastOutput := none }

theorem history_remembered_echoNode :
    echoKind.Lawful ∧ Json.null.Distinct ∧ construct echoKind .null none = .ok echoNode ∧
    echoNode.history everySecondTimeBusy false
        [.value (.obj [("n", .num (.int 1))]), .value (.obj [("n", .num (.int 2))]),
          .value .null] =
      ([⟨true, [echoRecord .input 1], .ok (echoRecord .output 1)⟩,
        ⟨true, [echoRecord .input 2], .error (.nodeFailed "echo_node" "busy")⟩,
        ⟨false, [], .error (.inputValidation "echo_node"
          ⟨"echo_node.input", [⟨"", .notAnObject .null⟩]⟩)⟩], busyEchoNode, false) ∧
    (∃ record, [echoRecord .input 2] = [record] ∧ busyEchoNode.input = .ok (some record) ∧
      busyEchoNode.output = .ok none) ∧
    (∀ input v, (busyEchoNode.call everySecondTimeBusy v input).1.accepted = false →
      (busyEchoNode.call everySecondTimeBusy v input).2 = (busyEchoNode, v)) ∧
    busyEchoNode.config = echoNode.config ∧ busyEchoNode.models = echoNode.models := by
  have hnull : Json.null.Distinct := trivial
  have hconstruct : construct echoKind .null none = .ok echoNode := rfl
  have hrun : echoNode.history everySecondTimeBusy false
      [.value (.obj [("n", .num (.int 1))]), .value (.obj [("n", .num (.int 2))]),
        .value .null] = (_, busyEchoNode, false) := rfl
  exact ⟨lawful_echoKind, hnull, hconstruct, hrun,
    history_remembered lawful_echoKind hnull hconstruct hrun⟩

end NodeInstance

end TypedWorkflow
