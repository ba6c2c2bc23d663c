import TypedWorkflow.Json.Reader
import TypedWorkflow.Proofs.Workflow.Wire
import TypedWorkflow.Workflow.Validator

/-!
# Reading a text and reading its value

A workflow is read from a text as the text goes along, or from a value that was read before. A value
forgets the entries whose keys are repeated and nothing else, so where no object repeats a key the
document of the text is the document of the value. What remains is that a decoder may tell apart
where its document comes from. It does so for an array that is too long, but then it fails either
way, so both ways lead to the same definition or to none.

## Main definitions

* `Decode.Agree`, `Decode.record_agree`: results that are equal or both missing.
* `Workflow.decode_agree`: both sources lead to the same workflow.
* `Definition.ofText_agrees`: and to the same definition or the same broken rules.
-/

namespace TypedWorkflow

/-! ## Results that agree -/

namespace Decode

variable {α β σ : Type}

/-- Two results agree if they are equal or both missing, with whatever errors. -/
def Agree (x y : Decoded α) : Prop :=
  x.toOption = y.toOption

namespace Agree

theorem refl (x : Decoded α) : Agree x x := rfl

theorem of_error (e e' : DecodeError) : Agree (.error e : Decoded α) (.error e') := rfl

/-- Either there are two equal results or there is none. -/
theorem cases {x y : Decoded α} (h : Agree x y) :
    (∃ a, x = .ok a ∧ y = .ok a) ∨ ∃ e e', x = .error e ∧ y = .error e' := by
  cases x with
  | ok a =>
    cases y with
    | ok b => exact .inl ⟨a, rfl, by rw [Option.some.inj h]⟩
    | error e => cases h
  | error e =>
    cases y with
    | ok b => cases h
    | error e' => exact .inr ⟨e, e', rfl, rfl⟩

/-- Results agree after steps that agree. -/
theorem bind {x y : Decoded α} (h : Agree x y) {f g : α → Decoded β}
    (hfg : ∀ a, Agree (f a) (g a)) : Agree (x >>= f) (y >>= g) := by
  rcases h.cases with ⟨a, rfl, rfl⟩ | ⟨e, e', rfl, rfl⟩
  · exact hfg a
  · exact of_error e e'

theorem map {x y : Decoded α} (h : Agree x y) (f : α → β) : Agree (x.map f) (y.map f) := by
  rcases h.cases with ⟨a, rfl, rfl⟩ | ⟨e, e', rfl, rfl⟩
  · exact refl _
  · exact of_error e e'

end Agree

/-! ## Decoders that agree -/

theorem optional_agree {decode decode' : Document → Decoded α} {d : Document}
    (h : Agree (decode d) (decode' d)) : Agree (optional decode d) (optional decode' d) := by
  rw [optional, optional]
  cases d with
  | null => exact .refl _
  | _ => exact h.map some

theorem items_agree {decode decode' : Document → Decoded α} {ds : List Document}
    (h : ∀ d ∈ ds, Agree (decode d) (decode' d)) : Agree (items decode ds) (items decode' ds) := by
  induction ds with
  | nil => exact .refl _
  | cons d rest ih =>
    obtain ⟨hd, hrest⟩ := List.forall_mem_cons.1 h
    exact hd.bind fun a => (ih hrest).bind fun as => .refl _

theorem list_agree {decode decode' : Document → Decoded α} {d : Document}
    (h : ∀ e ∈ d.parts, Agree (decode e) (decode' e)) : Agree (list decode d) (list decode' d) := by
  cases d with
  | arr ds fault => exact (items_agree h).bind fun as => .refl _
  | deep bracket => cases bracket <;> exact .refl _
  | _ => exact .refl _

/-- An array that is too long is an error for both sources, though not the same one. -/
theorem close_agree (f : Fields) (taken : Nat) (rest : List Document) (fault : Option SyntaxError) :
    Agree (f.close .text taken rest fault) (f.close .value taken rest fault) := by
  unfold Fields.close
  by_cases htaken : taken < f.names.length
  · rw [if_pos htaken, if_pos htaken]
    exact .refl _
  · rw [if_neg htaken, if_neg htaken]
    cases rest with
    | cons d rest => exact .of_error _ _
    | nil =>
      cases fault with
      | none => exact .refl _
      | some e => cases e <;> exact .of_error _ _

variable {f : Fields} {read read' : String → Document → σ → Decoded σ}

theorem entries_agree {es : List (String × Document)}
    (h : ∀ d ∈ es.map Prod.snd, ∀ key state, Agree (read key d state) (read' key d state))
    (seen : List String) (state : σ) :
    Agree (entries f read seen state es) (entries f read' seen state es) := by
  induction es generalizing seen state with
  | nil => exact .refl _
  | cons e rest ih =>
    obtain ⟨he, hrest⟩ := List.forall_mem_cons.1 h
    refine (Agree.refl _).bind fun accepted => ?_
    cases accepted with
    | none => exact ih hrest seen state
    | some seen => exact (he e.1 state).bind fun state => ih hrest seen state

theorem positions_agree {ds : List Document}
    (h : ∀ d ∈ ds, ∀ key state, Agree (read key d state) (read' key d state))
    (names : List String) (state : σ) :
    Agree (positions read names state ds) (positions read' names state ds) := by
  induction ds generalizing names state with
  | nil => cases names <;> exact .refl _
  | cons d rest ih =>
    obtain ⟨hd, hrest⟩ := List.forall_mem_cons.1 h
    cases names with
    | nil => exact .refl _
    | cons name names => exact (hd name state).bind fun state => ih hrest names state

/-- A record is read alike from both sources if its fields are. -/
theorem record_agree {d : Document}
    (h : ∀ e ∈ d.parts, ∀ key state, Agree (read key e state) (read' key e state)) (start : σ) :
    Agree (record f .text read start d) (record f .value read' start d) := by
  cases d with
  | obj es fault => exact (entries_agree h [] start).bind fun last => .refl _
  | arr ds fault =>
    refine (positions_agree h f.names start).bind fun last => ?_
    exact (close_agree f _ _ fault).bind fun _ => .refl _
  | _ => exact .refl _

end Decode

/-! ## Workflows -/

theorem Position.decode_agree (d : Document) :
    Decode.Agree (decode .text d) (decode .value d) :=
  Decode.record_agree (fun _ _ _ _ => .refl _) _

theorem Link.decode_agree (d : Document) :
    Decode.Agree (decode .text d) (decode .value d) :=
  Decode.record_agree (fun _ _ _ _ => .refl _) _

theorem NodeEntry.readField_agree {α : Type} (name : String) (d : Document) (n : NodeEntry α) :
    Decode.Agree (readField .text name d n) (readField .value name d n) := by
  have hcoordinates := Decode.optional_agree (Position.decode_agree d)
  unfold readField
  split_ifs with hid hparent htitle htype hconfig
  case neg => exact hcoordinates.bind fun coordinates => .refl _
  all_goals exact .refl _

namespace Workflow

theorem readField_agree (name : String) (d : Document) (w : Workflow) :
    Decode.Agree (readField .text name d w) (readField .value name d w) := by
  have hlinks := Decode.list_agree fun e (_ : e ∈ d.parts) => Link.decode_agree e
  unfold readField
  split_ifs with hname
  · exact hlinks.bind fun links => .refl _
  · exact .refl _

theorem readNodeField_agree {d : Document} (h : Decode.Agree (decode .text d) (decode .value d))
    (name : String) (n : Node) :
    Decode.Agree (readNodeField .text name d n) (readNodeField .value name d n) := by
  unfold readNodeField
  split_ifs with hname
  · exact (Decode.optional_agree h).bind fun owned => .refl _
  · exact NodeEntry.readField_agree name d n

theorem readLevelField_agree {d : Document}
    (h : Decode.Agree (Decode.list (decodeNode .text) d) (Decode.list (decodeNode .value) d))
    (name : String) (w : Workflow) :
    Decode.Agree (readLevelField .text name d w) (readLevelField .value name d w) := by
  unfold readLevelField
  split_ifs with hname
  · exact h.bind fun nodes => .refl _
  · exact readField_agree name d w

/-- Workflows and nodes are read alike from both sources. -/
theorem decode_agree (d : Document) :
    Decode.Agree (decode .text d) (decode .value d) ∧
      Decode.Agree (decodeNode .text d) (decodeNode .value d) ∧
        Decode.Agree (Decode.list (decodeNode .text) d) (Decode.list (decodeNode .value) d) := by
  induction d using Document.ind with
  | whole d ih =>
    refine ⟨?_, ?_, Decode.list_agree fun e he => (ih e he).2.1⟩
    · rw [decode_eq_record, decode_eq_record]
      exact Decode.record_agree (fun e he => readLevelField_agree (ih e he).2.2) _
    · rw [decodeNode_eq_record, decodeNode_eq_record]
      exact Decode.record_agree (fun e he => readNodeField_agree (ih e he).1) _

end Workflow

/-! ## Definitions -/

namespace Definition

/-- A text that can be read at all is read from its document. -/
theorem ofText_eq_decode {text : String} {v : Json} (hv : Json.ofText text = .ok v)
    (hkeys : (Document.readText text).root.Distinct) :
    Decode.ofText Workflow.decode text = Workflow.decode .text (Document.ofJson v) := by
  obtain ⟨u, hu, hend⟩ := Except.bind_eq_ok_iff.1 hv
  split at hend
  case isTrue => cases hend
  case isFalse htrailing =>
    obtain rfl := Except.ok.inj hend
    rw [← Document.eq_ofJson_of_toJson hkeys hu, Decode.ofText]
    simp only [if_neg htrailing]
    exact bind_pure _

/-- A text without repeated keys and the value that it is read as lead to the same definition, or
break the same rules, or neither of them is a workflow. -/
theorem ofText_agrees {text : String} {v : Json} (hv : Json.ofText text = .ok v)
    (hkeys : (Document.readText text).root.Distinct) :
    (∃ d, ofText text = .ok d ∧ ofJson v = .ok d) ∨
    (∃ violations, ofText text = .error (.brokenRules violations) ∧
      ofJson v = .error (.brokenRules violations)) ∨
    ∃ e e', ofText text = .error (.serialization e) ∧ ofJson v = .error (.serialization e') := by
  rw [ofText, ofText_eq_decode hv hkeys, ofJson, Decode.ofJson]
  rcases (Workflow.decode_agree (Document.ofJson v)).1.cases with
    ⟨w, htext, hvalue⟩ | ⟨e, e', htext, hvalue⟩
  · rw [htext, hvalue, ofDecoded, ofWorkflow, Validator.validate]
    split
    · exact .inl ⟨_, rfl, rfl⟩
    · exact .inr (.inl ⟨_, rfl, rfl⟩)
  · rw [htext, hvalue]
    exact .inr (.inr ⟨e, e', rfl, rfl⟩)

/-- A workflow as arrays of fields, with integers as coordinates and a level inside that leaves out
all that may be left out. -/
def arraysText : String :=
  "[[[\"in\", null, null, \"InputNode\", \x7b\"k\": []\x7d, [1, 2], " ++
    "[[[\"i\", null, null, \"InputNode\"]]]]]]"

theorem ofText_agrees_arraysText :
    ∃ v, Json.ofText arraysText = .ok v ∧ (Document.readText arraysText).root.Distinct ∧
      ∃ d, ofText arraysText = .ok d ∧ ofJson v = .ok d := by
  have hread : (Json.ofText arraysText).isOk = true := by decide +kernel
  have hkeys : (Document.readText arraysText).root.Distinct := by decide +kernel
  have hok : (ofText arraysText).isOk = true := by decide +kernel
  obtain ⟨v, hv⟩ : ∃ v, Json.ofText arraysText = .ok v := by
    cases h : Json.ofText arraysText with
    | ok v => exact ⟨v, rfl⟩
    | error e =>
      rw [h] at hread
      cases hread
  refine ⟨v, hv, hkeys, ?_⟩
  rcases ofText_agrees hv hkeys with h | ⟨violations, h, -⟩ | ⟨e, e', h, -⟩
  · exact h
  · rw [h] at hok
    cases hok
  · rw [h] at hok
    cases hok

end Definition

end TypedWorkflow
