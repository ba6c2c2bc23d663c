import TypedWorkflow.Proofs.Workflow.Definition
import TypedWorkflow.Proofs.Workflow.Wire

/-!
# Workflows, written and read

The object that a workflow is written as is read as the workflow: what a node or link does not have
is left out of its object, and what an object does not have is left as it is in a blank node. The
object of a level is read as the level if those of its nodes are read as they should, so the
induction is on how workflows nest. No object in the workflow may repeat a key, since it would be
read with the last value of the key alone; but no object does in a workflow that was read.

A definition is written as the workflow that it was made of. So it is made again by any validator
that has accepted the workflow, and by reading what it is written as if that validator is the
standard one.

## Main definitions

* `Workflow.decode_toJson`: a workflow, written and read.
* `Workflow.wire_round_trip`: workflows and the definitions that they become.
-/

namespace TypedWorkflow

/-! ## Positions and links -/

theorem Position.decode_toJson (source : Decode.Source) (p : Position) :
    decode source (Document.ofJson p.toJson) = .ok p := by
  have hread : Decode.Reads readField ⟨.zero false, .zero false⟩
      [("x", .num (.float p.x)), ("y", .num (.float p.y))] p := .cons rfl (.cons rfl .nil)
  exact Decode.record_ofJson hread (by decide) (List.Sublist.refl _) (List.Subset.refl _) source

/-- The key of an entry that may be left out. -/
theorem keys_optionalEntry {α : Type} (key : String) (toJson : α → Json) (value : Option α) :
    ((optionalEntry key toJson value).map Prod.fst).Sublist [key] := by
  cases value with
  | none => exact List.nil_sublist _
  | some a => exact List.Sublist.refl _

/-- Reading an entry that may be left out: `set` gives the state for each value, and the one without
a value is there from the start. -/
theorem Decode.Reads.optional {α σ : Type} {read : String → Document → σ → Decoded σ} {key : String}
    {toJson : α → Json} {value : Option α} (set : Option α → σ)
    (hread : ∀ a, value = some a →
      read key (Document.ofJson (toJson a)) (set none) = .ok (set (some a))) :
    Decode.Reads read (set none) (optionalEntry key toJson value) (set value) := by
  cases value with
  | none => exact .nil
  | some a => exact .singleton (hread a rfl)

theorem Link.decode_toJson (source : Decode.Source) (l : Link) :
    decode source (Document.ofJson l.toJson) = .ok l := by
  have hends : Decode.Reads readField ⟨"", "", "", "", none⟩
      [("source_id", .str l.sourceId), ("source_output_key", .str l.sourceKey),
        ("target_id", .str l.targetId), ("target_input_key", .str l.targetKey)]
      { l with condition := none } := .cons rfl (.cons rfl (.cons rfl (.cons rfl .nil)))
  have hcondition : Decode.Reads readField { l with condition := none }
      (optionalEntry "condition" .str l.condition) l :=
    .optional (fun c => { l with condition := c }) fun _ _ => rfl
  have hkeys : (["source_id", "source_output_key", "target_id", "target_input_key"] ++
      (optionalEntry "condition" Json.str l.condition).map Prod.fst).Sublist fields.names :=
    (List.Sublist.refl _).append (keys_optionalEntry ..)
  exact Decode.record_ofJson (hends.append hcondition) (by decide) (by simpa using hkeys)
    (by simp [fields]) source

namespace Workflow

variable {source : Decode.Source}

/-! ## Nodes and levels -/

theorem toJson_eq (w : Workflow) : w.toJson =
    .obj [("nodes", .arr (w.nodes.map nodeToJson)), ("links", .arr (w.links.map Link.toJson)),
      ("test_inputs", .arr (w.testInputs.map .obj))] := by
  obtain ⟨nodes, links, inputs⟩ := w
  rw [toJson, nodesToJson_eq_map]

theorem toJson_ne_null (w : Workflow) : w.toJson ≠ .null := by
  rw [toJson_eq]
  simp

theorem keys_nodeToJson (n : Node) :
    ((nodeToJson n).entries.map Prod.fst).Sublist NodeEntry.fields.names := by
  have hkeys := (((((List.Sublist.refl ["id"]).append
    (keys_optionalEntry "parent_id" Json.str n.parentId)).append
    (keys_optionalEntry "title" Json.str n.title)).append
    (List.Sublist.refl ["node_type", "config"])).append
    (keys_optionalEntry "coordinates" Position.toJson n.coordinates)).append
    (keys_optionalEntry "subworkflow" (fun v => v) (n.subworkflow.map toJson))
  simpa [nodeToJson, nodeJson, Json.entries, NodeEntry.fields] using hkeys

theorem required_nodeToJson (n : Node) :
    NodeEntry.fields.required ⊆ (nodeToJson n).entries.map Prod.fst := by
  simp [nodeToJson, nodeJson, Json.entries, NodeEntry.fields]

theorem optionalEntry_map (key : String) (owned : Option Workflow) :
    optionalEntry key (fun v => v) (owned.map toJson) = optionalEntry key toJson owned := by
  cases owned <;> rfl

theorem readNodeField_config {config : Json.Entries} (h : (Json.obj config).Distinct) (n : Node) :
    readNodeField source "config" (Document.ofJson (.obj config)) n =
      .ok { n with config := config } :=
  Except.bind_eq_ok_iff.2 ⟨_, Decode.object_ofJson h, rfl⟩

theorem readNodeField_coordinates (p : Position) (n : Node) :
    readNodeField source "coordinates" (Document.ofJson p.toJson) n =
      .ok { n with coordinates := some p } := by
  have hnull : p.toJson ≠ .null := by simp [Position.toJson]
  have hp := Decode.optional_ofJson hnull (p.decode_toJson source)
  exact Except.bind_eq_ok_iff.2 ⟨_, hp, rfl⟩

theorem readNodeField_subworkflow {s : Workflow}
    (h : decode source (Document.ofJson s.toJson) = .ok s) (n : Node) :
    readNodeField source "subworkflow" (Document.ofJson s.toJson) n =
      .ok { n with subworkflow := some s } := by
  have hs := Decode.optional_ofJson s.toJson_ne_null h
  exact Except.bind_eq_ok_iff.2 ⟨_, hs, rfl⟩

/-- A node, written and read, provided that what it owns can be. -/
theorem decodeNode_nodeToJson {n : Node} (hconfig : (Json.obj n.config).Distinct)
    (howned : ∀ s, n.subworkflow = some s → decode source (Document.ofJson s.toJson) = .ok s) :
    decodeNode source (Document.ofJson (nodeToJson n)) = .ok n := by
  -- the entries in order, each with the node as it has been read so far
  have hid : Decode.Reads (readNodeField source) .blank [("id", .str n.id)]
      ⟨n.id, none, none, "", [], none, none⟩ := .singleton rfl
  have hparent : Decode.Reads (readNodeField source) ⟨n.id, none, none, "", [], none, none⟩
      (optionalEntry "parent_id" .str n.parentId)
      ⟨n.id, n.parentId, none, "", [], none, none⟩ :=
    .optional (fun p => (⟨n.id, p, none, "", [], none, none⟩ : Node)) fun _ _ => rfl
  have htitle : Decode.Reads (readNodeField source) ⟨n.id, n.parentId, none, "", [], none, none⟩
      (optionalEntry "title" .str n.title) ⟨n.id, n.parentId, n.title, "", [], none, none⟩ :=
    .optional (fun t => (⟨n.id, n.parentId, t, "", [], none, none⟩ : Node)) fun _ _ => rfl
  have htype : Decode.Reads (readNodeField source)
      ⟨n.id, n.parentId, n.title, "", [], none, none⟩
      [("node_type", .str n.nodeType), ("config", .obj n.config)]
      { n with coordinates := none, subworkflow := none } :=
    .cons rfl (.singleton (readNodeField_config hconfig _))
  have hcoordinates : Decode.Reads (readNodeField source)
      { n with coordinates := none, subworkflow := none }
      (optionalEntry "coordinates" Position.toJson n.coordinates) { n with subworkflow := none } :=
    .optional (fun c => { n with coordinates := c, subworkflow := none }) fun p _ =>
      readNodeField_coordinates p _
  have howned' : Decode.Reads (readNodeField source) { n with subworkflow := none }
      (optionalEntry "subworkflow" toJson n.subworkflow) n :=
    .optional (fun s => { n with subworkflow := s }) fun s hs =>
      readNodeField_subworkflow (howned s hs) _
  rw [← optionalEntry_map] at howned'
  have hread := ((((hid.append hparent).append htitle).append htype).append hcoordinates).append
    howned'
  rw [decodeNode_eq_record]
  exact Decode.record_ofJson hread (by decide) (keys_nodeToJson n) (required_nodeToJson n) source

/-- A workflow, written and read. -/
theorem decode_toJson {w : Workflow} (hw : w.DistinctKeys) :
    decode source (Document.ofJson w.toJson) = .ok w := by
  induction hw with
  | @level w hconfigs hinputs _ ih =>
    obtain ⟨nodes, links, inputs⟩ := w
    have hnodes : Decode.list (decodeNode source)
        (Document.ofJson (.arr (nodes.map nodeToJson))) = .ok nodes :=
      Decode.list_ofJson fun n hn => decodeNode_nodeToJson (hconfigs n hn) (ih n hn)
    have hlinks : Decode.list (Link.decode source)
        (Document.ofJson (.arr (links.map Link.toJson))) = .ok links :=
      Decode.list_ofJson fun l _ => l.decode_toJson source
    have htests : Decode.list Decode.object
        (Document.ofJson (.arr (inputs.map .obj))) = .ok inputs :=
      Decode.list_ofJson fun input hinput => Decode.object_ofJson (hinputs input hinput)
    have hread : Decode.Reads (readLevelField source) .empty
        [("nodes", .arr (nodes.map nodeToJson)), ("links", .arr (links.map Link.toJson)),
          ("test_inputs", .arr (inputs.map .obj))] ⟨nodes, links, inputs⟩ :=
      .cons (Except.bind_eq_ok_iff.2 ⟨_, hnodes, rfl⟩) (.cons (Except.bind_eq_ok_iff.2
        ⟨_, hlinks, rfl⟩) (.singleton (Except.bind_eq_ok_iff.2 ⟨_, htests, rfl⟩)))
    rw [decode_eq_record, toJson_eq]
    exact Decode.record_ofJson hread (by decide) (List.Sublist.refl _) (by simp [fields]) source

/-! ## Definitions -/

/-- What a validator makes of a workflow goes back to the workflow and is written as it. -/
theorem of_validate {w : Workflow} {v : Validator} {d : Definition} (h : v.validate w = .ok d) :
    d.workflow = w ∧ d.toJson = w.toJson := by
  obtain ⟨-, rfl⟩ := Validator.validate_eq_ok_iff.1 h
  have hback := Definition.workflow_ofValidated w
  refine ⟨hback, ?_⟩
  rw [← Definition.toJson_workflow, hback]

/-- A workflow is read from the object that it is written as. The definition that a validator makes
of it goes back to the workflow, is written as the workflow is, and is made again by the validator.
If that is the standard one, the definition is also read from the object that it is written as. -/
theorem wire_round_trip {w : Workflow} (hw : w.DistinctKeys) :
    Decode.ofJson decode w.toJson = .ok w ∧
      ∀ (v : Validator) (d : Definition), v.validate w = .ok d →
        d.workflow = w ∧ d.toJson = w.toJson ∧ v.validate d.workflow = .ok d ∧
          (v = .standard → Definition.ofJson d.toJson = .ok d) := by
  have hread : Decode.ofJson decode w.toJson = .ok w := decode_toJson hw
  refine ⟨hread, ?_⟩
  intro v d hd
  obtain ⟨hback, hwritten⟩ := of_validate hd
  refine ⟨hback, hwritten, hback.symm ▸ hd, ?_⟩
  rintro rfl
  rw [hwritten, Definition.ofJson, hread]
  exact hd

/-- A workflow in which a loop owns another. -/
def loopSample : Workflow where
  nodes := [
    ⟨"in", none, some "Question", "InputNode", [("retries", .num (.int 2)), ("labels", .obj [])],
      some ⟨.zero false, .zero true⟩, none⟩,
    ⟨"loop", some "in", none, "FixedIterationLoopNode", [], none, some
      { nodes := [⟨"first", none, none, "InputNode", [("key", .null)], none, none⟩]
        links := [⟨"first", "x", "first", "y", none⟩]
        testInputs := [] }⟩]
  links := [⟨"in", "question", "loop", "x", some "len(question) > 0"⟩]
  testInputs := [[("question", .str "why?")], []]

theorem wire_round_trip_loopSample :
    loopSample.DistinctKeys ∧ Decode.ofJson decode loopSample.toJson = .ok loopSample ∧
      Definition.ofJson (Definition.ofValidated loopSample).toJson =
        .ok (Definition.ofValidated loopSample) := by
  have hkeys : loopSample.DistinctKeys := by
    refine .level ?_ ?_ ?_
    · simp [loopSample, Json.Distinct, Json.DistinctEntries]
    · simp [loopSample, Json.Distinct, Json.DistinctEntries]
    · simp only [loopSample, List.forall_mem_cons]
      refine ⟨by simp, ?_, by simp⟩
      rintro s ⟨⟩
      exact .level (by simp [Json.Distinct, Json.DistinctEntries]) (by simp) (by simp)
  have hvalid : Validator.standard.validate loopSample = .ok (.ofValidated loopSample) := rfl
  obtain ⟨hread, hdefinition⟩ := wire_round_trip hkeys
  exact ⟨hkeys, hread, (hdefinition _ _ hvalid).2.2.2 rfl⟩

end Workflow

end TypedWorkflow
