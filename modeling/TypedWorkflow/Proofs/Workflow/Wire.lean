import TypedWorkflow.Proofs.Decoding
import TypedWorkflow.Workflow.Wire

/-!
# Reading workflows

The decoders of nodes and of levels call each other, but each is the decoder of a record, one of
whose fields holds the other. So what is known of the decoder of any record holds of them. In
particular no object repeats a key in the configs and test inputs of a workflow that was read: each
of them is read by itself, and the nodes that a level holds and the workflow that a node owns stand
inside the document.

## Main definitions

* `Workflow.decode_eq_record`, `Workflow.decodeNode_eq_record`: the decoders as records.
* `Workflow.DistinctKeys`: no object of a config or test input repeats a key.
* `Workflow.distinctKeys_of_decode`: the keys of what was read.
-/

namespace TypedWorkflow

namespace Workflow

/-! ## The decoders as records -/

/-- Reads a field of a node. -/
def readNodeField (source : Decode.Source) (name : String) (d : Document) (n : Node) :
    Decoded Node :=
  if name = "subworkflow" then do
    return { n with subworkflow := ← Decode.optional (decode source) d }
  else NodeEntry.readField source name d n

/-- Reads a field of a level. -/
def readLevelField (source : Decode.Source) (name : String) (d : Document) (w : Workflow) :
    Decoded Workflow :=
  if name = "nodes" then do return { w with nodes := ← Decode.list (decodeNode source) d }
  else readField source name d w

variable (source : Decode.Source)

theorem decodeNodeEntries_eq (seen : List String) (n : Node) (es : List (String × Document)) :
    decodeNodeEntries source seen n es =
      Decode.entries NodeEntry.fields (readNodeField source) seen n es := by
  induction es generalizing seen n with
  | nil => rfl
  | cons e rest ih =>
    obtain ⟨key, d⟩ := e
    rw [decodeNodeEntries, Decode.entries]
    refine bind_congr fun accepted => ?_
    cases accepted with
    | none => exact ih seen n
    | some seen' =>
      dsimp only
      by_cases hkey : key = "subworkflow"
      · rw [if_pos hkey, readNodeField, if_pos hkey, bind_assoc]
        refine bind_congr fun owned => ?_
        rw [pure_bind]
        exact ih ..
      · rw [if_neg hkey, readNodeField, if_neg hkey]
        exact bind_congr fun n' => ih seen' n'

theorem decodeNodePositions_eq (names : List String) (n : Node) (ds : List Document) :
    decodeNodePositions source names n ds =
      Decode.positions (readNodeField source) names n ds := by
  induction ds generalizing names n with
  | nil => cases names <;> rfl
  | cons d rest ih =>
    cases names with
    | nil => rfl
    | cons name names =>
      rw [decodeNodePositions, Decode.positions]
      by_cases hname : name = "subworkflow"
      · rw [if_pos hname, readNodeField, if_pos hname, bind_assoc]
        refine bind_congr fun owned => ?_
        rw [pure_bind]
        exact ih ..
      · rw [if_neg hname, readNodeField, if_neg hname]
        exact bind_congr fun n' => ih names n'

theorem decodeNode_eq_record (d : Document) :
    decodeNode source d =
      Decode.record NodeEntry.fields source (readNodeField source) .blank d := by
  cases d with
  | obj es fault => rw [decodeNode, Decode.record, decodeNodeEntries_eq]
  | arr ds fault => rw [decodeNode, Decode.record, decodeNodePositions_eq]
  | _ => rfl

theorem decodeNodeItems_eq (ds : List Document) :
    decodeNodeItems source ds = Decode.items (decodeNode source) ds := by
  induction ds with
  | nil => rfl
  | cons d rest ih => rw [decodeNodeItems, Decode.items, ih]

theorem decodeNodes_eq (d : Document) :
    decodeNodes source d = Decode.list (decodeNode source) d := by
  cases d with
  | arr ds fault => rw [decodeNodes, Decode.list, decodeNodeItems_eq]
  | deep bracket => cases bracket <;> rfl
  | _ => rfl

theorem decodeEntries_eq (seen : List String) (w : Workflow) (es : List (String × Document)) :
    decodeEntries source seen w es =
      Decode.entries fields (readLevelField source) seen w es := by
  induction es generalizing seen w with
  | nil => rfl
  | cons e rest ih =>
    obtain ⟨key, d⟩ := e
    rw [decodeEntries, Decode.entries]
    refine bind_congr fun accepted => ?_
    cases accepted with
    | none => exact ih seen w
    | some seen' =>
      dsimp only
      by_cases hkey : key = "nodes"
      · rw [if_pos hkey, readLevelField, if_pos hkey, bind_assoc, decodeNodes_eq]
        refine bind_congr fun nodes => ?_
        rw [pure_bind]
        exact ih ..
      · rw [if_neg hkey, readLevelField, if_neg hkey]
        exact bind_congr fun w' => ih seen' w'

theorem decodePositions_eq (names : List String) (w : Workflow) (ds : List Document) :
    decodePositions source names w ds =
      Decode.positions (readLevelField source) names w ds := by
  induction ds generalizing names w with
  | nil => cases names <;> rfl
  | cons d rest ih =>
    cases names with
    | nil => rfl
    | cons name names =>
      rw [decodePositions, Decode.positions]
      by_cases hname : name = "nodes"
      · rw [if_pos hname, readLevelField, if_pos hname, bind_assoc, decodeNodes_eq]
        refine bind_congr fun nodes => ?_
        rw [pure_bind]
        exact ih ..
      · rw [if_neg hname, readLevelField, if_neg hname]
        exact bind_congr fun w' => ih names w'

theorem decode_eq_record (d : Document) :
    decode source d = Decode.record fields source (readLevelField source) .empty d := by
  cases d with
  | obj es fault => rw [decode, Decode.record, decodeEntries_eq]
  | arr ds fault => rw [decode, Decode.record, decodePositions_eq]
  | _ => rfl

/-! ## Keys of what is read -/

/-- No object of a config or of a test input repeats a key, at whatever depth of the value and of
the workflow it stands. -/
inductive DistinctKeys : Workflow → Prop where
  | level {w : Workflow} (hconfigs : ∀ n ∈ w.nodes, (Json.obj n.config).Distinct)
      (hinputs : ∀ input ∈ w.testInputs, (Json.obj input).Distinct)
      (howned : ∀ n ∈ w.nodes, ∀ s, n.subworkflow = some s → DistinctKeys s) : DistinctKeys w

variable {source}

/-- No object repeats a key in the config of a node or in the workflow that it owns. -/
def NodeDistinct (n : Node) : Prop :=
  (Json.obj n.config).Distinct ∧ ∀ s, n.subworkflow = some s → s.DistinctKeys

theorem distinctKeys_iff {w : Workflow} :
    w.DistinctKeys ↔ (∀ n ∈ w.nodes, NodeDistinct n) ∧
      ∀ input ∈ w.testInputs, (Json.obj input).Distinct := by
  constructor
  · rintro ⟨hconfigs, hinputs, howned⟩
    exact ⟨fun n hn => ⟨hconfigs n hn, howned n hn⟩, hinputs⟩
  · rintro ⟨hnodes, hinputs⟩
    exact .level (fun n hn => (hnodes n hn).1) hinputs fun n hn => (hnodes n hn).2

/-- What the fields of a node other than the workflow that it owns do to its config. -/
theorem config_of_readField {name : String} {d : Document} {n n' : Node}
    (h : NodeEntry.readField source name d n = .ok n') :
    n'.subworkflow = n.subworkflow ∧
      (n'.config = n.config ∨ Decode.object d = .ok n'.config) := by
  rw [NodeEntry.readField] at h
  split_ifs at h
  all_goals
    obtain ⟨v, hv, h⟩ := Except.bind_eq_ok_iff.1 h
    obtain rfl := Except.ok.inj h
  -- the config is the last but one of the fields
  any_goals exact ⟨rfl, .inl rfl⟩
  exact ⟨rfl, .inr hv⟩

theorem NodeDistinct.readNodeField {name : String} {d : Document} {n n' : Node}
    (hn : NodeDistinct n) (howned : ∀ s, decode source d = .ok s → s.DistinctKeys)
    (h : readNodeField source name d n = .ok n') : NodeDistinct n' := by
  rw [Workflow.readNodeField] at h
  split at h
  case isTrue =>
    obtain ⟨owned, hd, h⟩ := Except.bind_eq_ok_iff.1 h
    obtain rfl := Except.ok.inj h
    refine ⟨hn.1, ?_⟩
    rintro s rfl
    exact howned s (Decode.decode_of_optional hd)
  case isFalse =>
    obtain ⟨hsame, hconfig⟩ := config_of_readField h
    refine ⟨?_, hsame ▸ hn.2⟩
    rcases hconfig with hconfig | hconfig
    · exact hconfig ▸ hn.1
    · exact Decode.distinct_of_object hconfig

theorem readLevelField_cases {name : String} {d : Document} {w w' : Workflow}
    (h : readLevelField source name d w = .ok w') :
    (w'.nodes = w.nodes ∨ Decode.list (decodeNode source) d = .ok w'.nodes) ∧
      (w'.testInputs = w.testInputs ∨ Decode.list Decode.object d = .ok w'.testInputs) := by
  rw [readLevelField] at h
  split at h
  case isTrue =>
    obtain ⟨nodes, hnodes, h⟩ := Except.bind_eq_ok_iff.1 h
    obtain rfl := Except.ok.inj h
    exact ⟨.inr hnodes, .inl rfl⟩
  case isFalse =>
    rw [readField] at h
    split at h
    case isTrue =>
      obtain ⟨links, -, h⟩ := Except.bind_eq_ok_iff.1 h
      obtain rfl := Except.ok.inj h
      exact ⟨.inl rfl, .inl rfl⟩
    case isFalse =>
      obtain ⟨inputs, hinputs, h⟩ := Except.bind_eq_ok_iff.1 h
      obtain rfl := Except.ok.inj h
      exact ⟨.inl rfl, .inr hinputs⟩

theorem DistinctKeys.readLevelField {name : String} {d : Document} {w w' : Workflow}
    (hw : w.DistinctKeys)
    (hread : ∀ ns, Decode.list (decodeNode source) d = .ok ns → ∀ n ∈ ns, NodeDistinct n)
    (h : readLevelField source name d w = .ok w') : w'.DistinctKeys := by
  obtain ⟨hold, hinputs⟩ := distinctKeys_iff.1 hw
  obtain ⟨hnodes, htests⟩ := readLevelField_cases h
  refine distinctKeys_iff.2 ⟨?_, ?_⟩
  · rcases hnodes with hnodes | hnodes
    · exact hnodes ▸ hold
    · exact hread _ hnodes
  · rcases htests with htests | htests
    · exact htests ▸ hinputs
    · intro input hinput
      obtain ⟨e, -, he⟩ := Decode.exists_of_mem_list htests hinput
      exact Decode.distinct_of_object he

/-- In a workflow that was read no object repeats a key, and neither in a node that was. -/
theorem distinctKeys_of_decode (d : Document) :
    (∀ w, decode source d = .ok w → w.DistinctKeys) ∧
      (∀ n, decodeNode source d = .ok n → NodeDistinct n) ∧
        ∀ ns, Decode.list (decodeNode source) d = .ok ns → ∀ n ∈ ns, NodeDistinct n := by
  induction d using Document.ind with
  | whole d ih =>
    refine ⟨?_, ?_, ?_⟩
    · intro w h
      rw [decode_eq_record] at h
      have hempty : DistinctKeys .empty :=
        .level (by simp [empty]) (by simp [empty]) (by simp [empty])
      refine Decode.record_invariant hempty ?_ h
      intro e he key w w' hw h
      exact hw.readLevelField (ih e he).2.2 h
    · intro n h
      rw [decodeNode_eq_record] at h
      have hblank : NodeDistinct .blank :=
        ⟨(Json.distinct_obj_iff []).2 (by simp), by simp [NodeEntry.blank]⟩
      refine Decode.record_invariant hblank ?_ h
      intro e he key n n' hn h
      exact hn.readNodeField (ih e he).1 h
    · intro ns h n hn
      obtain ⟨e, he, hn⟩ := Decode.exists_of_mem_list h hn
      exact (ih e he).2.1 n hn

end Workflow

end TypedWorkflow
