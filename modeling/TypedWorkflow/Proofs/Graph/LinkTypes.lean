import TypedWorkflow.Graph.Basic
import TypedWorkflow.Proofs.Node.WellFormed
import TypedWorkflow.Proofs.Schema.Congruence

/-!
# Values along the links

The check of the links compares declared types only, and two types may be equal although their
records have other names and list their fields in another order. Nevertheless every value that can
leave the source of a checked link is accepted at the target, and comes out equal: it has passed the
output type and is in normal form, and equal types have equal normal forms. So inputs that are put
together from what the links carry are accepted.

## Main definitions

* `WorkflowGraph.checkLinks_eq_ok_iff`: what the check of the links asks for.
* `Link.Carries`: the values that can leave the source of a link.
* `WorkflowGraph.checkLinks_sound`: values carried by checked links are accepted.
-/

namespace TypedWorkflow

/-! ## The check -/

namespace WorkflowGraph

theorem mismatch?_eq_none_iff {l : Link} {output input : RecordType} :
    mismatch? l output input = none ↔ ∃ t u, output.field? l.sourceKey = some t ∧
      input.field? l.targetKey = some u ∧ t.same u = true := by
  rw [mismatch?]
  cases output.field? l.sourceKey with
  | none => simp
  | some t =>
    cases input.field? l.targetKey with
    | none => simp
    | some u => simp

/-- The links pass the check exactly if each one between constructed nodes leads from a declared
output to a declared input of an equal type. -/
theorem checkLinks_eq_ok_iff {g : WorkflowGraph} {instances : NodeInstances} :
    g.checkLinks instances = .ok () ↔ ∀ l ∈ g.workflow.links, ∀ source target,
      instances.lookup l.sourceId = some source → instances.lookup l.targetId = some target →
        ∃ t u, source.models.output.field? l.sourceKey = some t ∧
          target.models.input.field? l.targetKey = some u ∧ t.same u = true := by
  have hcheck : g.checkLinks instances = .ok () ↔
      g.workflow.links.filterMap (linkMismatch? instances) = [] := by
    rw [checkLinks]
    split <;> simp_all
  rw [hcheck, List.filterMap_eq_nil_iff]
  refine forall₂_congr fun l _ => ?_
  rw [linkMismatch?]
  cases instances.lookup l.sourceId with
  | none => simp
  | some source =>
    cases instances.lookup l.targetId with
    | none => simp
    | some target => simpa using mismatch?_eq_none_iff

end WorkflowGraph

/-! ## Carried values -/

/-- A value that an instance of the output type of the source holds under the source key. -/
def Link.Carries (l : Link) (instances : NodeInstances) (v : Json) : Prop :=
  ∃ source o, instances.lookup l.sourceId = some source ∧ source.models.output.Admits o ∧
    o.get? l.sourceKey = some v

/-- An object is accepted if it holds an acceptable value for every field, and the instance holds
what the check makes of these values. -/
theorem RecordType.exists_validate {T : RecordType} (hT : T.WellFormed) {entries : Json.Entries}
    (h : ∀ field t, T.field? field = some t → ∃ v w, entries.lookup field = some v ∧
      (∀ path, t.check v path = .ok w) ∧ v.equiv w = true) :
    ∃ i, T.validate (.obj entries) = .ok i ∧ ∀ field ∈ T.schema.names,
      ∃ v w, entries.lookup field = some v ∧ i.get? field = some w ∧ v.equiv w = true := by
  have hnames : T.schema.names.Nodup := hT.nodup_names
  refine ⟨⟨T, (T.token.normalForm (.obj entries)).entries⟩, ?_, ?_⟩
  · refine (validate_eq_ok_iff T _ _).2 ⟨?_, rfl⟩
    refine (TypeToken.conforms_record_iff _ _ _).2 ⟨entries, rfl, ?_⟩
    intro f hf
    obtain ⟨v, w, hv, hcheck, -⟩ := h f.1 f.2 (Entries.lookup_eq_some_of_mem hnames hf)
    exact ⟨v, hv, (TypeToken.check_eq_ok_iff.1 (hcheck "")).1⟩
  · intro field hfield
    obtain ⟨t, ht⟩ := Entries.lookup_isSome_iff_mem.2 hfield
    obtain ⟨v, w, hv, hcheck, hequiv⟩ := h field t ht
    refine ⟨v, w, hv, ?_, hequiv⟩
    have hget := TypeToken.lookup_normalFields T.schema.fields entries field
    rw [ht, hv] at hget
    rw [(TypeToken.check_eq_ok_iff.1 (hcheck "")).2]
    exact hget

namespace WorkflowGraph

variable {g : WorkflowGraph} {instances : NodeInstances}

/-- Under the source key of a checked link every output holds a value, which is accepted under the
target key and stays what it is. -/
theorem exists_get?_of_checkLinks (hinstances : ∀ id i, instances.lookup id = some i → i.Reachable)
    (h : g.checkLinks instances = .ok ()) {l : Link} (hl : l ∈ g.workflow.links)
    {source target : NodeInstance} (hsource : instances.lookup l.sourceId = some source)
    (htarget : instances.lookup l.targetId = some target) {o : RecordInstance}
    (ho : source.models.output.Admits o) :
    ∃ v type w, o.get? l.sourceKey = some v ∧ target.models.input.field? l.targetKey = some type ∧
      (∀ path, type.check v path = .ok w) ∧ v.equiv w = true := by
  obtain ⟨t, u, ht, hu, hsame⟩ := checkLinks_eq_ok_iff.1 h l hl source target hsource htarget
  have houtput := (hinstances _ _ hsource).wellFormed_models.output
  have hinput := (hinstances _ _ htarget).wellFormed_models.input
  obtain ⟨v, hv, hdistinct, hconf, hnormal⟩ := ho.exists_get? houtput ht
  obtain ⟨w, hcheck, hequiv⟩ := TypeToken.check_of_same (houtput.distinct_of_field? ht)
    (hinput.distinct_of_field? hu) hsame hdistinct hconf hnormal
  exact ⟨v, u, w, hv, hu, hcheck, hequiv⟩

/-- If the links pass the check, then every output of a source holds a value under the source key
which is accepted under the target key and stays what it is. So a target accepts every object that
holds a value carried by a link into it for each of its inputs, and keeps these values. -/
theorem checkLinks_sound (hinstances : ∀ id i, instances.lookup id = some i → i.Reachable)
    (h : g.checkLinks instances = .ok ()) :
    (∀ l ∈ g.workflow.links, ∀ source target,
      instances.lookup l.sourceId = some source → instances.lookup l.targetId = some target →
      ∀ o, source.models.output.Admits o → ∃ v type w, o.get? l.sourceKey = some v ∧
        target.models.input.field? l.targetKey = some type ∧
        (∀ path, type.check v path = .ok w) ∧ v.equiv w = true) ∧
    ∀ id target, instances.lookup id = some target → ∀ entries : Json.Entries,
      (∀ key ∈ target.models.input.schema.names, ∃ l ∈ g.workflow.links,
        l.targetId = id ∧ l.targetKey = key ∧
          ∃ v, l.Carries instances v ∧ entries.lookup key = some v) →
      ∃ i, target.models.input.validate (.obj entries) = .ok i ∧
        ∀ key ∈ target.models.input.schema.names, ∃ v w, entries.lookup key = some v ∧
          i.get? key = some w ∧ v.equiv w = true := by
  refine ⟨fun l hl source target hsource htarget o ho =>
    exists_get?_of_checkLinks hinstances h hl hsource htarget ho, ?_⟩
  intro id target htarget entries hentries
  refine RecordType.exists_validate (hinstances _ _ htarget).wellFormed_models.input ?_
  intro key t ht
  obtain ⟨l, hl, rfl, rfl, v, ⟨source, o, hsource, ho, hget⟩, hv⟩ :=
    hentries key (Entries.lookup_isSome_iff_mem.1 ⟨t, ht⟩)
  obtain ⟨v', type, w, hv', htype, hcheck, hequiv⟩ :=
    exists_get?_of_checkLinks hinstances h hl hsource htarget ho
  obtain rfl : v' = v := Option.some.inj (hv'.symm.trans hget)
  obtain rfl : type = t := Option.some.inj (htype.symm.trans ht)
  exact ⟨v', w, hv, hcheck, hequiv⟩

/-- A range of numbers. The two types are equal, though not in name and order. -/
def rangeType (swapped : Bool) : TypeToken :=
  if swapped then .record "Bounds" [("high", .float), ("low", .int)]
  else .record "Range" [("low", .int), ("high", .float)]

/-- An implementation that returns the range that it is given. -/
def rangeKind (swapped : Bool) : NodeKind where
  name := "range_node"
  variant := .fixed
  fixed := ⟨some (.single "range" (rangeType swapped)), some (.single "range" (rangeType swapped))⟩
  decode _ := .ok fun _ input => .ok (.record input)

theorem lawful_rangeKind (swapped : Bool) : (rangeKind swapped).Lawful := by
  have htype : (rangeType swapped).Distinct := by
    cases swapped <;> simp [rangeType, TypeToken.Distinct, TypeToken.DistinctFields]
  refine NodeKind.lawful_of_variant ?_ fun _ => rfl
  rintro (_ | _) s hs
  · exact Option.some.inj hs ▸ Schema.wellFormed_single "range" htype
  · exact Option.some.inj hs ▸ Schema.wellFormed_single "range" htype

/-- The instance of that implementation with the empty config. -/
def rangeNode (swapped : Bool) : NodeInstance where
  kind := rangeKind swapped
  config := .obj []
  context := none
  models := .make "range_node" (.single "range" (rangeType swapped))
    (.single "range" (rangeType swapped))
  tag := .ofName "range_node"
  lastInput := none
  lastOutput := none

theorem reachable_rangeNode (swapped : Bool) : (rangeNode swapped).Reachable := by
  have h : NodeInstance.construct (rangeKind swapped) .null none = .ok (rangeNode swapped) := rfl
  have hnull : Json.null.Distinct := trivial
  exact .construct (lawful_rangeKind swapped) hnull h

/-- Two such nodes and a link from the one to the other. -/
def rangeGraph : WorkflowGraph :=
  ⟨⟨[⟨"a", none, none, "range_node", [], none, none⟩,
      ⟨"b", none, none, "range_node", [], none, none⟩],
    [⟨"a", "range", "b", "range", none⟩], []⟩, ["a", "b"]⟩

/-- The range from 1 to 2, its lower end a floating-point number. -/
def oneToTwoSample : Json :=
  .obj [("high", .num (.int 2)), ("low", .num (.float ⟨false, 2 ^ 52, -52, by decide⟩))]

/-- The normal form of that range at the first type. -/
def oneToTwo : Json :=
  .obj [("low", .num (.int 1)), ("high", .num (.int 2))]

theorem checkLinks_sound_rangeGraph :
    rangeGraph.checkLinks [("a", rangeNode false), ("b", rangeNode true)] = .ok () ∧
      ∃ i, (rangeNode true).models.input.validate (.obj [("range", oneToTwo)]) = .ok i ∧
        ∀ key ∈ (rangeNode true).models.input.schema.names, ∃ v w,
          [("range", oneToTwo)].lookup key = some v ∧ i.get? key = some w ∧ v.equiv w = true := by
  have hcheck : rangeGraph.checkLinks [("a", rangeNode false), ("b", rangeNode true)] = .ok () :=
    rfl
  have hreach : ∀ id i, List.lookup id [("a", rangeNode false), ("b", rangeNode true)] = some i →
      i.Reachable := by
    intro id i h
    rcases List.mem_cons.1 (Entries.mem_of_lookup_eq_some h) with h | h
    · exact (Prod.mk.inj h).2 ▸ reachable_rangeNode false
    · exact (Prod.mk.inj (List.mem_singleton.1 h)).2 ▸ reachable_rangeNode true
  refine ⟨hcheck, (checkLinks_sound hreach hcheck).2 "b" (rangeNode true) rfl _ ?_⟩
  intro key hkey
  obtain rfl : key = "range" := List.mem_singleton.1 hkey
  have hadmits : (rangeNode false).models.output.Admits
      ⟨(rangeNode false).models.output, [("range", oneToTwo)]⟩ := by
    refine ⟨.obj [("range", oneToTwoSample)], ?_, rfl⟩
    simp [oneToTwoSample, Json.Distinct, Json.DistinctEntries]
  have hcarries : Link.Carries ⟨"a", "range", "b", "range", none⟩
      [("a", rangeNode false), ("b", rangeNode true)] oneToTwo :=
    ⟨rangeNode false, _, rfl, hadmits, rfl⟩
  exact ⟨_, List.mem_singleton_self _, rfl, rfl, oneToTwo, hcarries, rfl⟩

end WorkflowGraph

end TypedWorkflow
