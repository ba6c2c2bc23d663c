import TypedWorkflow.Proofs.Schema.Congruence
import TypedWorkflow.Proofs.Schema.Equality
import TypedWorkflow.Proofs.Schema.Instances

/-!
# What can be constructed

Tokens, schemas, record types and instances are constructed from one another: a record type is the
type of a field, and the type of named instances has a field for each of them. None of the
constructions declares a name twice or repeats a key, so on all that can be constructed equality is
an equivalence, which sees the structure and nothing else.

## Main definitions

* `TypeToken.Built`, `Schema.Built`, `RecordType.Built`, `RecordInstance.Built`: what can be
  constructed.
* `TypeToken.Built.distinct`, `RecordInstance.Built.distinct`: no name is declared twice, and
  no key is repeated.
* `RecordType.structural_equality`: equality is an equivalence, and what it says.
-/

namespace TypedWorkflow

/-! ## Reading a schema -/

theorem TypeToken.distinct_of_decode {d : Document} {t : TypeToken} (h : decode d = .ok t) :
    t.Distinct := by
  obtain ⟨text, -, h⟩ := Except.bind_eq_ok_iff.1 h
  split at h
  case h_1 t' ht' => exact Except.ok.inj h ▸ distinct_of_ofText ht'
  case h_2 => cases h

namespace Schema

theorem WellFormed.decodeEntries {s u : Schema} (hs : s.WellFormed)
    {entries : List (String × Document)} (h : s.decodeEntries entries = .ok u) : u.WellFormed := by
  induction entries generalizing s with
  | nil => exact Except.ok.inj h ▸ hs
  | cons e rest ih =>
    obtain ⟨type, htype, h⟩ := Except.bind_eq_ok_iff.1 h
    split at h
    case h_1 s' hs' => exact ih (hs.insert (TypeToken.distinct_of_decode htype) hs') h
    case h_2 => cases h

/-- A schema that a document denotes is well formed. -/
theorem wellFormed_of_decode {d : Document} {s : Schema} (h : decode d = .ok s) :
    s.WellFormed := by
  cases d with
  | obj entries fault =>
    obtain ⟨u, hu, h⟩ := Except.bind_eq_ok_iff.1 h
    obtain ⟨-, -, h⟩ := Except.bind_eq_ok_iff.1 h
    exact Except.ok.inj h ▸ wellFormed_empty.decodeEntries hu
  | deep bracket => cases bracket <;> cases h
  | _ => cases h

end Schema

/-! ## Constructions -/

mutual

/-- The types of fields that can be constructed: each kind of type from its parts, and what a text,
a value or a document gives. -/
inductive TypeToken.Built : TypeToken → Prop
  | int : TypeToken.Built .int
  | float : TypeToken.Built .float
  | str : TypeToken.Built .str
  | bool : TypeToken.Built .bool
  | any : TypeToken.Built .any
  | list : TypeToken.Built .list
  | listOf {item : TypeToken} (h : item.Built) : TypeToken.Built (.listOf item)
  | dict : TypeToken.Built .dict
  | dictOf {key value : TypeToken} (hkey : key.Built) (hvalue : value.Built) :
      TypeToken.Built (.dictOf key value)
  | record {T : RecordType} (h : T.Built) : TypeToken.Built T.token
  | ofText {text : String} {t : TypeToken} (h : TypeToken.ofText text = .ok t) : t.Built
  | infer (v : Json) : (TypeToken.infer v).Built
  | decode {d : Document} {t : TypeToken} (h : TypeToken.decode d = .ok t) : t.Built

/-- The schemas that can be constructed: by adding fields, and by the readers. -/
inductive Schema.Built : Schema → Prop
  | empty : Schema.Built .empty
  | single (name : String) {type : TypeToken} (h : type.Built) : Schema.Built (.single name type)
  | insert {s u : Schema} (hs : s.Built) {name : String} {type : TypeToken} (htype : type.Built)
      (h : s.insert name type = .ok u) : u.Built
  | ofPairs {pairs : List (String × String)} {s : Schema} (h : Schema.ofPairs pairs = .ok s) :
      s.Built
  | ofJson {v : Json} {s : Schema} (h : Schema.ofJson v = .ok s) : s.Built
  | decode {d : Document} {s : Schema} (h : Schema.decode d = .ok s) : s.Built

/-- The record types that can be constructed: from a schema, from an object of samples, which
repeats no key, and from named instances. -/
inductive RecordType.Built : RecordType → Prop
  | ofSchema (name : String) {s : Schema} (h : s.Built) : RecordType.Built ⟨name, s⟩
  | infer (name : String) {sample : Json.Entries} (h : (sample.map Prod.fst).Nodup) :
      (RecordType.infer name sample).Built
  | ofInstances {name : String} {instances : List (String × RecordInstance)} {T : RecordType}
      (hinstances : ∀ i ∈ instances, i.2.Built)
      (h : RecordType.ofInstances name instances = .ok T) : T.Built

/-- The instances that can be constructed: by validation of values that repeat no key, or of other
instances. -/
inductive RecordInstance.Built : RecordInstance → Prop
  | validate {T : RecordType} (hT : T.Built) {v : Json} (hv : v.Distinct) {o : RecordInstance}
      (h : T.validate v = .ok o) : o.Built
  | revalidate {T : RecordType} (hT : T.Built) {i o : RecordInstance} (hi : i.Built)
      (h : T.revalidate i = .ok o) : o.Built

end

/-! ## Nothing is repeated -/

/-- An instance is of the type that made it, and its object repeats no key if the value does not. -/
theorem RecordType.distinct_of_validate {T : RecordType} (hT : T.WellFormed) {v : Json}
    (hv : v.Distinct) {o : RecordInstance} (h : T.validate v = .ok o) :
    o.type.WellFormed ∧ o.toJson.Distinct := by
  refine ⟨?_, ?_⟩
  · rwa [Makes.type_eq ⟨v, h⟩]
  · rw [(toJson_of_validate h).2]
    exact hv.normalForm hT

mutual

theorem TypeToken.Built.distinct {t : TypeToken} : t.Built → t.Distinct
  | .int | .float | .str | .bool | .any | .list | .dict => trivial
  | .listOf hitem => hitem.distinct
  | .dictOf hkey hvalue => ⟨hkey.distinct, hvalue.distinct⟩
  | .record hT => hT.wellFormed
  | .ofText hread => TypeToken.distinct_of_ofText hread
  | .infer v => TypeToken.distinct_infer v
  | .decode hread => TypeToken.distinct_of_decode hread

theorem Schema.Built.wellFormed {s : Schema} : s.Built → s.WellFormed
  | .empty => Schema.wellFormed_empty
  | .single name htype => Schema.wellFormed_single name htype.distinct
  | .insert hs htype hinsert => hs.wellFormed.insert htype.distinct hinsert
  | .ofPairs hread => Schema.wellFormed_ofPairs hread
  | .ofJson hread => Schema.wellFormed_ofJson hread
  | .decode hread => Schema.wellFormed_of_decode hread

theorem RecordType.Built.wellFormed {T : RecordType} : T.Built → T.WellFormed
  | .ofSchema _ hs => RecordType.wellFormed_iff.2 hs.wellFormed
  | .infer name hsample => RecordType.wellFormed_infer name hsample
  | .ofInstances hinstances hT =>
    RecordType.wellFormed_ofInstances (fun i hi => (hinstances i hi).distinct.1) hT

theorem RecordInstance.Built.distinct {o : RecordInstance} :
    o.Built → o.type.WellFormed ∧ o.toJson.Distinct
  | .validate hT hv hmade => RecordType.distinct_of_validate hT.wellFormed hv hmade
  | .revalidate hT hi hmade => RecordType.distinct_of_validate hT.wellFormed hi.distinct.2 hmade

end

/-! ## Equality -/

theorem TypeToken.equivalence_same :
    Equivalence fun t u : {t : TypeToken // t.Built} => t.1.same u.1 = true where
  refl t := same_refl t.2.distinct
  symm {t u} h := same_symm t.2.distinct u.2.distinct h
  trans {s t u} h h' := same_trans s.2.distinct t.2.distinct u.2.distinct h h'

namespace RecordType

theorem equivalence_same :
    Equivalence fun T U : {T : RecordType // T.Built} => T.1.same U.1 = true where
  refl T := TypeToken.same_refl T.2.wellFormed
  symm {T U} h := TypeToken.same_symm T.2.wellFormed U.2.wellFormed h
  trans {S T U} h h' :=
    TypeToken.same_trans S.2.wellFormed T.2.wellFormed U.2.wellFormed h h'

end RecordType

namespace RecordInstance

/-- Equal instances are of equal types and hold alike objects. -/
theorem Built.same_iff {i j : RecordInstance} (hi : i.Built) (hj : j.Built) :
    i.same j = true ↔ i.type.same j.type = true ∧ i.toJson.Alike j.toJson := by
  have hvalues : Json.equivObject i.values j.values = true ↔ i.toJson.Alike j.toJson :=
    Json.equiv_iff_alike hi.distinct.2 hj.distinct.2
  rw [same, Bool.and_eq_true, hvalues]

theorem equivalence_same :
    Equivalence fun i j : {i : RecordInstance // i.Built} => i.1.same j.1 = true where
  refl i := (i.2.same_iff i.2).2 ⟨TypeToken.same_refl i.2.distinct.1, .refl _⟩
  symm {i j} h := by
    obtain ⟨htype, hvalues⟩ := (i.2.same_iff j.2).1 h
    have htype' := TypeToken.same_symm i.2.distinct.1 j.2.distinct.1 htype
    exact (j.2.same_iff i.2).2 ⟨htype', hvalues.symm⟩
  trans {i j k} h h' := by
    obtain ⟨htype, hvalues⟩ := (i.2.same_iff j.2).1 h
    obtain ⟨htype', hvalues'⟩ := (j.2.same_iff k.2).1 h'
    have htrans := TypeToken.same_trans i.2.distinct.1 j.2.distinct.1 k.2.distinct.1 htype htype'
    exact (i.2.same_iff k.2).2 ⟨htrans, hvalues.trans hvalues'⟩

end RecordInstance

/-- On all that can be constructed equality is an equivalence. Types are equal if they have one
structure, record types if a bijection between their fields keeps the names and leads to equal
types, and instances if their types are equal and their objects alike. -/
theorem RecordType.structural_equality :
    (Equivalence fun t u : {t : TypeToken // t.Built} => t.1.same u.1 = true) ∧
    (Equivalence fun T U : {T : RecordType // T.Built} => T.1.same U.1 = true) ∧
    (Equivalence fun i j : {i : RecordInstance // i.Built} => i.1.same j.1 = true) ∧
    (∀ t u : {t : TypeToken // t.Built}, t.1.same u.1 = true ↔ t.1.Alike u.1) ∧
    (∀ T U : {T : RecordType // T.Built}, T.1.same U.1 = true ↔
      Entries.Matched (fun t u => t.same u = true) T.1.schema.fields U.1.schema.fields) ∧
    ∀ i j : {i : RecordInstance // i.Built}, i.1.same j.1 = true ↔
      i.1.type.same j.1.type = true ∧ i.1.toJson.Alike j.1.toJson :=
  ⟨TypeToken.equivalence_same, equivalence_same, RecordInstance.equivalence_same,
    fun t u => TypeToken.same_iff_alike t.2.distinct u.2.distinct,
    fun T U => same_iff_matched T.2.wellFormed U.2.wellFormed,
    fun i j => i.2.same_iff j.2⟩

/-- The names of nested records and the order of their fields do not matter. -/
example :
    RecordType.same
      ⟨"Reading", ⟨[("at", .int), ("place", .record "Point" [("x", .float), ("y", .float)])]⟩⟩
      ⟨"Sample", ⟨[("place", .record "Spot" [("y", .float), ("x", .float)]), ("at", .int)]⟩⟩ =
    true := by
  decide

end TypedWorkflow
