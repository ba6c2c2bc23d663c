import TypedWorkflow.Proofs.Except
import TypedWorkflow.Proofs.Json.Equality
import TypedWorkflow.Proofs.Schema.Token

/-!
# Well-formed schemas

A schema is well formed when neither it nor a record type inside it declares a name twice. All
schemas are built by adding fields one at a time, which refuses a name that is there, from types
that are read from a text, inferred from a value or taken from other schemas. So every one of them
is well formed, and so are the record types made of them.

## Main definitions

* `Schema.WellFormed`: no name is declared twice, at any depth.
* `Schema.WellFormed.insert`: adding a field keeps a schema well formed.
* `Schema.wellFormed_ofJson`, `Schema.wellFormed_ofPairs`: schemas that are read are well formed.
* `RecordType.wellFormed_infer`, `RecordType.wellFormed_ofInstances`: so are inferred types.
-/

namespace TypedWorkflow

/-! ## Types without records -/

namespace TypeToken

theorem distinct_of_atom? {name : List Char} {t : TypeToken} (h : atom? name = some t) :
    t.Distinct := by
  have hatoms : ∀ a ∈ atoms, a.2.Distinct := by simp [atoms, Distinct]
  exact hatoms _ (Entries.mem_of_lookup_eq_some h)

/-- What a text that denotes a token looks like: a name, or a list or a dictionary of tokens that
its argument denotes. -/
theorem ofChars_cases {raw : List Char} {t : TypeToken} (h : ofChars raw = .ok t) :
    atom? (normalize raw) = some t ∨
      (∃ item a, argument? ['l', 'i', 's', 't'] (normalize raw) = some item ∧
        ofChars item = .ok a ∧ t = .listOf a) ∨
      ∃ arguments key value k v, argument? ['d', 'i', 'c', 't'] (normalize raw) = some arguments ∧
        splitPair? arguments = some (key, value) ∧ ofChars key = .ok k ∧ ofChars value = .ok v ∧
        t = .dictOf k v := by
  rw [ofChars] at h
  split at h
  case h_1 a ha => exact .inl (ha.trans (congrArg some (Except.ok.inj h)))
  case h_2 =>
    split at h
    case h_1 item hitem =>
      obtain ⟨a, ha, rfl⟩ := Except.map_eq_ok_iff.1 h
      exact .inr (.inl ⟨item, a, hitem, ha, rfl⟩)
    case h_2 =>
      split at h
      case h_2 => cases h
      case h_1 arguments harguments =>
        split at h
        case h_2 => cases h
        case h_1 key value hpair =>
          obtain ⟨k, hk, h⟩ := Except.bind_eq_ok_iff.1 h
          obtain ⟨v, hv, h⟩ := Except.bind_eq_ok_iff.1 h
          exact .inr (.inr ⟨arguments, key, value, k, v, harguments, hpair, hk, hv,
            (Except.ok.inj h).symm⟩)

theorem distinct_of_ofChars {raw : List Char} {t : TypeToken} (h : ofChars raw = .ok t) :
    t.Distinct := by
  -- the induction is on the token: its parts are what shorter texts denote
  induction t generalizing raw with
  | listOf item ih =>
    rcases ofChars_cases h with ha | ⟨text, a, -, ha, heq⟩ | ⟨_, _, _, _, _, -, -, -, -, heq⟩
    · exact distinct_of_atom? ha
    · obtain rfl : item = a := TypeToken.listOf.inj heq
      exact ih ha
    · cases heq
  | dictOf key value ihkey ihvalue =>
    rcases ofChars_cases h with ha | ⟨_, _, -, -, heq⟩ | ⟨_, _, _, k, v, -, -, hk, hv, heq⟩
    · exact distinct_of_atom? ha
    · cases heq
    · obtain ⟨rfl, rfl⟩ := TypeToken.dictOf.inj heq
      exact ⟨ihkey hk, ihvalue hv⟩
  | record name fields =>
    rcases ofChars_cases h with ha | ⟨_, _, -, -, heq⟩ | ⟨_, _, _, _, _, -, -, -, -, heq⟩
    · exact distinct_of_atom? ha
    · cases heq
    · cases heq
  | _ => trivial

theorem distinct_of_ofText {text : String} {t : TypeToken} (h : ofText text = .ok t) :
    t.Distinct :=
  distinct_of_ofChars h

theorem distinct_infer (v : Json) : (infer v).Distinct := by
  cases v with
  | num n => cases n <;> trivial
  | _ => trivial

end TypeToken

/-! ## Schemas -/

namespace Schema

/-- No name is declared twice, neither here nor in a record type inside. -/
def WellFormed (s : Schema) : Prop :=
  s.Distinct ∧ ∀ f ∈ s.fields, f.2.Distinct

theorem wellFormed_empty : empty.WellFormed :=
  ⟨List.nodup_nil, by simp [empty]⟩

theorem wellFormed_single (name : String) {type : TypeToken} (h : type.Distinct) :
    (single name type).WellFormed :=
  ⟨List.nodup_singleton name, by simpa [single] using h⟩

theorem contains_iff {s : Schema} {name : String} : s.contains name = true ↔ name ∈ s.names := by
  rw [contains, Option.isSome_iff_exists]
  exact Entries.lookup_isSome_iff_mem

theorem insert_eq_ok_iff {s u : Schema} {name : String} {type : TypeToken} :
    s.insert name type = .ok u ↔ name ∉ s.names ∧ u = ⟨s.fields ++ [(name, type)]⟩ := by
  rw [← contains_iff, insert]
  by_cases h : s.contains name = true
  · simp [h]
  · simp [h, eq_comm]

/-- Adding a field keeps a schema well formed. -/
theorem WellFormed.insert {s u : Schema} (hs : s.WellFormed) {name : String} {type : TypeToken}
    (htype : type.Distinct) (h : s.insert name type = .ok u) : u.WellFormed := by
  obtain ⟨hfresh, rfl⟩ := insert_eq_ok_iff.1 h
  refine ⟨Entries.nodup_names_append hs.1 hfresh type, ?_⟩
  intro f hf
  rcases List.mem_append.1 hf with hf | hf
  · exact hs.2 f hf
  · obtain rfl := List.mem_singleton.1 hf
    exact htype

theorem WellFormed.insertText {s u : Schema} (hs : s.WellFormed) {name token : String}
    (h : s.insertText name token = .ok u) : u.WellFormed := by
  obtain ⟨type, htype, h⟩ := Except.bind_eq_ok_iff.1 h
  exact hs.insert (TypeToken.distinct_of_ofText htype) h

theorem WellFormed.insertPairs {s u : Schema} (hs : s.WellFormed) {pairs : List (String × String)}
    (h : s.insertPairs pairs = .ok u) : u.WellFormed := by
  induction pairs generalizing s with
  | nil => exact Except.ok.inj h ▸ hs
  | cons pair rest ih =>
    obtain ⟨s', hs', h⟩ := Except.bind_eq_ok_iff.1 h
    exact ih (hs.insertText hs') h

theorem wellFormed_ofPairs {pairs : List (String × String)} {s : Schema}
    (h : ofPairs pairs = .ok s) : s.WellFormed :=
  wellFormed_empty.insertPairs h

theorem WellFormed.insertEntries {s u : Schema} (hs : s.WellFormed) {entries : Json.Entries}
    (h : s.insertEntries entries = .ok u) : u.WellFormed := by
  induction entries generalizing s with
  | nil => exact Except.ok.inj h ▸ hs
  | cons e rest ih =>
    obtain ⟨name, v⟩ := e
    cases v with
    | str token =>
      obtain ⟨s', hs', h⟩ := Except.bind_eq_ok_iff.1 h
      exact ih (hs.insertText hs') h
    | _ => cases h

/-- A schema that an object denotes is well formed. -/
theorem wellFormed_ofJson {v : Json} {s : Schema} (h : ofJson v = .ok s) : s.WellFormed := by
  cases v with
  | obj entries => exact wellFormed_empty.insertEntries h
  | _ => cases h

end Schema

/-! ## Record types -/

namespace RecordType

theorem wellFormed_iff {t : RecordType} : t.WellFormed ↔ t.schema.WellFormed :=
  TypeToken.distinct_record_iff t.name t.schema.fields

/-- The type of an object is well formed, since the object does not repeat a key. -/
theorem wellFormed_infer (name : String) {sample : Json.Entries}
    (h : (sample.map Prod.fst).Nodup) : (infer name sample).WellFormed := by
  have hnames : (infer name sample).schema.names = sample.map Prod.fst :=
    Entries.names_map (fun _ v => TypeToken.infer v) sample
  refine wellFormed_iff.2 ⟨?_, ?_⟩
  · rwa [Schema.Distinct, hnames]
  · intro f hf
    obtain ⟨e, -, rfl⟩ := List.mem_map.1 hf
    exact TypeToken.distinct_infer e.2

theorem wellFormed_insertInstances {s u : Schema} (hs : s.WellFormed)
    {instances : List (String × RecordInstance)}
    (hinstances : ∀ i ∈ instances, i.2.type.WellFormed)
    (h : insertInstances s instances = .ok u) : u.WellFormed := by
  induction instances generalizing s with
  | nil => exact Except.ok.inj h ▸ hs
  | cons i rest ih =>
    obtain ⟨hi, hrest⟩ := List.forall_mem_cons.1 hinstances
    obtain ⟨s', hs', h⟩ := Except.bind_eq_ok_iff.1 h
    exact ih (hs.insert hi hs') hrest h

/-- The type of named instances is well formed if their types are. -/
theorem wellFormed_ofInstances {name : String} {instances : List (String × RecordInstance)}
    (hinstances : ∀ i ∈ instances, i.2.type.WellFormed) {t : RecordType}
    (h : ofInstances name instances = .ok t) : t.WellFormed := by
  obtain ⟨s, hs, h⟩ := Except.bind_eq_ok_iff.1 h
  obtain rfl : ⟨name, s⟩ = t := Except.ok.inj h
  exact wellFormed_iff.2 (wellFormed_insertInstances Schema.wellFormed_empty hinstances hs)

end RecordType

end TypedWorkflow
