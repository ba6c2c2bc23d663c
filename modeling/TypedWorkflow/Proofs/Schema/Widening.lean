import TypedWorkflow.Proofs.Schema.NormalForm

/-!
# Wider types

A type may be widened in several ways: an integer is a number, the items of a list and the values of
a dictionary may be of a wider type, the keys of a dictionary may be read as something wider, fields
of a record may be left out, and a record is a dictionary. A wider type accepts every value of a
narrower one. It also accepts the normal form that the narrower type gives to the value, so that it
makes no difference whether a value has been validated before. This is how a node takes the record
of any predecessor as a dictionary.

## Main definitions

* `TypeToken.NarrowerKey`, `TypeToken.Narrower`: types of keys, and types, with wider ones.
* `TypeToken.Narrower.conforms`: values and their normal forms are values of the wider type.
* `RecordType.accepts_wider`: so the check against a wider type accepts both.
-/

namespace TypedWorkflow

/-! ## Keys -/

/-- A text of an integer is the text of a number without a point and without an exponent. -/
theorem Text.DenotesInt64.denotesFloat {cs : List Char} (h : DenotesInt64 cs) :
    DenotesFloat cs := by
  obtain ⟨negative, sign, digits, hsign, rfl, hdigits, -, -⟩ := h
  have hdecimal : Decimal (digits ++ []) := .whole hdigits .absent
  rw [List.append_nil] at hdecimal
  exact ⟨negative, sign, digits, hsign, rfl, .inl hdecimal⟩

namespace TypeToken

/-- The second type reads more keys than the first, or the same. -/
inductive NarrowerKey : TypeToken → TypeToken → Prop where
  | refl (key : TypeToken) : NarrowerKey key key
  | str (key : TypeToken) : NarrowerKey key .str
  | any (key : TypeToken) : NarrowerKey key .any
  | float : NarrowerKey .int .float

theorem NarrowerKey.readsKey {k l : TypeToken} (h : k.NarrowerKey l) {key : String}
    (hkey : k.ReadsKey key) : l.ReadsKey key := by
  cases h with
  | refl => exact hkey
  | str => trivial
  | any => trivial
  | float => exact Text.DenotesInt64.denotesFloat hkey

/-! ## Types -/

/-- The first type is narrower than the second. A record may have more fields than a wider one, in
another order; of a name that is declared the first declaration counts. -/
inductive Narrower : TypeToken → TypeToken → Prop where
  | refl (t : TypeToken) : Narrower t t
  | any (t : TypeToken) : Narrower t .any
  | float : Narrower .int .float
  | list (item : TypeToken) : Narrower (.listOf item) .list
  | listOf {s t : TypeToken} (h : Narrower s t) : Narrower (.listOf s) (.listOf t)
  | dict (key value : TypeToken) : Narrower (.dictOf key value) .dict
  | dictOf {k l s t : TypeToken} (hkey : k.NarrowerKey l) (hvalue : Narrower s t) :
      Narrower (.dictOf k s) (.dictOf l t)
  | recordDict (name : String) (fields : List (String × TypeToken)) :
      Narrower (.record name fields) .dict
  | record {m n : String} {fields others : List (String × TypeToken)}
      (hnames : ∀ f ∈ others, f.1 ∈ fields.map Prod.fst)
      (htypes : ∀ f ∈ others, ∀ s, fields.lookup f.1 = some s → Narrower s f.2) :
      Narrower (.record m fields) (.record n others)

/-- A value of a type is a value of every wider one, and so is its normal form at the narrower
type. -/
theorem Narrower.conforms {t u : TypeToken} (h : t.Narrower u) (ht : t.Distinct) {v : Json}
    (hv : t.Conforms v) : u.Conforms v ∧ u.Conforms (t.normalForm v) := by
  induction h generalizing v with
  | refl t => exact ⟨hv, conforms_normalForm ht hv⟩
  | any t => exact ⟨trivial, trivial⟩
  | float =>
    obtain ⟨n, rfl, -⟩ := (conforms_int_iff v).1 hv
    exact ⟨trivial, trivial⟩
  | list item =>
    obtain ⟨items, rfl, -⟩ := (conforms_listOf_iff item v).1 hv
    exact ⟨trivial, trivial⟩
  | @listOf s t _ ih =>
    obtain ⟨items, rfl, hitems⟩ := (conforms_listOf_iff s v).1 hv
    rw [normalForm, conforms_listOf_iff, conforms_listOf_iff]
    refine ⟨⟨items, rfl, ?_⟩, ⟨_, rfl, ?_⟩⟩
    · intro w hw
      exact (ih ht (hitems w hw)).1
    · intro w hw
      obtain ⟨x, hx, rfl⟩ := List.mem_map.1 hw
      exact (ih ht (hitems x hx)).2
  | dict key value =>
    obtain ⟨entries, rfl, -⟩ := (conforms_dictOf_iff key value v).1 hv
    exact ⟨trivial, trivial⟩
  | @dictOf k l s t hkey _ ih =>
    obtain ⟨entries, rfl, hentries⟩ := (conforms_dictOf_iff k s v).1 hv
    rw [normalForm, conforms_dictOf_iff, conforms_dictOf_iff]
    refine ⟨⟨entries, rfl, ?_⟩, ⟨_, rfl, ?_⟩⟩
    · intro e he
      obtain ⟨hreads, hvalue⟩ := hentries e he
      exact ⟨hkey.readsKey hreads, (ih ht.2 hvalue).1⟩
    · intro e he
      obtain ⟨d, hd, rfl⟩ := List.mem_map.1 he
      obtain ⟨hreads, hvalue⟩ := hentries d hd
      exact ⟨hkey.readsKey hreads, (ih ht.2 hvalue).2⟩
  | recordDict name fields =>
    obtain ⟨entries, rfl, -⟩ := (conforms_record_iff name fields v).1 hv
    exact ⟨trivial, trivial⟩
  | @record m n fields others hnames _ ih =>
    obtain ⟨-, hdistinct⟩ := (distinct_record_iff m fields).1 ht
    obtain ⟨entries, rfl, hentries⟩ := (conforms_record_iff m fields v).1 hv
    -- a field of the wider record holds a value of the type that the narrower one declares for it
    have hfield : ∀ f ∈ others, ∃ s w, fields.lookup f.1 = some s ∧ entries.lookup f.1 = some w ∧
        f.2.Conforms w ∧ f.2.Conforms (s.normalForm w) := by
      intro f hf
      obtain ⟨s, hs⟩ := Entries.lookup_isSome_iff_mem.2 (hnames f hf)
      have hmem := Entries.mem_of_lookup_eq_some hs
      obtain ⟨w, hw, hconf⟩ := hentries _ hmem
      exact ⟨s, w, hs, hw, ih f hf s hs (hdistinct _ hmem) hconf⟩
    rw [normalForm, conforms_record_iff, conforms_record_iff]
    refine ⟨⟨entries, rfl, ?_⟩, ⟨_, rfl, ?_⟩⟩
    · intro f hf
      obtain ⟨s, w, -, hw, hconf, -⟩ := hfield f hf
      exact ⟨w, hw, hconf⟩
    · intro f hf
      obtain ⟨s, w, hs, hw, -, hconf⟩ := hfield f hf
      refine ⟨s.normalForm w, ?_, hconf⟩
      simp [lookup_normalFields, hs, hw]

/-- What passes the check against a type passes the check against every wider one, and so does what
the first check has made of it. -/
theorem Narrower.check {t u : TypeToken} (h : t.Narrower u) (ht : t.Distinct) {v n : Json}
    {path : Path} (hn : t.check v path = .ok n) (path' : Path) :
    (∃ m, u.check v path' = .ok m) ∧ ∃ m, u.check n path' = .ok m := by
  obtain ⟨hconf, rfl⟩ := check_eq_ok_iff.1 hn
  obtain ⟨hraw, hnormal⟩ := h.conforms ht hconf
  exact ⟨⟨_, check_eq_ok_iff.2 ⟨hraw, rfl⟩⟩, ⟨_, check_eq_ok_iff.2 ⟨hnormal, rfl⟩⟩⟩

end TypeToken

/-! ## Record types -/

namespace RecordType

/-- A value that passes the check against a type passes the check against every wider type, wherever
it stands, and so does its normal form. So a wider record type accepts the values and the instances
of a narrower one. -/
theorem accepts_wider :
    (∀ t u : TypeToken, t.Narrower u → t.Distinct → ∀ v n path, t.check v path = .ok n →
      ∀ path', (∃ m, u.check v path' = .ok m) ∧ ∃ m, u.check n path' = .ok m) ∧
    ∀ T U : RecordType, T.token.Narrower U.token → T.WellFormed → ∀ v i, T.validate v = .ok i →
      (∃ j, U.validate v = .ok j) ∧ ∃ j, U.revalidate i = .ok j := by
  refine ⟨fun t u h ht v n path hn path' => h.check ht hn path', ?_⟩
  intro T U h hT v i hi
  obtain ⟨hconf, hjson⟩ := toJson_of_validate hi
  obtain ⟨hraw, hnormal⟩ := h.conforms hT hconf
  rw [← hjson] at hnormal
  exact ⟨⟨_, (validate_eq_ok_iff U v _).2 ⟨hraw, rfl⟩⟩,
    ⟨_, (validate_eq_ok_iff U i.toJson _).2 ⟨hnormal, rfl⟩⟩⟩

/-- Tallies with numbers for counts, numbers for keys, and a dictionary for the point. -/
def looseTallyType : RecordType :=
  ⟨"Loose", ⟨[("origin", .dict), ("counts", .dictOf .float (.listOf .float))]⟩⟩

theorem accepts_wider_tallySample :
    tallyType.token.Narrower looseTallyType.token ∧ tallyType.WellFormed ∧
      tallyType.token.check tallySample "left" = .ok tallyInstance.toJson ∧
      ((∃ m, looseTallyType.token.check tallySample "right" = .ok m) ∧
        ∃ m, looseTallyType.token.check tallyInstance.toJson "right" = .ok m) ∧
      tallyType.validate tallySample = .ok tallyInstance ∧
      (∃ j, looseTallyType.validate tallySample = .ok j) ∧
      ∃ j, looseTallyType.revalidate tallyInstance = .ok j := by
  have hnarrower : tallyType.token.Narrower looseTallyType.token := by
    refine .record (by simp [looseTallyType, tallyType]) ?_
    intro f hf s hs
    rcases List.mem_pair.1 hf with rfl | rfl
    · obtain rfl := Option.some.inj hs
      exact .recordDict _ _
    · obtain rfl := Option.some.inj hs
      exact .dictOf .float (.listOf .float)
  have htype : tallyType.WellFormed := by
    simp [WellFormed, token, tallyType, TypeToken.Distinct, TypeToken.DistinctFields]
  have hinside : tallyType.token.check tallySample "left" = .ok tallyInstance.toJson := rfl
  have hsample : tallyType.validate tallySample = .ok tallyInstance := rfl
  exact ⟨hnarrower, htype, hinside,
    accepts_wider.1 _ _ hnarrower htype tallySample _ "left" hinside "right", hsample,
    accepts_wider.2 tallyType looseTallyType hnarrower htype tallySample tallyInstance hsample⟩

end RecordType

end TypedWorkflow
