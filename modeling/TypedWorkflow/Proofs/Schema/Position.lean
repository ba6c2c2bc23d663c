import TypedWorkflow.Proofs.Schema.NormalForm

/-!
# Numbers under validation

A position is a list of keys and indices, and leads to a value inside a value and to a type inside a
type. Validation keeps the value at every position that it keeps, up to the normal form at the type
there. So it keeps what a number denotes, with one exception: the floating-point number `2^63` at an
integer position, which is no signed 64-bit integer and becomes the greatest of these.

## Main definitions

* `Json.Step`, `Json.at?`, `TypeToken.at?`: positions, and what stands at one.
* `TypeToken.Conforms.at?_normalForm`: what stands at a position of a normal form.
* `RecordType.validate_number`: which numbers validation keeps.
-/

namespace TypedWorkflow

/-! ## Positions -/

/-- One step into a value: to the value under a key or to an item. -/
inductive Json.Step where
  | key (name : String)
  | item (i : Nat)

namespace Json

/-- The value one step inside a value. -/
def step? : Step → Json → Option Json
  | .key name, .obj entries => entries.lookup name
  | .item i, .arr items => items[i]?
  | _, _ => none

/-- The value at a position. -/
def at? : List Step → Json → Option Json
  | [], v => some v
  | step :: rest, v => (v.step? step).bind (at? rest)

end Json

namespace TypeToken

/-- The declared type of the values one step inside the values of a type. -/
def step? : Json.Step → TypeToken → Option TypeToken
  | .key name, .record _ fields => fields.lookup name
  | .key _, .dictOf _ value => some value
  | .item _, .listOf item => some item
  | _, _ => none

/-- The declared type of the values at a position, if one is declared. -/
def at? : List Json.Step → TypeToken → Option TypeToken
  | [], t => some t
  | step :: rest, t => (t.step? step).bind (at? rest)

/-! ## Positions of a normal form -/

/-- A step to a declared type leads to the normal form at that type, of a value of that type. -/
theorem Conforms.step?_normalForm {t : TypeToken} {v : Json} (h : t.Conforms v) {step : Json.Step}
    {u : TypeToken} (hu : t.step? step = some u) :
    (t.normalForm v).step? step = (v.step? step).map u.normalForm ∧
      ∀ w, v.step? step = some w → u.Conforms w := by
  cases t with
  | record name fields =>
    obtain ⟨entries, rfl, hentries⟩ := (conforms_record_iff name fields v).1 h
    cases step with
    | item i => simp [step?] at hu
    | key field =>
      obtain ⟨w, hw, hconf⟩ := hentries _ (Entries.mem_of_lookup_eq_some hu)
      simp only [step?] at hu
      simp [normalForm, Json.step?, lookup_normalFields, hu, hw, hconf]
  | dictOf key value =>
    obtain ⟨entries, rfl, hentries⟩ := (conforms_dictOf_iff key value v).1 h
    cases step with
    | item i => simp [step?] at hu
    | key name =>
      obtain rfl : value = u := by simpa [step?] using hu
      refine ⟨Entries.lookup_map (fun _ w => value.normalForm w) entries name, ?_⟩
      intro w hw
      exact (hentries _ (Entries.mem_of_lookup_eq_some hw)).2
  | listOf item =>
    obtain ⟨items, rfl, hitems⟩ := (conforms_listOf_iff item v).1 h
    cases step with
    | key name => simp [step?] at hu
    | item i =>
      obtain rfl : item = u := by simpa [step?] using hu
      refine ⟨List.getElem?_map, ?_⟩
      intro w hw
      exact hitems w (List.mem_of_getElem? hw)
  | _ => cases step <;> simp [step?] at hu

/-- A step to no declared type, where the normal form allows one, leads to an unchanged value. -/
theorem Conforms.step?_of_step?_normalForm {t : TypeToken} {v : Json} (h : t.Conforms v)
    {step : Json.Step} (ht : t.step? step = none) {w : Json}
    (hw : (t.normalForm v).step? step = some w) : v.step? step = some w := by
  cases t with
  | record name fields =>
    obtain ⟨entries, rfl, -⟩ := (conforms_record_iff name fields v).1 h
    cases step with
    | item i => simp [normalForm, Json.step?] at hw
    | key field =>
      simp only [step?] at ht
      simp [normalForm, Json.step?, lookup_normalFields, ht] at hw
  | dictOf key value =>
    obtain ⟨entries, rfl, -⟩ := (conforms_dictOf_iff key value v).1 h
    cases step <;> simp [step?, normalForm, Json.step?] at ht hw
  | listOf item =>
    obtain ⟨items, rfl, -⟩ := (conforms_listOf_iff item v).1 h
    cases step <;> simp [step?, normalForm, Json.step?] at ht hw
  | int =>
    obtain ⟨n, rfl, -⟩ := (conforms_int_iff v).1 h
    cases step <;> simp [normalForm, Json.step?] at hw
  | _ => exact hw

/-- At a position with a declared type, validation leaves the normal form at that type. -/
theorem Conforms.at?_normalForm {t : TypeToken} {v : Json} (h : t.Conforms v)
    {p : List Json.Step} {u : TypeToken} (hu : t.at? p = some u) :
    (t.normalForm v).at? p = (v.at? p).map u.normalForm ∧
      ∀ w, v.at? p = some w → u.Conforms w := by
  induction p generalizing t v with
  | nil =>
    obtain rfl : t = u := by simpa [at?] using hu
    simpa [Json.at?] using h
  | cons step rest ih =>
    obtain ⟨s, hs, hu⟩ := Option.bind_eq_some_iff.1 hu
    obtain ⟨hstep, hconf⟩ := h.step?_normalForm hs
    rw [Json.at?, Json.at?, hstep]
    cases hw : v.step? step with
    | none => simp
    | some w => exact ih (hconf w hw) hu

/-- At any other position validation leaves the value as it is, if it leaves one. -/
theorem Conforms.at?_of_at?_normalForm {t : TypeToken} {v : Json} (h : t.Conforms v)
    {p : List Json.Step} (ht : t.at? p = none) {w : Json}
    (hw : (t.normalForm v).at? p = some w) : v.at? p = some w := by
  induction p generalizing t v with
  | nil => simp [at?] at ht
  | cons step rest ih =>
    obtain ⟨x, hx, hw⟩ := Option.bind_eq_some_iff.1 hw
    cases hs : t.step? step with
    | none => exact Option.bind_eq_some_iff.2 ⟨x, h.step?_of_step?_normalForm hs hx, hw⟩
    | some s =>
      obtain ⟨hstep, hconf⟩ := h.step?_normalForm hs
      obtain ⟨y, hy, rfl⟩ := Option.map_eq_some_iff.1 (hstep ▸ hx)
      refine Option.bind_eq_some_iff.2 ⟨y, hy, ih (hconf y hy) ?_ hw⟩
      simpa [at?, hs] using ht

/-- Only an integer position writes a number anew. -/
theorem Conforms.of_normalForm_eq_num {t : TypeToken} {v : Json} (h : t.Conforms v) {n : Number}
    (hn : t.normalForm v = .num n) :
    ∃ m : Number, v = .num m ∧ (n = m ∨ t = .int ∧ m.IsIntegral ∧ n = m.normalForm) := by
  cases t with
  | int =>
    obtain ⟨m, rfl, hm⟩ := (conforms_int_iff v).1 h
    exact ⟨m, rfl, .inr ⟨rfl, hm, (Json.num.inj hn).symm⟩⟩
  | listOf item =>
    obtain ⟨items, rfl, -⟩ := (conforms_listOf_iff item v).1 h
    cases hn
  | dictOf key value =>
    obtain ⟨entries, rfl, -⟩ := (conforms_dictOf_iff key value v).1 h
    cases hn
  | record name fields =>
    obtain ⟨entries, rfl, -⟩ := (conforms_record_iff name fields v).1 h
    cases hn
  | _ => exact ⟨n, hn, .inl rfl⟩

end TypeToken

/-! ## Numbers -/

/-- The floating-point number `2^63`: in range at an integer position, but no signed 64-bit
integer. -/
def Number.Saturates (n : Number) : Prop :=
  ∃ x : Binary64, n = .float x ∧ x.toRat = 2 ^ 63

/-- Writing a number as an integer keeps what it denotes, unless it is `2^63`. -/
theorem Number.IsIntegral.toRat_normalForm {n : Number} (h : n.IsIntegral) :
    (n.normalForm.toRat = n.toRat ∧ ¬ n.Saturates) ∨
      (n.normalForm = .int (2 ^ 63 - 1) ∧ n.Saturates) := by
  cases n with
  | int i => exact .inl ⟨rfl, by rintro ⟨x, ⟨⟩, -⟩⟩
  | float x =>
    obtain ⟨i, hi, hlow, hhigh⟩ := h
    have hform : (Number.float x).normalForm = .int (min i (2 ^ 63 - 1)) := by
      have hread := (toInteger?_float_eq_some_iff x _).2 ⟨i, hi, ⟨hlow, hhigh⟩, rfl⟩
      simp only [normalForm, hread]
    have hsat : (Number.float x).Saturates ↔ i = 2 ^ 63 := by
      simp only [Saturates, Number.float.injEq, exists_eq_left', hi]
      exact_mod_cast Iff.rfl
    rw [hform, hsat]
    by_cases hbound : i = 2 ^ 63
    · exact .inr ⟨by rw [hbound]; rfl, hbound⟩
    · refine .inl ⟨?_, hbound⟩
      rw [min_eq_left (by omega)]
      exact hi.symm

/-- A number of a normal form stands for a number of the value at the same position, of the same
value unless `2^63` was cut down to fit an integer position. -/
theorem TypeToken.Conforms.number_at {t : TypeToken} {v : Json} (h : t.Conforms v)
    {p : List Json.Step} {n : Number} (hn : (t.normalForm v).at? p = some (.num n)) :
    ∃ m : Number, v.at? p = some (.num m) ∧
      (n.toRat = m.toRat ∨ t.at? p = some .int ∧ m.Saturates ∧ n = .int (2 ^ 63 - 1)) := by
  cases ht : t.at? p with
  | none => exact ⟨n, h.at?_of_at?_normalForm ht hn, .inl rfl⟩
  | some u =>
    obtain ⟨hat, hu⟩ := h.at?_normalForm ht
    obtain ⟨w, hw, hform⟩ := Option.map_eq_some_iff.1 (hat ▸ hn)
    obtain ⟨m, rfl, rfl | ⟨rfl, hm, rfl⟩⟩ := (hu w hw).of_normalForm_eq_num hform
    · exact ⟨n, hw, .inl rfl⟩
    · rcases hm.toRat_normalForm with ⟨hrat, -⟩ | ⟨hint, hsat⟩
      · exact ⟨m, hw, .inl hrat⟩
      · exact ⟨m, hw, .inr ⟨rfl, hsat, hint⟩⟩

/-- Where `2^63` stands at an integer position the normal form has another number. -/
theorem TypeToken.Conforms.number_at_of_saturates {t : TypeToken} {v : Json} (h : t.Conforms v)
    {p : List Json.Step} {m : Number} (ht : t.at? p = some .int)
    (hm : v.at? p = some (.num m)) (hsat : m.Saturates) :
    ∃ n : Number, (t.normalForm v).at? p = some (.num n) ∧ n.toRat ≠ m.toRat := by
  obtain ⟨hat, hu⟩ := h.at?_normalForm ht
  have hintegral : m.IsIntegral := hu _ hm
  refine ⟨m.normalForm, by rw [hat, hm]; rfl, ?_⟩
  rcases hintegral.toRat_normalForm with ⟨-, hnot⟩ | ⟨hint, x, rfl, hx⟩
  · exact absurd hsat hnot
  · simp only [hint, Number.toRat, hx]
    norm_num

namespace RecordType

/-- A number of an instance stands for a number of the value at the same position, of the same value
unless `2^63` was cut down to fit an integer position. So validation keeps all numbers exactly if
that number stands at no integer position. -/
theorem validate_number {T : RecordType} {v : Json} {i : RecordInstance}
    (h : T.validate v = .ok i) :
    (∀ p n, i.toJson.at? p = some (.num n) → ∃ m : Number, v.at? p = some (.num m) ∧
      (n.toRat = m.toRat ∨
        T.token.at? p = some .int ∧ m.Saturates ∧ n = .int (2 ^ 63 - 1))) ∧
    ((∀ p n, i.toJson.at? p = some (.num n) →
        ∃ m : Number, v.at? p = some (.num m) ∧ n.toRat = m.toRat) ↔
      ∀ p m, T.token.at? p = some .int → v.at? p = some (.num m) → ¬ m.Saturates) := by
  obtain ⟨hconf, hjson⟩ := toJson_of_validate h
  rw [hjson]
  refine ⟨fun p n hn => hconf.number_at hn, ?_, ?_⟩
  · intro hall p m ht hm hsat
    obtain ⟨n, hn, hne⟩ := hconf.number_at_of_saturates ht hm hsat
    obtain ⟨m', hm', hrat⟩ := hall p n hn
    obtain rfl : m = m' := by simpa [hm] using hm'
    exact hne hrat
  · intro hnone p n hn
    obtain ⟨m, hm, hrat | ⟨ht, hsat, -⟩⟩ := hconf.number_at hn
    · exact ⟨m, hm, hrat⟩
    · exact absurd hsat (hnone p m ht hm)

/-- A record with an integer field and one of a list of integers. -/
def integersType : RecordType :=
  ⟨"Integers", ⟨[("n", .int), ("xs", .listOf .int)]⟩⟩

/-- The floating-point numbers `4` in the list and `2^63` in the field. -/
def integersSample : Json :=
  .obj [("xs", .arr [.num (.float ⟨false, 2 ^ 52, -50, by decide⟩)]),
    ("n", .num (.float ⟨false, 2 ^ 52, 11, by decide⟩))]

/-- What validation makes of the sample. -/
def integersInstance : RecordInstance :=
  ⟨integersType, [("n", .num (.int (2 ^ 63 - 1))), ("xs", .arr [.num (.int 4)])]⟩

theorem validate_number_integersSample :
    integersType.validate integersSample = .ok integersInstance ∧
    (∀ p n, integersInstance.toJson.at? p = some (.num n) →
      ∃ m : Number, integersSample.at? p = some (.num m) ∧ (n.toRat = m.toRat ∨
        integersType.token.at? p = some .int ∧ m.Saturates ∧ n = .int (2 ^ 63 - 1))) ∧
    ((∀ p n, integersInstance.toJson.at? p = some (.num n) →
        ∃ m : Number, integersSample.at? p = some (.num m) ∧ n.toRat = m.toRat) ↔
      ∀ p m, integersType.token.at? p = some .int → integersSample.at? p = some (.num m) →
        ¬ m.Saturates) :=
  ⟨rfl, validate_number rfl⟩

/-- Not every number is kept: `2^63` in the integer field of the sample is not. -/
theorem not_validate_keeps_numbers :
    ¬ ∀ (T : RecordType) (v : Json) (i : RecordInstance), T.WellFormed → v.Distinct →
      T.validate v = .ok i → ∀ p n, i.toJson.at? p = some (.num n) →
        ∃ m : Number, v.at? p = some (.num m) ∧ n.toRat = m.toRat := by
  intro hall
  have htype : integersType.WellFormed := by
    simp [WellFormed, token, integersType, TypeToken.Distinct, TypeToken.DistinctFields]
  have hsample : integersSample.Distinct := by
    simp [integersSample, Json.Distinct, Json.DistinctEntries, Json.DistinctItems]
  obtain ⟨m, hm, hrat⟩ := hall integersType integersSample integersInstance htype hsample rfl
    [.key "n"] (.int (2 ^ 63 - 1)) rfl
  obtain rfl : Number.float ⟨false, 2 ^ 52, 11, by decide⟩ = m := Json.num.inj (Option.some.inj hm)
  have hbound : Binary64.toRat ⟨false, 2 ^ 52, 11, by decide⟩ = ((2 ^ 63 : Int) : Rat) :=
    (Binary64.toInt?_eq_some_iff _ _).1 rfl
  simp only [Number.toRat, hbound] at hrat
  norm_num at hrat

end RecordType

end TypedWorkflow
