import TypedWorkflow.Proofs.Schema.Position

/-!
# The empty path

A violation is located by its path, which is meant to be empty for the value itself. A path is
written from the steps that lead to a position: an index in brackets, a name after a point, but
after nothing if there is no path yet. So a name that is empty leaves no trace at the front. The
violations with an empty path are those of the value itself and those of positions that only empty
names lead to, and of these there are some exactly if the record type declares a field with the
empty name.

## Main definitions

* `Path.follow`: the path of a position.
* `TypeToken.Fails`: what is wrong with a value, and at which position.
* `TypeToken.mem_faults_iff`: the violations that a check reports.
* `RecordType.validate_rootPath`: which violations have the empty path.
-/

namespace TypedWorkflow

/-! ## Paths of positions -/

namespace Path

/-- The path of a position, starting from a path. -/
def follow (path : Path) : List Json.Step → Path
  | [] => path
  | .key name :: rest => follow (path.field name) rest
  | .item i :: rest => follow (path.index i) rest

theorem field_eq_empty_iff {path : Path} {name : String} :
    path.field name = "" ↔ path = "" ∧ name = "" := by
  by_cases h : path = ""
  · simp [field, h]
  · simp [field, h, String.append_eq_empty_iff]

theorem index_ne_empty (path : Path) (i : Nat) : path.index i ≠ "" := by
  simp [index, String.append_eq_empty_iff]

/-- A path is empty if nothing but empty names stand on the way. -/
theorem follow_eq_empty_iff {path : Path} {p : List Json.Step} :
    path.follow p = "" ↔ path = "" ∧ ∀ step ∈ p, step = .key "" := by
  induction p generalizing path with
  | nil => simp [follow]
  | cons step rest ih =>
    cases step with
    | key name => simp [follow, ih, field_eq_empty_iff, and_assoc]
    | item i => simp [follow, ih, index_ne_empty]

end Path

namespace TypeToken

/-! ## Failing positions -/

/-- What is wrong with a value of which a type is expected, and at which position inside it. -/
inductive Fails : TypeToken → Json → List Json.Step → ViolationKind → Prop where
  | shape {t : TypeToken} {v : Json} (h : t.fits v = false) : Fails t v [] (t.mismatch v)
  | missing {name : String} {fields : List (String × TypeToken)} {entries : Json.Entries}
      {field : String} {type : TypeToken} (hf : (field, type) ∈ fields)
      (hw : entries.lookup field = none) :
      Fails (.record name fields) (.obj entries) [.key field] .missing
  | invalidKey {key value : TypeToken} {entries : Json.Entries} {name : String} {w : Json}
      (he : (name, w) ∈ entries) (h : ¬ key.ReadsKey name) :
      Fails (.dictOf key value) (.obj entries) [.key name] (.invalidKey key.text)
  | item {item : TypeToken} {items : List Json} {i : Nat} {w : Json} {p : List Json.Step}
      {kind : ViolationKind} (hw : items[i]? = some w) (h : Fails item w p kind) :
      Fails (.listOf item) (.arr items) (.item i :: p) kind
  | entry {key value : TypeToken} {entries : Json.Entries} {name : String} {w : Json}
      {p : List Json.Step} {kind : ViolationKind} (he : (name, w) ∈ entries)
      (h : Fails value w p kind) :
      Fails (.dictOf key value) (.obj entries) (.key name :: p) kind
  | field {name : String} {fields : List (String × TypeToken)} {entries : Json.Entries}
      {field : String} {type : TypeToken} {w : Json} {p : List Json.Step} {kind : ViolationKind}
      (hf : (field, type) ∈ fields) (hw : entries.lookup field = some w)
      (h : Fails type w p kind) :
      Fails (.record name fields) (.obj entries) (.key field :: p) kind

theorem violation?_value (path : Path) (t : TypeToken) (v : Json) :
    (Site.value path t v).violation? = if t.fits v then none else some ⟨path, t.mismatch v⟩ := by
  cases t <;> rfl

/-- What is wrong at a site that the walk meets is wrong at a position that its path names. -/
theorem Occurs.exists_fails {t : TypeToken} {v : Json} {path : Path} {s : Site}
    (h : Occurs t v path s) {violation : FieldViolation} (hs : s.violation? = some violation) :
    ∃ p kind, t.Fails v p kind ∧ violation = ⟨path.follow p, kind⟩ := by
  induction h with
  | @here t v path =>
    rw [violation?_value] at hs
    by_cases hfits : t.fits v = true
    · simp [hfits] at hs
    · rw [if_neg hfits] at hs
      exact ⟨[], _, .shape (Bool.not_eq_true _ ▸ hfits), (Option.some.inj hs).symm⟩
  | @item item items path i w s hw _ ih =>
    obtain ⟨p, kind, hfails, rfl⟩ := ih hs
    exact ⟨.item i :: p, kind, .item hw hfails, rfl⟩
  | @key key value entries path name w he =>
    by_cases hkey : key.ReadsKey name
    · simp [Site.violation?, hkey] at hs
    · rw [Site.violation?, if_neg hkey] at hs
      exact ⟨[.key name], _, .invalidKey he hkey, (Option.some.inj hs).symm⟩
  | @entry key value entries path name w s he _ ih =>
    obtain ⟨p, kind, hfails, rfl⟩ := ih hs
    exact ⟨.key name :: p, kind, .entry he hfails, rfl⟩
  | @field record fields entries path name type w s hf hw _ ih =>
    obtain ⟨p, kind, hfails, rfl⟩ := ih hs
    exact ⟨.key name :: p, kind, .field hf hw hfails, rfl⟩
  | @absent record fields entries path name type hf hw =>
    exact ⟨[.key name], .missing, .missing hf hw, (Option.some.inj hs).symm⟩

/-- The walk meets every failing position. -/
theorem Fails.exists_occurs {t : TypeToken} {v : Json} {p : List Json.Step} {kind : ViolationKind}
    (h : t.Fails v p kind) (path : Path) :
    ∃ s, Occurs t v path s ∧ s.violation? = some ⟨path.follow p, kind⟩ := by
  induction h generalizing path with
  | @shape t v h =>
    refine ⟨.value path t v, .here, ?_⟩
    rw [violation?_value, h]
    rfl
  | missing hf hw => exact ⟨_, .absent hf hw, rfl⟩
  | invalidKey he h => exact ⟨_, .key he, by rw [Site.violation?, if_neg h]; rfl⟩
  | item hw _ ih =>
    obtain ⟨s, hs, hviolation⟩ := ih _
    exact ⟨s, .item hw hs, hviolation⟩
  | entry he _ ih =>
    obtain ⟨s, hs, hviolation⟩ := ih _
    exact ⟨s, .entry he hs, hviolation⟩
  | field hf hw _ ih =>
    obtain ⟨s, hs, hviolation⟩ := ih _
    exact ⟨s, .field hf hw hs, hviolation⟩

/-- A check reports what is wrong at each failing position, under the path of the position. -/
theorem mem_faults_iff {t : TypeToken} {v : Json} {path : Path} {violation : FieldViolation} :
    violation ∈ t.faults v path ↔
      ∃ p kind, t.Fails v p kind ∧ violation = ⟨path.follow p, kind⟩ := by
  rw [faults, List.mem_filterMap]
  constructor
  · rintro ⟨s, hs, hviolation⟩
    exact (occurs_of_mem_sites hs).exists_fails hviolation
  · rintro ⟨p, kind, hfails, rfl⟩
    obtain ⟨s, hs, hviolation⟩ := hfails.exists_occurs path
    exact ⟨s, hs.mem_sites, hviolation⟩

end TypeToken

/-! ## Validation -/

namespace RecordType

variable {T : RecordType} {v : Json} {e : ValidationError}

/-- A violation has the empty path if nothing but empty names lead to its position. -/
theorem hasViolationAt_empty_iff (h : T.validate v = .error e) :
    e.hasViolationAt "" = true ↔
      ∃ p kind, T.token.Fails v p kind ∧ ∀ step ∈ p, step = .key "" := by
  obtain ⟨-, rfl⟩ := (validate_eq_error_iff T v e).1 h
  simp only [ValidationError.hasViolationAt, List.any_eq_true, beq_iff_eq, TypeToken.mem_faults_iff]
  constructor
  · rintro ⟨_, ⟨p, kind, hfails, rfl⟩, hpath⟩
    exact ⟨p, kind, hfails, (Path.follow_eq_empty_iff.1 hpath).2⟩
  · rintro ⟨p, kind, hfails, hp⟩
    exact ⟨_, ⟨p, kind, hfails, rfl⟩, Path.follow_eq_empty_iff.2 ⟨rfl, hp⟩⟩

/-- A value that is no object is wrong as a whole. -/
theorem violations_of_not_object (h : T.validate v = .error e) (hv : v.kind ≠ .object) :
    e.violations = [⟨"", .notAnObject v.kind⟩] := by
  cases v with
  | obj entries => exact absurd rfl hv
  | _ => exact congrArg ValidationError.violations (Except.error.inj h).symm

/-- In an object only declared fields can be wrong. -/
theorem empty_mem_names_of_fails {entries : Json.Entries} {p : List Json.Step}
    {kind : ViolationKind} (h : T.token.Fails (.obj entries) p kind)
    (hp : ∀ step ∈ p, step = .key "") : "" ∈ T.schema.names := by
  rw [token] at h
  cases h with
  | shape hfits => cases hfits
  | missing hf _ =>
    obtain rfl := Json.Step.key.inj (hp _ List.mem_cons_self)
    exact List.mem_map_of_mem hf
  | field hf _ _ =>
    obtain rfl := Json.Step.key.inj (hp _ List.mem_cons_self)
    exact List.mem_map_of_mem hf

/-- The object without entries lacks a field with the empty name, and so has the empty path. -/
theorem exists_root_violation (h : "" ∈ T.schema.names) :
    ∃ e, T.validate (.obj []) = .error e ∧ e.hasViolationAt "" = true := by
  obtain ⟨⟨field, type⟩, hf, hname⟩ := List.mem_map.1 h
  obtain rfl : field = "" := hname
  have hfails : T.token.Fails (.obj []) [.key ""] .missing := .missing hf rfl
  have hnot : ¬ T.token.Conforms (.obj []) := by
    rw [← TypeToken.faults_eq_nil_iff _ _ ""]
    exact List.ne_nil_of_mem (TypeToken.mem_faults_iff.2 ⟨_, _, hfails, rfl⟩)
  have herror := (validate_eq_error_iff T (.obj []) _).2 ⟨hnot, rfl⟩
  exact ⟨_, herror, (hasViolationAt_empty_iff herror).2 ⟨_, _, hfails, by simp⟩⟩

/-- A value that is no object is wrong as a whole and nowhere else. Any violation has the empty path
if nothing but empty names lead to its position. So the empty path always means the value itself
exactly if no field with the empty name is declared. -/
theorem validate_rootPath (T : RecordType) :
    (∀ v e, T.validate v = .error e → v.kind ≠ .object →
      e.violations = [⟨"", .notAnObject v.kind⟩]) ∧
    (∀ v e, T.validate v = .error e → (e.hasViolationAt "" = true ↔
      ∃ p kind, T.token.Fails v p kind ∧ ∀ step ∈ p, step = .key "")) ∧
    ((∀ v e, T.validate v = .error e → (e.hasViolationAt "" = true ↔ v.kind ≠ .object)) ↔
      "" ∉ T.schema.names) := by
  refine ⟨fun v e => violations_of_not_object, fun v e => hasViolationAt_empty_iff, ?_, ?_⟩
  · intro hroot hname
    obtain ⟨e, he, hempty⟩ := exists_root_violation hname
    exact (hroot _ e he).1 hempty rfl
  · intro hname v e he
    constructor
    · intro hempty hobject
      obtain ⟨p, kind, hfails, hp⟩ := (hasViolationAt_empty_iff he).1 hempty
      cases v with
      | obj entries => exact hname (empty_mem_names_of_fails hfails hp)
      | _ => cases hobject
    · intro hv
      simp [ValidationError.hasViolationAt, violations_of_not_object he hv]

/-- A record of a dictionary of numbers. -/
def scoresType : RecordType :=
  ⟨"Scores", ⟨[("by", .dictOf .str .float)]⟩⟩

/-- A value of that shape with a text under the empty name. -/
def scoresSample : Json :=
  .obj [("by", .obj [("", .str "?")])]

theorem validate_rootPath_scoresSample :
    scoresType.validate scoresSample = .error ⟨"Scores", [⟨"by.", .typeMismatch "float" .string⟩]⟩ ∧
    "" ∉ scoresType.schema.names ∧ scoresSample.kind = .object ∧
    ValidationError.hasViolationAt ⟨"Scores", [⟨"by.", .typeMismatch "float" .string⟩]⟩ "" = false ∧
    scoresType.validate .null = .error ⟨"Scores", [⟨"", .notAnObject .null⟩]⟩ ∧
    ValidationError.hasViolationAt ⟨"Scores", [⟨"", .notAnObject .null⟩]⟩ "" = true := by
  have hsample : scoresType.validate scoresSample =
      .error ⟨"Scores", [⟨"by.", .typeMismatch "float" .string⟩]⟩ := by
    rfl
  have hnull : scoresType.validate .null = .error ⟨"Scores", [⟨"", .notAnObject .null⟩]⟩ := rfl
  have hname : "" ∉ scoresType.schema.names := by decide
  obtain ⟨-, -, hroot⟩ := validate_rootPath scoresType
  have hiff := hroot.2 hname
  refine ⟨hsample, hname, rfl, ?_, hnull, (hiff _ _ hnull).2 (by decide)⟩
  rw [← Bool.not_eq_true, hiff _ _ hsample]
  exact fun h => h rfl

/-- The empty path does not always mean the value itself: it is also that of a field with the empty
name, which the object without entries lacks. -/
theorem not_validate_rootPath :
    ¬ ∀ (T : RecordType) (v : Json) (e : ValidationError), T.WellFormed → v.Distinct →
      T.validate v = .error e → (e.hasViolationAt "" = true ↔ v.kind ≠ .object) := by
  intro hall
  let T : RecordType := ⟨"Record", ⟨[("", .int)]⟩⟩
  have htype : T.WellFormed := by
    simp [T, WellFormed, token, TypeToken.Distinct, TypeToken.DistinctFields]
  have hv : (Json.obj []).Distinct := by simp [Json.Distinct, Json.DistinctEntries]
  have herror : T.validate (.obj []) = .error ⟨"Record", [⟨"", .missing⟩]⟩ := rfl
  exact (hall T _ _ htype hv herror).1 rfl rfl

end RecordType

end TypedWorkflow
