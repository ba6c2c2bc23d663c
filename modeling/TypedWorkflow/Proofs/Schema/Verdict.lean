import TypedWorkflow.Proofs.Schema.Conformance

/-!
# The verdict of a check

A check walks over the positions of a value: the declared fields of a record in order, the items of
an array by index, the entries of a dictionary as the object has them. Each position is at fault or
not by itself, whatever happens elsewhere. The check reports the faults of all positions in the
order of the walk, and gives the normal form if there are none.

## Main definitions

* `Site`, `Site.violation?`: positions, and what is wrong at one.
* `TypeToken.sites`, `TypeToken.Occurs`: the positions of a value in order, and as a relation.
* `TypeToken.check_eq`: the check as the faults of the positions and the normal form.
* `RecordType.validate_verdict`: what validation answers, and when.
-/

namespace TypedWorkflow

/-! ## Judged results -/

namespace Checked

variable {α β γ : Type}

/-- A result that stands unless there are violations. -/
def judge (violations : List FieldViolation) (a : α) : Checked α :=
  if violations = [] then .ok a else .error violations

@[simp] theorem judge_nil (a : α) : judge [] a = .ok a := rfl

theorem fail_eq_judge (path : Path) (kind : ViolationKind) (a : α) :
    fail path kind = judge [⟨path, kind⟩] a := rfl

theorem judge_eq_ok_iff {violations : List FieldViolation} {a b : α} :
    judge violations a = .ok b ↔ violations = [] ∧ b = a := by
  unfold judge
  split <;> simp_all [eq_comm]

theorem both_judge (f : α → β → γ) (vs ws : List FieldViolation) (a : α) (b : β) :
    both f (judge vs a) (judge ws b) = judge (vs ++ ws) (f a b) := by
  by_cases hvs : vs = [] <;> by_cases hws : ws = [] <;> simp [judge, both, hvs, hws]

theorem map_judge (f : α → β) (vs : List FieldViolation) (a : α) :
    (judge vs a).map f = judge vs (f a) := by
  by_cases hvs : vs = [] <;> simp [judge, hvs, Except.map]

theorem all_mapIdx_judge (faults : Nat → α → List FieldViolation) (result : α → β) (l : List α) :
    all (l.mapIdx fun i a => judge (faults i a) (result a)) =
      judge (l.mapIdx faults).flatten (l.map result) := by
  induction l generalizing faults with
  | nil => rfl
  | cons a l ih =>
    rw [List.mapIdx_cons, all, ih fun i => faults (i + 1), both_judge]
    simp [List.mapIdx_cons]

theorem all_map_judge (faults : α → List FieldViolation) (result : α → β) (l : List α) :
    all (l.map fun a => judge (faults a) (result a)) =
      judge (l.flatMap faults) (l.map result) := by
  induction l with
  | nil => rfl
  | cons a l ih => simp [all, ih, both_judge]

end Checked

/-! ## Positions -/

/-- A position of a value under a type: a value with the type that it should have, a declared field
without a value, or a key with the type that it should read as. -/
inductive Site where
  | value (path : Path) (type : TypeToken) (v : Json)
  | absent (path : Path)
  | key (path : Path) (type : TypeToken) (name : String)

namespace TypeToken

/-- Whether the shape of a value is that of a type, not looking at the values inside. -/
def fits : TypeToken → Json → Bool
  | .any, _ => true
  | .int, .num n => decide n.IsIntegral
  | .float, .num _ | .str, .str _ | .bool, .bool _ => true
  | .list, .arr _ | .listOf _, .arr _ => true
  | .dict, .obj _ | .dictOf _ _, .obj _ | .record _ _, .obj _ => true
  | _, _ => false

/-- Whether a type is one of objects only. -/
def isObject : TypeToken → Bool
  | .dict | .dictOf _ _ | .record _ _ => true
  | _ => false

end TypeToken

/-- What is wrong at a position, if anything is. -/
def Site.violation? : Site → Option FieldViolation
  | .value path type v =>
    if type.fits v then none
    else if type.isObject then some ⟨path, .notAnObject v.kind⟩
    else some ⟨path, .typeMismatch type.text v.kind⟩
  | .absent path => some ⟨path, .missing⟩
  | .key path type name => if type.ReadsKey name then none else some ⟨path, .invalidKey type.text⟩

namespace TypeToken

mutual

/-- The positions of a value under a type, outer ones before those inside. -/
def sites (type : TypeToken) (v : Json) (path : Path) : List Site :=
  .value path type v ::
    match type, v with
    | .listOf item, .arr items =>
      (items.mapIdx fun i w => sites item w (Path.index path i)).flatten
    | .dictOf key value, .obj entries =>
      entries.flatMap fun e =>
        let here := Path.field path e.1
        .key here key e.1 :: sites value e.2 here
    | .record _ fields, .obj entries => fieldSites fields entries path
    | _, _ => []

/-- The positions of the declared fields of an object, in declaration order. -/
def fieldSites (fields : List (String × TypeToken)) (entries : Json.Entries) (path : Path) :
    List Site :=
  match fields with
  | [] => []
  | (name, type) :: rest =>
    let here := Path.field path name
    (match entries.lookup name with
      | some v => sites type v here
      | none => [.absent here]) ++ fieldSites rest entries path

end

/-- What is wrong at the positions of a value, in order. -/
def faults (type : TypeToken) (v : Json) (path : Path) : List FieldViolation :=
  (type.sites v path).filterMap Site.violation?

/-! ## Faults of structured values -/

theorem faults_listOf (item : TypeToken) (items : List Json) (path : Path) :
    (TypeToken.listOf item).faults (.arr items) path =
      (items.mapIdx fun i w => item.faults w (path.index i)).flatten := by
  simp [faults, sites, Site.violation?, fits, List.filterMap_flatten, List.mapIdx_eq_zipIdx_map,
    Function.comp_def]

theorem faults_dictOf (key value : TypeToken) (entries : Json.Entries) (path : Path) :
    (TypeToken.dictOf key value).faults (.obj entries) path =
      entries.flatMap fun e =>
        (if key.ReadsKey e.1 then [] else [⟨path.field e.1, .invalidKey key.text⟩]) ++
          value.faults e.2 (path.field e.1) := by
  simp only [faults, sites, Site.violation?, fits, if_true, List.filterMap_cons_none,
    List.filterMap_flatMap]
  refine congrArg (List.flatMap · entries) (funext fun e => ?_)
  by_cases h : key.ReadsKey e.1 <;> simp [Site.violation?, h]

/-- What is wrong at the positions of declared fields. -/
def fieldFaults (fields : List (String × TypeToken)) (entries : Json.Entries) (path : Path) :
    List FieldViolation :=
  fields.flatMap fun f =>
    match entries.lookup f.1 with
    | some v => f.2.faults v (path.field f.1)
    | none => [⟨path.field f.1, .missing⟩]

theorem faults_record (name : String) (fields : List (String × TypeToken))
    (entries : Json.Entries) (path : Path) :
    (TypeToken.record name fields).faults (.obj entries) path =
      fieldFaults fields entries path := by
  simp only [faults, sites, Site.violation?, fits, if_true, List.filterMap_cons_none]
  induction fields with
  | nil => rfl
  | cons f fields ih =>
    rw [fieldSites, List.filterMap_append, ih, fieldFaults, fieldFaults, List.flatMap_cons]
    cases entries.lookup f.1 <;> rfl

/-! ## The check -/

theorem checkKey_eq (key : TypeToken) (name : String) (path : Path) :
    checkKey key name path = Checked.judge
      (if key.ReadsKey name then [] else [⟨path, .invalidKey key.text⟩]) () := by
  simp only [checkKey, acceptsKey_iff]
  split <;> rfl

theorem check_int_num (n : Number) (path : Path) :
    TypeToken.int.check (.num n) path =
      Checked.judge (TypeToken.int.faults (.num n) path) (.num n.normalForm) := by
  have hintegral := n.isIntegral_iff
  cases h : n.toInteger? with
  | some i => simp_all [check, faults, sites, Site.violation?, fits, Number.normalForm]
  | none =>
    simp_all [check, faults, sites, Site.violation?, fits, isObject, mismatch,
      Checked.fail_eq_judge _ _ (Json.num n), Number.normalForm]

theorem checkFields_eq {fields : List (String × TypeToken)}
    (ih : ∀ f ∈ fields, ∀ v path,
      f.2.check v path = Checked.judge (f.2.faults v path) (f.2.normalForm v))
    (entries : Json.Entries) (path : Path) :
    checkFields fields entries path =
      Checked.judge (fieldFaults fields entries path) (normalFields fields entries) := by
  induction fields with
  | nil => rfl
  | cons f fields ihfields =>
    obtain ⟨name, type⟩ := f
    obtain ⟨htype, hfields⟩ := List.forall_mem_cons.1 ih
    rw [checkFields, ihfields hfields, normalFields, fieldFaults, fieldFaults, List.flatMap_cons]
    cases entries.lookup name with
    | some v => simp only [htype, Checked.both_judge, Option.getD_some]
    | none =>
      simp only [Checked.fail_eq_judge _ _ (type.normalForm .null), Checked.both_judge,
        Option.getD_none]

/-- A check reports what is wrong at any position, in order, and else gives the normal form. -/
theorem check_eq (t : TypeToken) (v : Json) (path : Path) :
    t.check v path = Checked.judge (t.faults v path) (t.normalForm v) := by
  induction t generalizing v path with
  | int =>
    cases v with
    | num n => exact check_int_num n path
    | _ => rfl
  | listOf item ih =>
    cases v with
    | arr items =>
      rw [check, faults_listOf, normalForm]
      simp only [ih, Checked.all_mapIdx_judge, Checked.map_judge]
    | _ => rfl
  | dictOf key value _ ih =>
    cases v with
    | obj entries =>
      rw [check, faults_dictOf, normalForm]
      simp only [ih, checkKey_eq, Checked.both_judge, Checked.all_map_judge, Checked.map_judge]
    | _ => rfl
  | record name fields ih =>
    cases v with
    | obj entries =>
      rw [check, faults_record, normalForm, checkFields_eq ih, Checked.map_judge]
    | _ => rfl
  | _ => cases v <;> rfl

/-! ## Faults and conformance -/

theorem faults_eq_nil_iff (t : TypeToken) (v : Json) (path : Path) :
    t.faults v path = [] ↔ t.Conforms v := by
  induction t generalizing v path with
  | listOf item ih =>
    cases v with
    | arr items =>
      rw [faults_listOf, Conforms, List.flatten_eq_nil_iff]
      constructor
      · intro h w hw
        obtain ⟨i, hi, rfl⟩ := List.getElem_of_mem hw
        exact (ih _ (path.index i)).1 (h _ (List.mem_mapIdx.2 ⟨i, hi, rfl⟩))
      · intro h l hl
        obtain ⟨i, hi, rfl⟩ := List.mem_mapIdx.1 hl
        exact (ih _ _).2 (h _ (List.getElem_mem hi))
    | _ => simp [faults, sites, Site.violation?, fits, isObject, Conforms]
  | dictOf key value _ ih =>
    cases v with
    | obj entries =>
      simp [faults_dictOf, Conforms, ih]
    | _ => simp [faults, sites, Site.violation?, fits, isObject, Conforms]
  | record name fields ih =>
    cases v with
    | obj entries =>
      rw [faults_record, Conforms, conformsFields_iff, fieldFaults, List.flatMap_eq_nil_iff]
      refine forall₂_congr fun f hf => ?_
      cases entries.lookup f.1 <;> simp [ih f hf]
    | _ => simp [faults, sites, Site.violation?, fits, isObject, Conforms]
  | _ => cases v <;> simp [faults, sites, Site.violation?, fits, isObject, Conforms]

theorem check_eq_ok_iff {t : TypeToken} {v w : Json} {path : Path} :
    t.check v path = .ok w ↔ t.Conforms v ∧ w = t.normalForm v := by
  rw [check_eq, Checked.judge_eq_ok_iff, faults_eq_nil_iff]

/-! ## Positions as a relation -/

/-- The positions of a value under a type, found by going down from the value itself. -/
inductive Occurs : TypeToken → Json → Path → Site → Prop where
  | here {t : TypeToken} {v : Json} {path : Path} : Occurs t v path (.value path t v)
  | item {item : TypeToken} {items : List Json} {path : Path} {i : Nat} {w : Json} {s : Site}
      (hw : items[i]? = some w) (hs : Occurs item w (path.index i) s) :
      Occurs (.listOf item) (.arr items) path s
  | key {key value : TypeToken} {entries : Json.Entries} {path : Path} {name : String} {w : Json}
      (he : (name, w) ∈ entries) :
      Occurs (.dictOf key value) (.obj entries) path (.key (path.field name) key name)
  | entry {key value : TypeToken} {entries : Json.Entries} {path : Path} {name : String} {w : Json}
      {s : Site} (he : (name, w) ∈ entries) (hs : Occurs value w (path.field name) s) :
      Occurs (.dictOf key value) (.obj entries) path s
  | field {record : String} {fields : List (String × TypeToken)} {entries : Json.Entries}
      {path : Path} {name : String} {type : TypeToken} {w : Json} {s : Site}
      (hf : (name, type) ∈ fields) (hw : entries.lookup name = some w)
      (hs : Occurs type w (path.field name) s) :
      Occurs (.record record fields) (.obj entries) path s
  | absent {record : String} {fields : List (String × TypeToken)} {entries : Json.Entries}
      {path : Path} {name : String} {type : TypeToken} (hf : (name, type) ∈ fields)
      (hw : entries.lookup name = none) :
      Occurs (.record record fields) (.obj entries) path (.absent (path.field name))

theorem mem_fieldSites_iff (fields : List (String × TypeToken)) (entries : Json.Entries)
    (path : Path) (s : Site) :
    s ∈ fieldSites fields entries path ↔ ∃ f ∈ fields,
      (∃ w, entries.lookup f.1 = some w ∧ s ∈ f.2.sites w (path.field f.1)) ∨
        (entries.lookup f.1 = none ∧ s = .absent (path.field f.1)) := by
  induction fields with
  | nil => simp [fieldSites]
  | cons f fields ih =>
    rw [fieldSites, List.mem_append, ih, List.exists_mem_cons_iff]
    cases entries.lookup f.1 <;> simp

theorem Occurs.mem_sites {t : TypeToken} {v : Json} {path : Path} {s : Site}
    (h : Occurs t v path s) : s ∈ t.sites v path := by
  induction h with
  | here =>
    rw [sites.eq_def]
    exact List.mem_cons_self
  | item hw _ ih =>
    obtain ⟨hi, rfl⟩ := List.getElem?_eq_some_iff.1 hw
    rw [sites]
    exact List.mem_cons_of_mem _ (List.mem_flatten.2 ⟨_, List.mem_mapIdx.2 ⟨_, hi, rfl⟩, ih⟩)
  | key he =>
    rw [sites]
    exact List.mem_cons_of_mem _ (List.mem_flatMap.2 ⟨_, he, List.mem_cons_self⟩)
  | entry he _ ih =>
    rw [sites]
    exact List.mem_cons_of_mem _ (List.mem_flatMap.2 ⟨_, he, List.mem_cons_of_mem _ ih⟩)
  | field hf hw _ ih =>
    rw [sites]
    exact List.mem_cons_of_mem _ ((mem_fieldSites_iff ..).2 ⟨_, hf, .inl ⟨_, hw, ih⟩⟩)
  | absent hf hw =>
    rw [sites]
    exact List.mem_cons_of_mem _ ((mem_fieldSites_iff ..).2 ⟨_, hf, .inr ⟨hw, rfl⟩⟩)

theorem occurs_of_mem_sites {t : TypeToken} {v : Json} {path : Path} {s : Site}
    (h : s ∈ t.sites v path) : Occurs t v path s := by
  induction t generalizing v path with
  | listOf item ih =>
    cases v with
    | arr items =>
      rcases List.mem_cons.1 h with rfl | h
      · exact .here
      · obtain ⟨l, hl, hs⟩ := List.mem_flatten.1 h
        obtain ⟨i, hi, rfl⟩ := List.mem_mapIdx.1 hl
        exact .item (List.getElem?_eq_getElem hi) (ih hs)
    | _ => exact List.mem_singleton.1 h ▸ .here
  | dictOf key value _ ih =>
    cases v with
    | obj entries =>
      rcases List.mem_cons.1 h with rfl | h
      · exact .here
      · obtain ⟨e, he, hs⟩ := List.mem_flatMap.1 h
        rcases List.mem_cons.1 hs with rfl | hs
        · exact .key he
        · exact .entry he (ih hs)
    | _ => exact List.mem_singleton.1 h ▸ .here
  | record name fields ih =>
    cases v with
    | obj entries =>
      rcases List.mem_cons.1 h with rfl | h
      · exact .here
      · obtain ⟨f, hf, ⟨w, hw, hs⟩ | ⟨hw, rfl⟩⟩ := (mem_fieldSites_iff ..).1 h
        · exact .field hf hw (ih f hf hs)
        · exact .absent hf hw
    | _ => exact List.mem_singleton.1 h ▸ .here
  | _ => exact List.mem_singleton.1 h ▸ .here

/-- The walk visits the positions of a value and no others. -/
theorem mem_sites_iff (t : TypeToken) (v : Json) (path : Path) (s : Site) :
    s ∈ t.sites v path ↔ Occurs t v path s :=
  ⟨occurs_of_mem_sites, Occurs.mem_sites⟩

end TypeToken

/-! ## Validation -/

namespace RecordType

/-- Validation is the check of the type as a whole, from the root. -/
theorem validate_eq_check (T : RecordType) (v : Json) :
    T.validate v = match T.token.check v "" with
      | .ok w => .ok ⟨T, w.entries⟩
      | .error violations => .error ⟨T.name, violations⟩ := by
  cases v with
  | obj entries =>
    rw [validate, token, TypeToken.check]
    cases TypeToken.checkFields T.schema.fields entries "" <;> rfl
  | _ => rfl

theorem validate_eq_ok_iff (T : RecordType) (v : Json) (i : RecordInstance) :
    T.validate v = .ok i ↔
      T.token.Conforms v ∧ i = ⟨T, (T.token.normalForm v).entries⟩ := by
  rw [validate_eq_check, TypeToken.check_eq, ← TypeToken.faults_eq_nil_iff _ _ ""]
  by_cases h : T.token.faults v "" = [] <;> simp [Checked.judge, h, eq_comm]

theorem validate_eq_error_iff (T : RecordType) (v : Json) (e : ValidationError) :
    T.validate v = .error e ↔
      ¬ T.token.Conforms v ∧ e = ⟨T.name, T.token.faults v ""⟩ := by
  rw [validate_eq_check, TypeToken.check_eq, ← TypeToken.faults_eq_nil_iff _ _ ""]
  by_cases h : T.token.faults v "" = [] <;> simp [Checked.judge, h, eq_comm]

/-- Validation accepts exactly the values of the type. Of any other value it reports the positions
at fault, each once for every time the walk meets it and in the order of the walk, and the positions
that the walk meets are all that the value has under the type. -/
theorem validate_verdict (T : RecordType) (v : Json) :
    ((∃ i, T.validate v = .ok i) ↔ T.token.Conforms v) ∧
      (¬ T.token.Conforms v → T.token.faults v "" ≠ [] ∧
        T.validate v = .error ⟨T.name, T.token.faults v ""⟩) ∧
      ∀ s, s ∈ T.token.sites v "" ↔ TypeToken.Occurs T.token v "" s := by
  refine ⟨?_, ?_, fun s => T.token.mem_sites_iff v "" s⟩
  · simp [validate_eq_ok_iff]
  · intro h
    refine ⟨mt (TypeToken.faults_eq_nil_iff _ _ "").1 h, ?_⟩
    exact (validate_eq_error_iff T v _).2 ⟨h, rfl⟩

end RecordType

end TypedWorkflow
