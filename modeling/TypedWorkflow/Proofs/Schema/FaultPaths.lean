import Mathlib.Data.List.Perm.Basic
import TypedWorkflow.Proofs.Schema.Congruence
import TypedWorkflow.Proofs.Schema.Equality

/-!
# Paths of faults

Equal types find fault with equal values in the same places. A place is named by its path, which
says neither where a field stands in a record nor where an entry stands in an object; so the two
lists of paths have the same members equally often, though not in the same order. Together with the
congruence of normal forms this makes the outcome of a validation depend on the structure of the
type and of the value alone.

## Main definitions

* `TypeToken.faultPaths`: the paths of the faults of a value.
* `TypeToken.faultPaths_perm`: equal types and equal values have the same ones.
* `RecordType.validate_congr`: equal types validate equal values alike.
-/

namespace TypedWorkflow

namespace TypeToken

/-! ## Paths of faults, by the type -/

/-- The paths at which a value is not of a type. -/
def faultPaths (t : TypeToken) (v : Json) (path : Path) : List Path :=
  (t.faults v path).map FieldViolation.path

/-- Where a check does not look into a value, only the value itself can be at fault. -/
theorem faultPaths_of_sites_eq {t : TypeToken} {v : Json} {path : Path}
    (h : t.sites v path = [.value path t v]) :
    t.faultPaths v path = if t.fits v then [] else [path] := by
  rw [faultPaths, faults, h]
  by_cases hfits : t.fits v = true
  · simp [Site.violation?, hfits]
  · by_cases hobject : t.isObject = true <;> simp [Site.violation?, hfits, hobject]

/-- Types of which a check does not look into the values. -/
def isFlat : TypeToken → Bool
  | .listOf _ | .dictOf _ _ | .record _ _ => false
  | _ => true

theorem faultPaths_of_isFlat {t : TypeToken} (h : t.isFlat = true) {v : Json} {path : Path} :
    t.faultPaths v path = if t.fits v then [] else [path] := by
  refine faultPaths_of_sites_eq ?_
  cases t <;> first | (cases v <;> rfl) | cases h

/-- Nor does it look into a value of the wrong shape. -/
theorem faultPaths_of_fits_eq_false {t : TypeToken} {v : Json} {path : Path}
    (h : t.fits v = false) : t.faultPaths v path = [path] := by
  have hsites : t.sites v path = [.value path t v] := by
    cases t <;> cases v <;> first | rfl | cases h
  rw [faultPaths_of_sites_eq hsites, h]
  rfl

theorem faultPaths_eq_nil_iff (t : TypeToken) (v : Json) (path : Path) :
    t.faultPaths v path = [] ↔ t.Conforms v := by
  rw [faultPaths, List.map_eq_nil_iff, faults_eq_nil_iff]

theorem faultPaths_listOf (item : TypeToken) (items : List Json) (path : Path) :
    (TypeToken.listOf item).faultPaths (.arr items) path =
      (items.mapIdx fun i w => item.faultPaths w (path.index i)).flatten := by
  simp [faultPaths, faults_listOf, List.map_flatten, List.mapIdx_eq_zipIdx_map, Function.comp_def]

theorem faultPaths_dictOf (key value : TypeToken) (entries : Json.Entries) (path : Path) :
    (TypeToken.dictOf key value).faultPaths (.obj entries) path =
      entries.flatMap fun e => (if key.ReadsKey e.1 then [] else [path.field e.1]) ++
        value.faultPaths e.2 (path.field e.1) := by
  rw [faultPaths, faults_dictOf, List.map_flatMap]
  refine List.flatMap_congr fun e _ => ?_
  by_cases h : key.ReadsKey e.1 <;> simp [h, faultPaths]

/-- The paths of faults at a declared field, given its value if there is one. -/
def fieldPaths (path : Path) (name : String) (type : TypeToken) : Option Json → List Path
  | some v => type.faultPaths v (path.field name)
  | none => [path.field name]

theorem faultPaths_record (name : String) (fields : List (String × TypeToken))
    (entries : Json.Entries) (path : Path) :
    (TypeToken.record name fields).faultPaths (.obj entries) path =
      fields.flatMap fun f => fieldPaths path f.1 f.2 (entries.lookup f.1) := by
  rw [faultPaths, faults_record, fieldFaults, List.map_flatMap]
  refine List.flatMap_congr fun f _ => ?_
  cases entries.lookup f.1 <;> rfl

/-! ## Equal types and equal values -/

/-- Whether the shape of a value is right depends on the structure of the type and of the value. -/
theorem fits_congr {t u : TypeToken} (h : t.same u = true) {v w : Json} (hvw : v.equiv w = true) :
    t.fits v = u.fits w := by
  have htype : t.fits v = u.fits v := by
    cases t <;> cases u <;> first | (cases v <;> rfl) | cases h
  have hvalue : u.fits v = u.fits w := by
    cases v with
    | num m =>
      obtain ⟨n, rfl, hmn⟩ := Json.exists_of_equiv_num hvw
      have hintegral : m.IsIntegral ↔ n.IsIntegral := by
        rw [m.isIntegral_iff, n.isIntegral_iff, Number.toInteger?_eq_of_sameValue hmn]
      cases u <;> simp [fits, hintegral]
    | _ => cases w <;> first | (cases u <;> rfl) | cases hvw
  rw [htype, hvalue]

theorem isFlat_congr {t u : TypeToken} (h : t.same u = true) : t.isFlat = u.isFlat := by
  cases t <;> cases u <;> first | rfl | cases h

/-- A value of the wrong shape is at fault itself, and an equal value is for an equal type. -/
theorem faultPaths_perm_of_fits_eq_false {t u : TypeToken} (h : t.same u = true) {v w : Json}
    (hvw : v.equiv w = true) (path : Path) (hfits : t.fits v = false) :
    (t.faultPaths v path).Perm (u.faultPaths w path) := by
  rw [faultPaths_of_fits_eq_false hfits, faultPaths_of_fits_eq_false (fits_congr h hvw ▸ hfits)]

/-- Equal types find fault with equal values at the same paths, each in an order of its own. -/
theorem faultPaths_perm {t u : TypeToken} (ht : t.Distinct) (hu : u.Distinct)
    (h : t.same u = true) {v w : Json} (hv : v.Distinct) (hw : w.Distinct)
    (hvw : v.equiv w = true) (path : Path) : (t.faultPaths v path).Perm (u.faultPaths w path) := by
  induction t generalizing u v w path with
  | listOf item ih =>
    obtain ⟨other, rfl, hsame⟩ := exists_of_same_listOf h
    cases v with
    | arr xs =>
      obtain ⟨ys, rfl⟩ := Json.exists_of_equiv_arr hvw
      rw [Json.distinct_arr_iff] at hv hw
      obtain ⟨hlength, hitems⟩ := List.forall₂_iff_get.1 ((Json.equiv_arr_iff xs ys).1 hvw)
      rw [faultPaths_listOf, faultPaths_listOf]
      apply List.Perm.flatten_congr
      refine List.forall₂_iff_get.2 ⟨by simpa using hlength, ?_⟩
      intro i hx hy
      rw [List.length_mapIdx] at hx hy
      simpa using ih (u := other) ht hu hsame (hv _ (List.getElem_mem hx))
        (hw _ (List.getElem_mem hy)) (hitems i hx hy) (path.index i)
    | _ => exact faultPaths_perm_of_fits_eq_false h hvw path rfl
  | dictOf key value _ ih =>
    obtain ⟨k, other, rfl, hkey, hsame⟩ := exists_of_same_dictOf h
    cases v with
    | obj xs =>
      obtain ⟨ys, rfl⟩ := Json.exists_of_equiv_obj hvw
      obtain ⟨hxkeys, hxvalues⟩ := (Json.distinct_obj_iff xs).1 hv
      obtain ⟨hykeys, hyvalues⟩ := (Json.distinct_obj_iff ys).1 hw
      have hagree := (Json.equiv_obj_iff hxkeys hykeys).1 hvw
      rw [faultPaths_dictOf, faultPaths_dictOf]
      refine hagree.flatMap_perm hxkeys hykeys
        (fun name x => (if key.ReadsKey name then [] else [path.field name]) ++
          value.faultPaths x (path.field name))
        (fun name y => (if k.ReadsKey name then [] else [path.field name]) ++
          other.faultPaths y (path.field name)) ?_
      intro name x y hx hy hxy
      simp only [readsKey_congr hkey name]
      exact (ih ht.2 hu.2 hsame (hxvalues _ hx) (hyvalues _ hy) hxy _).append_left _
    | _ => exact faultPaths_perm_of_fits_eq_false h hvw path rfl
  | record name fields ih =>
    obtain ⟨other, others, rfl⟩ := exists_of_same_record h
    obtain ⟨hnames, htypes⟩ := (distinct_record_iff name fields).1 ht
    obtain ⟨hothernames, hothertypes⟩ := (distinct_record_iff other others).1 hu
    cases v with
    | obj xs =>
      obtain ⟨ys, rfl⟩ := Json.exists_of_equiv_obj hvw
      have hagree := (Json.equiv_obj_iff ((Json.distinct_obj_iff xs).1 hv).1
        ((Json.distinct_obj_iff ys).1 hw).1).1 hvw
      rw [faultPaths_record, faultPaths_record]
      refine ((same_record_iff hnames hothernames).1 h).flatMap_perm hnames hothernames
        (fun field s => fieldPaths path field s (xs.lookup field))
        (fun field t => fieldPaths path field t (ys.lookup field)) ?_
      intro field s t hs ht hst
      -- both objects have the field, or neither does and it is missing from both
      have hrel := hagree field
      cases hx : xs.lookup field with
      | none =>
        rw [hx] at hrel
        cases hy : ys.lookup field with
        | none => exact .refl _
        | some y => rw [hy] at hrel; cases hrel
      | some x =>
        obtain ⟨y, hy, hxy⟩ := hagree.of_some hx
        rw [hy]
        exact ih _ hs (htypes _ hs) (hothertypes _ ht) hst (hv.of_lookup hx) (hw.of_lookup hy) hxy _
    | _ => exact faultPaths_perm_of_fits_eq_false h hvw path rfl
  | _ =>
    rw [faultPaths_of_isFlat rfl, faultPaths_of_isFlat (isFlat_congr h ▸ rfl), fits_congr h hvw]

end TypeToken

/-! ## Validation -/

/-- The paths of the violations of an error. -/
def ValidationError.paths (e : ValidationError) : List Path :=
  e.violations.map FieldViolation.path

namespace RecordType

/-- Equal types validate equal values alike: both succeed with equal instances, or both fail with
violations at the same paths, each path equally often. -/
theorem validate_congr {T U : RecordType} (hT : T.WellFormed) (hU : U.WellFormed)
    (h : T.same U = true) {v w : Json} (hv : v.Distinct) (hw : w.Distinct)
    (hvw : v.equiv w = true) :
    (∃ i j, T.validate v = .ok i ∧ U.validate w = .ok j ∧ i.same j = true) ∨
      ∃ e f, T.validate v = .error e ∧ U.validate w = .error f ∧ e.paths.Perm f.paths := by
  by_cases hconf : T.token.Conforms v
  · obtain ⟨hother, hequiv⟩ := TypeToken.normalForm_congr hT hU h hv hw hvw hconf
    have hi := (validate_eq_ok_iff T v _).2 ⟨hconf, rfl⟩
    have hj := (validate_eq_ok_iff U w _).2 ⟨hother, rfl⟩
    refine .inl ⟨_, _, hi, hj, ?_⟩
    rw [← (toJson_of_validate hi).2, ← (toJson_of_validate hj).2] at hequiv
    rw [RecordInstance.same, h]
    exact hequiv
  · have hperm := TypeToken.faultPaths_perm hT hU h hv hw hvw ""
    have hother : ¬ U.token.Conforms w := by
      rw [← TypeToken.faultPaths_eq_nil_iff _ _ ""] at hconf ⊢
      intro hnil
      exact hconf (hnil ▸ hperm).eq_nil
    exact .inr ⟨_, _, (validate_eq_error_iff T v _).2 ⟨hconf, rfl⟩,
      (validate_eq_error_iff U w _).2 ⟨hother, rfl⟩, hperm⟩

/-- A record of a number and of points by their names. -/
def surveyType : RecordType :=
  ⟨"Survey", ⟨[("year", .int),
    ("points", .dictOf .str (.record "Point" [("x", .float), ("y", .float)]))]⟩⟩

/-- The same record under another name, its fields and those of the points in another order. -/
def censusType : RecordType :=
  ⟨"Census", ⟨[("points", .dictOf .str (.record "Place" [("y", .float), ("x", .float)])),
    ("year", .int)]⟩⟩

/-- A value with a text for the number, a point without `x` and one that is no object. -/
def surveySample : Json :=
  .obj [("year", .str "?"), ("points", .obj [("a", .obj [("y", .null)]), ("b", .null)])]

/-- An equal value, with all keys in another order. -/
def censusSample : Json :=
  .obj [("points", .obj [("b", .null), ("a", .obj [("y", .null)])]), ("year", .str "?")]

theorem validate_congr_surveySample :
    surveyType.WellFormed ∧ censusType.WellFormed ∧ surveyType.same censusType = true ∧
    surveySample.Distinct ∧ censusSample.Distinct ∧ surveySample.equiv censusSample = true ∧
    ∃ e f, surveyType.validate surveySample = .error e ∧
      censusType.validate censusSample = .error f ∧
      e.paths = ["year", "points.a.x", "points.a.y", "points.b"] ∧
      f.paths = ["points.b", "points.a.y", "points.a.x", "year"] ∧ e.paths.Perm f.paths := by
  have hsurvey : surveyType.WellFormed := by
    simp [WellFormed, token, surveyType, TypeToken.Distinct, TypeToken.DistinctFields]
  have hcensus : censusType.WellFormed := by
    simp [WellFormed, token, censusType, TypeToken.Distinct, TypeToken.DistinctFields]
  have hsame : surveyType.same censusType = true := by decide
  have hv : surveySample.Distinct := by
    simp [surveySample, Json.Distinct, Json.DistinctEntries]
  have hw : censusSample.Distinct := by
    simp [censusSample, Json.Distinct, Json.DistinctEntries]
  have hvw : surveySample.equiv censusSample = true := by decide
  refine ⟨hsurvey, hcensus, hsame, hv, hw, hvw, ?_⟩
  rcases validate_congr hsurvey hcensus hsame hv hw hvw with
    ⟨i, j, hi, -⟩ | ⟨e, f, he, hf, hperm⟩
  · cases hi
  · refine ⟨e, f, he, hf, ?_, ?_, hperm⟩
    · rw [← Except.error.inj he]
      rfl
    · rw [← Except.error.inj hf]
      rfl

end RecordType

end TypedWorkflow
