import TypedWorkflow.Proofs.Json.Equality
import TypedWorkflow.Proofs.Schema.NormalForm

/-!
# Equal types and equal values

Equal types accept equal values and give them equal normal forms, although neither the fields of
the types nor the keys of the objects need be in one order. So a value that has passed one type
passes every equal type unchanged.

## Main definitions

* `TypeToken.normalForm_congr`: equal types have the same values and normal forms, up to equality.
* `TypeToken.check_of_same`: a value in normal form passes the check against every equal type.
* `RecordType.Admits`: the instances of a type, which hold values in normal form.
-/

namespace TypedWorkflow

/-! ## Equal numbers -/

theorem Binary64.toInt?_eq_of_sameValue {x y : Binary64} (h : x.sameValue y = true) :
    x.toInt? = y.toInt? := by
  simp only [sameValue, Bool.or_eq_true, Bool.and_eq_true, beq_iff_eq, isZero] at h
  rcases h with rfl | ⟨hx, hy⟩
  · rfl
  · simp [toInt?, numerator, hx, hy]

theorem Number.toInteger?_eq_of_sameValue {m n : Number} (h : m.sameValue n = true) :
    m.toInteger? = n.toInteger? := by
  cases m with
  | int i =>
    cases n with
    | int j => exact congrArg some (beq_iff_eq.1 h)
    | float y => simp [sameValue] at h
  | float x =>
    cases n with
    | int j => simp [sameValue] at h
    | float y => simp only [toInteger?, Binary64.toInt?_eq_of_sameValue h]

/-! ## Distinct keys -/

theorem Json.Distinct.normalForm {t : TypeToken} (ht : t.Distinct) {v : Json} (hv : v.Distinct) :
    (t.normalForm v).Distinct := by
  induction t generalizing v with
  | int => cases v <;> exact hv
  | listOf item ih =>
    cases v with
    | arr items =>
      rw [distinct_arr_iff] at hv
      rw [TypeToken.normalForm, distinct_arr_iff]
      simpa using fun w hw => ih ht (hv w hw)
    | _ => exact hv
  | dictOf key value _ ih =>
    cases v with
    | obj entries =>
      rw [distinct_obj_iff] at hv
      rw [TypeToken.normalForm, distinct_obj_iff, List.map_map]
      refine ⟨hv.1, ?_⟩
      intro e he
      obtain ⟨d, hd, rfl⟩ := List.mem_map.1 he
      exact ih ht.2 (hv.2 d hd)
    | _ => exact hv
  | record name fields ih =>
    obtain ⟨hnames, htypes⟩ := (TypeToken.distinct_record_iff name fields).1 ht
    cases v with
    | obj entries =>
      rw [TypeToken.normalForm, distinct_obj_iff, TypeToken.names_normalFields,
        TypeToken.normalFields_eq_map]
      refine ⟨hnames, ?_⟩
      intro e he
      obtain ⟨f, hf, rfl⟩ := List.mem_map.1 he
      refine ih f hf (htypes f hf) ?_
      cases hw : entries.lookup f.1 with
      | none => trivial
      | some w => exact hv.of_lookup hw
    | _ => exact hv
  | _ => exact hv

namespace TypeToken

/-! ## Equal types -/

theorem readsKey_congr {t u : TypeToken} (h : t.same u = true) (key : String) :
    t.ReadsKey key ↔ u.ReadsKey key := by
  cases t <;> cases u <;> simp_all [same, ReadsKey]

theorem items_congr {t u : TypeToken} {xs ys : List Json}
    (ih : ∀ x ∈ xs, ∀ y ∈ ys, x.equiv y = true →
      u.Conforms y ∧ (t.normalForm x).equiv (u.normalForm y) = true)
    (h : List.Forall₂ (fun x y => x.equiv y = true) xs ys) :
    (∀ y ∈ ys, u.Conforms y) ∧
      List.Forall₂ (fun x y => x.equiv y = true) (xs.map t.normalForm) (ys.map u.normalForm) := by
  induction h with
  | nil => simp
  | cons hxy _ ihrest =>
    obtain ⟨hconf, hequiv⟩ := ih _ List.mem_cons_self _ List.mem_cons_self hxy
    obtain ⟨hconfs, hequivs⟩ := ihrest fun x hx y hy =>
      ih x (List.mem_cons_of_mem _ hx) y (List.mem_cons_of_mem _ hy)
    exact ⟨List.forall_mem_cons.2 ⟨hconf, hconfs⟩, .cons hequiv hequivs⟩

theorem dictOf_congr {key value k t : TypeToken} (hkey : key.same k = true)
    {xs ys : Json.Entries} (hxs : (xs.map Prod.fst).Nodup) (hys : (ys.map Prod.fst).Nodup)
    (hagree : Entries.Agree (fun x y => x.equiv y = true) xs ys)
    (hkeys : ∀ e ∈ xs, key.ReadsKey e.1)
    (ih : ∀ name x y, (name, x) ∈ xs → (name, y) ∈ ys → x.equiv y = true →
      t.Conforms y ∧ (value.normalForm x).equiv (t.normalForm y) = true) :
    (TypeToken.dictOf k t).Conforms (.obj ys) ∧
      ((TypeToken.dictOf key value).normalForm (.obj xs)).equiv
        ((TypeToken.dictOf k t).normalForm (.obj ys)) = true := by
  rw [conforms_dictOf_iff, normalForm, normalForm, Json.equiv_obj_iff]
  · refine ⟨⟨ys, rfl, ?_⟩, hagree.map (fun _ x => value.normalForm x)
      (fun _ y => t.normalForm y) fun name x y hx hy hxy => (ih name x y hx hy hxy).2⟩
    rintro ⟨name, y⟩ hy
    obtain ⟨x, hx, hxy⟩ := hagree.flip.of_some (Entries.lookup_eq_some_of_mem hys hy)
    have hmem := Entries.mem_of_lookup_eq_some hx
    exact ⟨(readsKey_congr hkey name).1 (hkeys _ hmem), (ih name x y hmem hy hxy).1⟩
  · rwa [Entries.names_map fun _ x => value.normalForm x]
  · rwa [Entries.names_map fun _ y => t.normalForm y]

/-- For records it is enough that both objects hold a value for each field that both types
declare. -/
theorem record_congr {m n : String} {fields others : List (String × TypeToken)}
    (hfields : (fields.map Prod.fst).Nodup) (hothers : (others.map Prod.fst).Nodup)
    (hagree : Entries.Agree (fun s t => s.same t = true) fields others) {xs ys : Json.Entries}
    (ih : ∀ field s t, (field, s) ∈ fields → (field, t) ∈ others → s.same t = true →
      ∃ x y, xs.lookup field = some x ∧ ys.lookup field = some y ∧ t.Conforms y ∧
        (s.normalForm x).equiv (t.normalForm y) = true) :
    (TypeToken.record n others).Conforms (.obj ys) ∧
      ((TypeToken.record m fields).normalForm (.obj xs)).equiv
        ((TypeToken.record n others).normalForm (.obj ys)) = true := by
  rw [conforms_record_iff, normalForm, normalForm, Json.equiv_obj_iff]
  · refine ⟨⟨ys, rfl, ?_⟩, ?_⟩
    · rintro ⟨field, t⟩ ht
      obtain ⟨s, hs, hst⟩ := hagree.flip.of_some (Entries.lookup_eq_some_of_mem hothers ht)
      obtain ⟨x, y, -, hy, hconf, -⟩ := ih field s t (Entries.mem_of_lookup_eq_some hs) ht hst
      exact ⟨y, hy, hconf⟩
    · rw [normalFields_eq_map, normalFields_eq_map]
      refine hagree.map (fun field s => s.normalForm ((xs.lookup field).getD .null))
        (fun field t => t.normalForm ((ys.lookup field).getD .null)) fun field s t hs ht hst => ?_
      obtain ⟨x, y, hx, hy, -, hequiv⟩ := ih field s t hs ht hst
      simpa [hx, hy] using hequiv
  · rwa [names_normalFields]
  · rwa [names_normalFields]

/-- Equal types have the same values up to equality, with equal normal forms. -/
theorem normalForm_congr {t u : TypeToken} (ht : t.Distinct) (hu : u.Distinct)
    (h : t.same u = true) {v w : Json} (hv : v.Distinct) (hw : w.Distinct)
    (hvw : v.equiv w = true) (hconf : t.Conforms v) :
    u.Conforms w ∧ (t.normalForm v).equiv (u.normalForm w) = true := by
  induction t generalizing u v w with
  | int =>
    obtain ⟨m, rfl, hm⟩ := (conforms_int_iff v).1 hconf
    obtain ⟨n, rfl, hmn⟩ := Json.exists_of_equiv_num hvw
    obtain rfl : u = .int := by cases u <;> simp_all [same]
    have hread := Number.toInteger?_eq_of_sameValue hmn
    obtain ⟨i, hi, hform⟩ := hm.exists_normalForm
    have hn : n.IsIntegral := by rw [n.isIntegral_iff, ← hread, hi]; rfl
    refine ⟨hn, ?_⟩
    rw [normalForm, normalForm, hform, Number.normalForm, ← hread, hi]
    exact (Number.int i).sameValue_refl
  | listOf item ih =>
    obtain ⟨xs, rfl, hxs⟩ := (conforms_listOf_iff item v).1 hconf
    obtain ⟨ys, rfl⟩ := Json.exists_of_equiv_arr hvw
    obtain ⟨other, rfl, hsame⟩ := exists_of_same_listOf h
    rw [Json.distinct_arr_iff] at hv hw
    rw [normalForm, normalForm, Json.equiv_arr_iff, conforms_listOf_iff]
    obtain ⟨hys, hequiv⟩ := items_congr (t := item) (u := other)
      (fun x hx y hy hxy => ih (u := other) ht hu hsame (hv x hx) (hw y hy) hxy (hxs x hx))
      ((Json.equiv_arr_iff xs ys).1 hvw)
    exact ⟨⟨ys, rfl, hys⟩, hequiv⟩
  | dictOf key value _ ih =>
    obtain ⟨xs, rfl, hxs⟩ := (conforms_dictOf_iff key value v).1 hconf
    obtain ⟨ys, rfl⟩ := Json.exists_of_equiv_obj hvw
    obtain ⟨k, t, rfl, hkey, hsame⟩ := exists_of_same_dictOf h
    obtain ⟨hxkeys, hxvalues⟩ := (Json.distinct_obj_iff xs).1 hv
    obtain ⟨hykeys, hyvalues⟩ := (Json.distinct_obj_iff ys).1 hw
    refine dictOf_congr hkey hxkeys hykeys ((Json.equiv_obj_iff hxkeys hykeys).1 hvw)
      (fun e he => (hxs e he).1) ?_
    intro name x y hx hy hxy
    exact ih ht.2 hu.2 hsame (hxvalues _ hx) (hyvalues _ hy) hxy (hxs _ hx).2
  | record name fields ih =>
    obtain ⟨xs, rfl, hxs⟩ := (conforms_record_iff name fields v).1 hconf
    obtain ⟨ys, rfl⟩ := Json.exists_of_equiv_obj hvw
    obtain ⟨n, others, rfl⟩ := exists_of_same_record h
    obtain ⟨hnames, htypes⟩ := (distinct_record_iff name fields).1 ht
    obtain ⟨hothernames, hothertypes⟩ := (distinct_record_iff n others).1 hu
    have hxkeys := ((Json.distinct_obj_iff xs).1 hv).1
    have hykeys := ((Json.distinct_obj_iff ys).1 hw).1
    refine record_congr hnames hothernames ((same_record_iff hnames hothernames).1 h) ?_
    intro field s t hs ht hst
    obtain ⟨x, hx, hconfx⟩ := hxs _ hs
    obtain ⟨y, hy, hxy⟩ := ((Json.equiv_obj_iff hxkeys hykeys).1 hvw).of_some hx
    exact ⟨x, y, hx, hy, ih _ hs (htypes _ hs) (hothertypes _ ht) hst (hv.of_lookup hx)
      (hw.of_lookup hy) hxy hconfx⟩
  | _ =>
    cases u <;> simp [same] at h
    cases v <;> cases w <;> simp_all [Conforms, normalForm, Json.equiv]

/-- A value in normal form passes the check against every equal type, and comes out equal. -/
theorem check_of_same {t u : TypeToken} (ht : t.Distinct) (hu : u.Distinct)
    (h : t.same u = true) {v : Json} (hv : v.Distinct) (hconf : t.Conforms v)
    (hnormal : t.normalForm v = v) :
    ∃ w, (∀ path, u.check v path = .ok w) ∧ v.equiv w = true := by
  obtain ⟨hconf, hequiv⟩ := normalForm_congr ht hu h hv hv (Json.equiv_refl hv) hconf
  refine ⟨u.normalForm v, fun path => check_eq_ok_iff.2 ⟨hconf, rfl⟩, ?_⟩
  rwa [hnormal] at hequiv

end TypeToken

/-! ## Instances -/

namespace RecordType

/-- The instances of a type: what validation makes of values that repeat no key. -/
def Admits (T : RecordType) (o : RecordInstance) : Prop :=
  ∃ v : Json, v.Distinct ∧ T.validate v = .ok o

/-- An instance holds a value in normal form for every declared field. -/
theorem Admits.exists_get? {T : RecordType} (hT : T.WellFormed) {o : RecordInstance}
    (h : T.Admits o) {field : String} {t : TypeToken} (ht : T.field? field = some t) :
    ∃ v, o.get? field = some v ∧ v.Distinct ∧ t.Conforms v ∧ t.normalForm v = v := by
  obtain ⟨x, hx, hval⟩ := h
  obtain ⟨hconf, hjson⟩ := toJson_of_validate hval
  obtain ⟨entries, rfl, hentries⟩ := (TypeToken.conforms_record_iff _ _ x).1 hconf
  obtain ⟨w, hw, hconf⟩ := hentries _ (Entries.mem_of_lookup_eq_some ht)
  have htype := hT.distinct_of_field? ht
  have hvalues : o.values = TypeToken.normalFields T.schema.fields entries := Json.obj.inj hjson
  have hfield : T.schema.fields.lookup field = some t := ht
  refine ⟨t.normalForm w, ?_, (hx.of_lookup hw).normalForm htype,
    TypeToken.conforms_normalForm htype hconf, TypeToken.normalForm_normalForm htype w⟩
  rw [RecordInstance.get?, hvalues, TypeToken.lookup_normalFields, hfield, hw]
  rfl

end RecordType

end TypedWorkflow
