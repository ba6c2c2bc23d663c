import TypedWorkflow.Proofs.Json.Equality
import TypedWorkflow.Proofs.Schema.CheckCongruence
import TypedWorkflow.Proofs.Schema.Position

/-!
# Two spellings of an integer

A JSON value holds an integer in one of two spellings: as an integer, if it fits a signed or an
unsigned 64-bit word, or as a floating-point number of the same value. At an integer position both
are accepted and stand for the same integer, but only below `2^63`: from there on an integer is
still taken as it is, while the floating-point number `2^63` becomes the integer before it and
greater ones are rejected. So values that differ only in the spelling of integers are treated alike
exactly if no integer beyond the signed words is spelled differently, or if both are rejected
anyway.

## Main definitions

* `Number.Respelled`: one number in two spellings.
* `TypeToken.Respells`: values that differ only in the spelling of integers at integer positions.
* `TypeToken.Respells.check_eq`: below `2^63` they are treated alike.
* `RecordType.validate_respelled`: when validation treats them alike.
-/

namespace TypedWorkflow

/-! ## Numbers -/

namespace Number

/-- The integers of signed and of unsigned 64-bit words, which a JSON value can hold as such. -/
def IsWord (i : Int) : Prop :=
  -2 ^ 63 ≤ i ∧ i < 2 ^ 64

/-- The integers of signed 64-bit words. -/
def IsSignedWord (i : Int) : Prop :=
  -2 ^ 63 ≤ i ∧ i < 2 ^ 63

/-- One number in two spellings, once as an integer in a range and once as a floating-point number
of the same value. -/
inductive Respelled (range : Int → Prop) : Number → Number → Prop where
  | float {i : Int} {x : Binary64} (hi : range i) (hx : x.toRat = i) :
      Respelled range (.int i) (.float x)
  | int {i : Int} {x : Binary64} (hi : range i) (hx : x.toRat = i) :
      Respelled range (.float x) (.int i)

theorem toInteger?_float_of_isSignedWord {i : Int} {x : Binary64} (hi : IsSignedWord i)
    (hx : x.toRat = i) : (Number.float x).toInteger? = some i := by
  obtain ⟨hlow, hhigh⟩ := hi
  refine (toInteger?_float_eq_some_iff x i).2 ⟨i, hx, ⟨hlow, hhigh.le⟩, ?_⟩
  rw [min_eq_left (by omega)]

/-- Both spellings of an integer below `2^63` stand for it. -/
theorem Respelled.toInteger?_eq {m n : Number} (h : Respelled IsSignedWord m n) :
    ∃ i, m.toInteger? = some i ∧ n.toInteger? = some i := by
  cases h with
  | float hi hx => exact ⟨_, rfl, toInteger?_float_of_isSignedWord hi hx⟩
  | int hi hx => exact ⟨_, toInteger?_float_of_isSignedWord hi hx, rfl⟩

/-- A floating-point number that is accepted and stands for the integer of its value is below
`2^63`. -/
theorem isSignedWord_of_normalForm {i : Int} {x : Binary64} (hi : IsWord i) (hx : x.toRat = i)
    (hx' : (Number.float x).IsIntegral) (h : (Number.float x).normalForm = .int i) :
    IsSignedWord i := by
  have hhigh : i ≤ 2 ^ 63 := by
    obtain ⟨j, hj, -, hhigh⟩ := hx'
    have hij : i = j := by exact_mod_cast hx.symm.trans hj
    rwa [hij]
  refine ⟨hi.1, ?_⟩
  rcases hx'.toRat_normalForm with ⟨-, hnot⟩ | ⟨hcut, -⟩
  · have hne : i ≠ 2 ^ 63 := by
      rintro rfl
      exact hnot ⟨x, rfl, by rw [hx]; norm_num⟩
    omega
  · have hi' : i = 2 ^ 63 - 1 := Number.int.inj (h.symm.trans hcut)
    omega

/-- Two spellings that are accepted and stand for the same integer are of one below `2^63`. -/
theorem Respelled.of_normalForm_eq {m n : Number} (h : Respelled IsWord m n) (hm : m.IsIntegral)
    (hn : n.IsIntegral) (heq : m.normalForm = n.normalForm) : Respelled IsSignedWord m n := by
  cases h with
  | float hi hx => exact .float (isSignedWord_of_normalForm hi hx hn heq.symm) hx
  | int hi hx => exact .int (isSignedWord_of_normalForm hi hx hm heq) hx

end Number

/-! ## Corresponding entries -/

/-- A name is found in both of two lists with the same names, at the same place, or in neither. -/
theorem Entries.lookup_cases_of_zip {α : Type} {xs ys : List (String × α)}
    (hnames : xs.map Prod.fst = ys.map Prod.fst) (name : String) :
    (xs.lookup name = none ∧ ys.lookup name = none) ∨
      ∃ x y, xs.lookup name = some x ∧ ys.lookup name = some y ∧
        ((name, x), (name, y)) ∈ xs.zip ys := by
  induction xs generalizing ys with
  | nil =>
    cases ys with
    | nil => exact .inl ⟨rfl, rfl⟩
    | cons e ys => simp at hnames
  | cons d xs ih =>
    cases ys with
    | nil => simp at hnames
    | cons e ys =>
      obtain ⟨hhead, htail⟩ := List.cons.inj hnames
      obtain ⟨first, x⟩ := d
      obtain ⟨_, y⟩ := e
      obtain rfl : first = _ := hhead
      by_cases hname : name = first
      · subst hname
        exact .inr ⟨x, y, by simp, by simp, by simp⟩
      · rw [List.lookup_cons, List.lookup_cons, beq_false_of_ne hname]
        rcases ih htail with hnone | ⟨x', y', hx, hy, hmem⟩
        · exact .inl hnone
        · exact .inr ⟨x', y', hx, hy, List.mem_cons_of_mem _ hmem⟩

namespace TypeToken

/-! ## Values -/

/-- The values differ in nothing but the spelling of integers of a range at integer positions. -/
inductive Respells (range : Int → Prop) : TypeToken → Json → Json → Prop where
  | same (t : TypeToken) (v : Json) : Respells range t v v
  | number {m n : Number} (h : m.Respelled range n) : Respells range .int (.num m) (.num n)
  | items {item : TypeToken} {xs ys : List Json} (hlength : xs.length = ys.length)
      (hitems : ∀ x y, (x, y) ∈ xs.zip ys → Respells range item x y) :
      Respells range (.listOf item) (.arr xs) (.arr ys)
  | entries {key value : TypeToken} {xs ys : Json.Entries}
      (hkeys : xs.map Prod.fst = ys.map Prod.fst)
      (hvalues : ∀ d e, (d, e) ∈ xs.zip ys → Respells range value d.2 e.2) :
      Respells range (.dictOf key value) (.obj xs) (.obj ys)
  | fields {name : String} {fields : List (String × TypeToken)} {xs ys : Json.Entries}
      (hkeys : xs.map Prod.fst = ys.map Prod.fst)
      (hdeclared : ∀ d e, (d, e) ∈ xs.zip ys → ∀ t, (d.1, t) ∈ fields →
        Respells range t d.2 e.2)
      (hothers : ∀ d e, (d, e) ∈ xs.zip ys → d.1 ∉ fields.map Prod.fst → d.2 = e.2) :
      Respells range (.record name fields) (.obj xs) (.obj ys)

/-- Below `2^63` both spellings of an integer are treated alike, in results and in violations. -/
theorem Respells.check_eq {t : TypeToken} {v w : Json} (h : t.Respells Number.IsSignedWord v w)
    (path : Path) : t.check v path = t.check w path := by
  induction h generalizing path with
  | same => rfl
  | number h =>
    obtain ⟨i, hm, hn⟩ := h.toInteger?_eq
    simp only [check, hm, hn]
  | items hlength _ ih => exact check_listOf_congr hlength ih path
  | entries hkeys _ ih => exact check_dictOf_congr hkeys ih path
  | @fields name fields xs ys hkeys _ _ ih =>
    refine check_record_congr (fun f hf => ?_) path
    rcases Entries.lookup_cases_of_zip hkeys f.1 with hnone | ⟨x, y, hx, hy, hmem⟩
    · exact .inl hnone
    · exact .inr ⟨x, y, hx, hy, ih _ _ hmem f.2 hf⟩

/-- If both spellings are accepted with the same result, then no integer from `2^63` on is spelled
differently. -/
theorem Respells.of_normalForm_eq {t : TypeToken} {v w : Json} (h : t.Respells Number.IsWord v w)
    (hdistinct : v.Distinct) (hv : t.Conforms v) (hw : t.Conforms w)
    (heq : t.normalForm v = t.normalForm w) : t.Respells Number.IsSignedWord v w := by
  -- along the relation: equal normal forms have equal parts, and these are spelled as they may be
  induction h with
  | same t v => exact .same t v
  | number h => exact .number (h.of_normalForm_eq hv hw (Json.num.inj heq))
  | @items item xs ys hlength _ ih =>
    rw [Json.distinct_arr_iff] at hdistinct
    have hforms : ∀ {x y}, (x, y) ∈ xs.zip ys → item.normalForm x = item.normalForm y :=
      (map_eq_map_iff_zip.1 (Json.arr.inj heq)).2
    refine .items hlength fun x y hxy => ?_
    obtain ⟨hx, hy⟩ := List.of_mem_zip hxy
    exact ih x y hxy (hdistinct x hx) (hv x hx) (hw y hy) (hforms hxy)
  | @entries key value xs ys hkeys _ ih =>
    rw [Json.distinct_obj_iff] at hdistinct
    have hforms : ∀ {d e}, (d, e) ∈ xs.zip ys →
        (d.1, value.normalForm d.2) = (e.1, value.normalForm e.2) :=
      (map_eq_map_iff_zip.1 (Json.obj.inj heq)).2
    refine .entries hkeys fun d e hde => ?_
    obtain ⟨hd, he⟩ := List.of_mem_zip hde
    exact ih d e hde (hdistinct.2 d hd) (hv d hd).2 (hw e he).2 (Prod.mk.inj (hforms hde)).2
  | @fields name fields xs ys hkeys _ hothers ih =>
    obtain ⟨hxs, hvalues⟩ := (Json.distinct_obj_iff xs).1 hdistinct
    have hys : (ys.map Prod.fst).Nodup := hkeys ▸ hxs
    rw [Conforms, conformsFields_iff] at hv hw
    rw [normalForm, normalForm, Json.obj.injEq, normalFields_eq_map, normalFields_eq_map,
      List.map_inj_left] at heq
    refine .fields hkeys (fun d e hde t ht => ?_) hothers
    -- as no key is repeated, what the check looks up is the value of this very entry
    obtain ⟨hd, he⟩ := List.of_mem_zip hde
    have hname : d.1 = e.1 := (map_eq_map_iff_zip.1 hkeys).2 hde
    have hx : xs.lookup d.1 = some d.2 := Entries.lookup_eq_some_of_mem hxs hd
    have hy : ys.lookup d.1 = some e.2 := hname ▸ Entries.lookup_eq_some_of_mem hys he
    obtain ⟨x, hx', hconfx⟩ := hv _ ht
    obtain ⟨y, hy', hconfy⟩ := hw _ ht
    obtain rfl := Option.some.inj (hx.symm.trans hx')
    obtain rfl := Option.some.inj (hy.symm.trans hy')
    refine ih d e hde t ht (hvalues d hd) hconfx hconfy ?_
    simpa [hx, hy] using heq _ ht

end TypeToken

/-! ## Record types -/

namespace RecordType

/-- Values that differ only in the spelling of integers at integer positions are treated alike, in
results and in violations, if no integer from `2^63` on is spelled differently. Otherwise they are
accepted with one and the same result exactly if they are not accepted at all. -/
theorem validate_respelled {T : RecordType} {v w : Json}
    (h : T.token.Respells Number.IsWord v w) (hv : v.Distinct) :
    (T.token.Respells Number.IsSignedWord v w → T.validate v = T.validate w) ∧
      ((∀ i, T.validate v = .ok i ↔ T.validate w = .ok i) ↔
        T.token.Respells Number.IsSignedWord v w ∨
          ((∀ i, T.validate v ≠ .ok i) ∧ ∀ i, T.validate w ≠ .ok i)) := by
  have halike (hsigned : T.token.Respells Number.IsSignedWord v w) :
      T.validate v = T.validate w := by
    rw [validate_eq_check, validate_eq_check, hsigned.check_eq]
  refine ⟨halike, fun hiff => ?_, ?_⟩
  · by_cases hok : ∃ i, T.validate v = .ok i
    · obtain ⟨i, hi⟩ := hok
      obtain ⟨hconf, hform⟩ := toJson_of_validate hi
      obtain ⟨hconf', hform'⟩ := toJson_of_validate ((hiff i).1 hi)
      exact .inl (h.of_normalForm_eq hv hconf hconf' (hform.symm.trans hform'))
    · have hnone : ∀ i, T.validate v ≠ .ok i := not_exists.1 hok
      exact .inr ⟨hnone, fun i hi => hnone i ((hiff i).2 hi)⟩
  · rintro (hsigned | ⟨hnone, hnone'⟩) i
    · rw [halike hsigned]
    · exact iff_of_false (hnone i) (hnone' i)

/-- The greatest floating-point number below `2^63` in the field and its negative, as an integer, in
the list. -/
def boundsSample : Json :=
  .obj [("n", .num (.float ⟨false, 2 ^ 53 - 1, 10, by decide⟩)),
    ("xs", .arr [.num (.int (-9223372036854774784))])]

/-- The same values in the other spelling. -/
def boundsRespelled : Json :=
  .obj [("n", .num (.int 9223372036854774784)),
    ("xs", .arr [.num (.float ⟨true, 2 ^ 53 - 1, 10, by decide⟩)])]

theorem respells_boundsSample {range : Int → Prop} (hmax : range 9223372036854774784)
    (hmin : range (-9223372036854774784)) :
    integersType.token.Respells range boundsSample boundsRespelled := by
  refine .fields rfl (fun d e hde t ht => ?_) (fun d e hde hd => ?_)
  · simp only [List.zip_cons_cons, List.zip_nil_left, List.mem_cons, List.not_mem_nil, or_false,
      Prod.mk.injEq, integersType] at hde ht
    rcases hde with ⟨rfl, rfl⟩ | ⟨rfl, rfl⟩
    · obtain rfl : t = .int := by simpa using ht
      exact .number (.int hmax ((Binary64.toInt?_eq_some_iff _ _).1 rfl))
    · obtain rfl : t = .listOf .int := by simpa using ht
      refine .items rfl fun x y hxy => ?_
      obtain ⟨rfl, rfl⟩ : x = _ ∧ y = _ := by simpa using hxy
      exact .number (.float hmin ((Binary64.toInt?_eq_some_iff _ _).1 rfl))
  · simp only [List.zip_cons_cons, List.zip_nil_left, List.mem_cons, List.not_mem_nil, or_false,
      Prod.mk.injEq] at hde
    rcases hde with ⟨rfl, rfl⟩ | ⟨rfl, rfl⟩ <;> simp [integersType] at hd

theorem validate_respelled_boundsSample :
    integersType.token.Respells Number.IsWord boundsSample boundsRespelled ∧
    boundsSample.Distinct ∧
    integersType.token.Respells Number.IsSignedWord boundsSample boundsRespelled ∧
    integersType.validate boundsSample = integersType.validate boundsRespelled ∧
    integersType.validate boundsSample =
      .ok ⟨integersType, [("n", .num (.int 9223372036854774784)),
        ("xs", .arr [.num (.int (-9223372036854774784))])]⟩ := by
  have hword : integersType.token.Respells Number.IsWord boundsSample boundsRespelled :=
    respells_boundsSample (by simp [Number.IsWord]) (by simp [Number.IsWord])
  have hsigned : integersType.token.Respells Number.IsSignedWord boundsSample boundsRespelled :=
    respells_boundsSample (by simp [Number.IsSignedWord]) (by simp [Number.IsSignedWord])
  have hdistinct : boundsSample.Distinct := by
    simp [boundsSample, Json.Distinct, Json.DistinctEntries, Json.DistinctItems]
  exact ⟨hword, hdistinct, hsigned, (validate_respelled hword hdistinct).1 hsigned, rfl⟩

/-- Not all spellings are treated alike: the integer `2^63` is kept where the floating-point number
becomes another one. -/
theorem not_validate_respelled :
    ¬ ∀ (T : RecordType) (v w : Json), T.WellFormed → v.Distinct → w.Distinct →
      T.token.Respells Number.IsWord v w →
        ∀ i, T.validate v = .ok i ↔ T.validate w = .ok i := by
  intro hall
  let T : RecordType := ⟨"Record", ⟨[("n", .int)]⟩⟩
  let v : Json := .obj [("n", .num (.int (2 ^ 63)))]
  let w : Json := .obj [("n", .num (.float ⟨false, 2 ^ 52, 11, by decide⟩))]
  have htype : T.WellFormed := by
    simp [T, WellFormed, token, TypeToken.Distinct, TypeToken.DistinctFields]
  have hv : v.Distinct := by simp [v, Json.Distinct, Json.DistinctEntries]
  have hw : w.Distinct := by simp [w, Json.Distinct, Json.DistinctEntries]
  have hvw : T.token.Respells Number.IsWord v w := by
    refine .fields rfl (fun d e hde t ht => ?_) (fun d e hde hd => ?_)
    · obtain ⟨rfl, rfl⟩ : d = _ ∧ e = _ := by simpa using hde
      obtain rfl : t = .int := by simpa [T] using ht
      exact .number (.float (by simp [Number.IsWord]) ((Binary64.toInt?_eq_some_iff _ _).1 rfl))
    · obtain ⟨rfl, rfl⟩ : d = _ ∧ e = _ := by simpa using hde
      simp [T] at hd
  have hkept : T.validate v = .ok ⟨T, [("n", .num (.int (2 ^ 63)))]⟩ := rfl
  have hcut : T.validate w = .ok ⟨T, [("n", .num (.int (2 ^ 63 - 1)))]⟩ := rfl
  have hsame := hcut.symm.trans ((hall T v w htype hv hw hvw _).1 hkept)
  simp at hsame

end RecordType

end TypedWorkflow
