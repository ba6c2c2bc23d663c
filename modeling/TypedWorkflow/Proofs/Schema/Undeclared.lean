import TypedWorkflow.Proofs.Schema.CheckCongruence
import TypedWorkflow.Proofs.Schema.Verdict

/-!
# Undeclared keys

A record type looks up the names that it declares and nothing else. So what an object holds under
other keys has no influence on a validation, neither on the instance nor on the violations, and
neither has the order of its keys. This is so at every position of a record type: at the value
itself, in a field of a record, in an item of a list and in a value of a dictionary. A dictionary
and a value of any type are kept as they are, so there the values have to be the same.

## Main definitions

* `TypeToken.SameDeclared`: values that differ only in undeclared keys and in the order of keys.
* `TypeToken.SameDeclared.check_eq`: they are checked alike.
* `RecordType.validate_eq_of_sameDeclared`: and validated alike.
-/

namespace TypedWorkflow

namespace TypeToken

/-- The values differ in nothing but the keys that the record type at their position does not
declare, and in the order of the keys of objects at such positions. -/
inductive SameDeclared : TypeToken → Json → Json → Prop where
  | refl (t : TypeToken) (v : Json) : SameDeclared t v v
  | items {item : TypeToken} {xs ys : List Json} (hlength : xs.length = ys.length)
      (hitems : ∀ x y, (x, y) ∈ xs.zip ys → SameDeclared item x y) :
      SameDeclared (.listOf item) (.arr xs) (.arr ys)
  | entries {key value : TypeToken} {xs ys : Json.Entries}
      (hkeys : xs.map Prod.fst = ys.map Prod.fst)
      (hvalues : ∀ d e, (d, e) ∈ xs.zip ys → SameDeclared value d.2 e.2) :
      SameDeclared (.dictOf key value) (.obj xs) (.obj ys)
  | fields {name : String} {fields : List (String × TypeToken)} {xs ys : Json.Entries}
      (hpresent : ∀ f ∈ fields, xs.lookup f.1 = none ↔ ys.lookup f.1 = none)
      (hvalues : ∀ f ∈ fields, ∀ x y, xs.lookup f.1 = some x → ys.lookup f.1 = some y →
        SameDeclared f.2 x y) :
      SameDeclared (.record name fields) (.obj xs) (.obj ys)

/-- Objects with the same values under the declared names differ in nothing else that counts. -/
theorem SameDeclared.of_lookup_eq {name : String} {fields : List (String × TypeToken)}
    {xs ys : Json.Entries} (h : ∀ f ∈ fields, xs.lookup f.1 = ys.lookup f.1) :
    (TypeToken.record name fields).SameDeclared (.obj xs) (.obj ys) := by
  refine .fields (fun f hf => by rw [h f hf]) fun f hf x y hx hy => ?_
  obtain rfl : x = y := Option.some.inj (hx.symm.trans ((h f hf).trans hy))
  exact .refl f.2 x

/-- Undeclared keys and the order of keys have no influence on a check. -/
theorem SameDeclared.check_eq {t : TypeToken} {v w : Json} (h : t.SameDeclared v w)
    (path : Path) : t.check v path = t.check w path := by
  induction h generalizing path with
  | refl => rfl
  | items hlength _ ih => exact check_listOf_congr hlength ih path
  | entries hkeys _ ih => exact check_dictOf_congr hkeys ih path
  | @fields name fields xs ys hpresent _ ih =>
    refine check_record_congr (fun f hf => ?_) path
    cases hx : xs.lookup f.1 with
    | none => exact .inl ⟨rfl, (hpresent f hf).1 hx⟩
    | some x =>
      cases hy : ys.lookup f.1 with
      | none => rw [(hpresent f hf).2 hy] at hx; cases hx
      | some y => exact .inr ⟨x, y, rfl, rfl, ih f hf x y hx hy⟩

end TypeToken

namespace RecordType

/-- Values that differ only in keys that are not declared where they stand, and in the order of the
keys of records, are validated alike: with the same instance, the order of its keys included, or
with the same violations in the same order. -/
theorem validate_eq_of_sameDeclared {T : RecordType} {v w : Json}
    (h : T.token.SameDeclared v w) : T.validate v = T.validate w := by
  rw [validate_eq_check, validate_eq_check, h.check_eq]

/-- A record with records in a list, in a dictionary and in a field. -/
def routeType : RecordType :=
  ⟨"Route", ⟨[("stops", .listOf (.record "Stop" [("at", .int), ("name", .str)])),
    ("marks", .dictOf .int (.record "Mark" [("x", .float)])),
    ("owner", .record "Owner" [("tags", .dict)])]⟩⟩

/-- A value of that type with undeclared keys in every record. -/
def routeSample : Json :=
  .obj [("draft", .bool true),
    ("stops", .arr [.obj [("name", .str "a"), ("at", .num (.int 1)), ("seen", .null)]]),
    ("marks", .obj [("7", .obj [("note", .str "?"), ("x", .num (.int 2))])]),
    ("owner", .obj [("tags", .obj [("k", .null)]), ("id", .num (.int 3))])]

/-- The same value with some of these keys removed, changed or added, and with the keys of records
in another order. -/
def routeVariant : Json :=
  .obj [("owner", .obj [("id", .str "three"), ("tags", .obj [("k", .null)])]),
    ("marks", .obj [("7", .obj [("x", .num (.int 2))])]),
    ("stops", .arr [.obj [("at", .num (.int 1)), ("x", .arr []), ("name", .str "a")]])]

theorem sameDeclared_routeSample : routeType.token.SameDeclared routeSample routeVariant := by
  have hstop : (TypeToken.record "Stop" [("at", .int), ("name", .str)]).SameDeclared
      (.obj [("name", .str "a"), ("at", .num (.int 1)), ("seen", .null)])
      (.obj [("at", .num (.int 1)), ("x", .arr []), ("name", .str "a")]) :=
    .of_lookup_eq (by simp [List.lookup_cons])
  have hmark : (TypeToken.record "Mark" [("x", .float)]).SameDeclared
      (.obj [("note", .str "?"), ("x", .num (.int 2))]) (.obj [("x", .num (.int 2))]) :=
    .of_lookup_eq (by simp [List.lookup_cons])
  have howner : (TypeToken.record "Owner" [("tags", .dict)]).SameDeclared
      (.obj [("tags", .obj [("k", .null)]), ("id", .num (.int 3))])
      (.obj [("id", .str "three"), ("tags", .obj [("k", .null)])]) :=
    .of_lookup_eq (by simp [List.lookup_cons])
  refine .fields (by simp [routeType, List.lookup_cons]) fun f hf x y hx hy => ?_
  simp only [routeType, List.mem_cons, List.not_mem_nil, or_false] at hf
  rcases hf with rfl | rfl | rfl
  · obtain rfl := Option.some.inj hx
    obtain rfl := Option.some.inj hy
    refine .items rfl fun x y hxy => ?_
    obtain ⟨rfl, rfl⟩ : x = _ ∧ y = _ := by simpa using hxy
    exact hstop
  · obtain rfl := Option.some.inj hx
    obtain rfl := Option.some.inj hy
    refine .entries rfl fun d e hde => ?_
    obtain ⟨rfl, rfl⟩ : d = _ ∧ e = _ := by simpa using hde
    exact hmark
  · obtain rfl := Option.some.inj hx
    obtain rfl := Option.some.inj hy
    exact howner

theorem validate_eq_routeSample :
    routeType.token.SameDeclared routeSample routeVariant ∧
    routeType.validate routeSample = routeType.validate routeVariant ∧
    routeType.validate routeSample =
      .ok ⟨routeType, [("stops", .arr [.obj [("at", .num (.int 1)), ("name", .str "a")]]),
        ("marks", .obj [("7", .obj [("x", .num (.int 2))])]),
        ("owner", .obj [("tags", .obj [("k", .null)])])]⟩ :=
  ⟨sameDeclared_routeSample, validate_eq_of_sameDeclared sameDeclared_routeSample, rfl⟩

end RecordType

end TypedWorkflow
