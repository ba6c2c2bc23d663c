import Mathlib.Data.List.Forall2
import TypedWorkflow.Proofs.Entries
import TypedWorkflow.Schema.Validation

/-!
# Values that are checked alike

Two values are checked alike, in results and in violations, if the values inside them are: item by
item, entry by entry, or under each declared name. Whoever relates two values of a type needs only
say which values inside them correspond.

## Main definitions

* `map_eq_map_iff_zip`, `mapIdx_eq_of_zip`: lists that correspond place by place.
* `TypeToken.check_listOf_congr`, `TypeToken.check_dictOf_congr`, `TypeToken.check_record_congr`:
  arrays and objects that are checked alike.
-/

namespace TypedWorkflow

/-! ## Corresponding items and entries -/

section Corresponding

variable {α β : Type} {xs ys : List α}

theorem map_eq_map_iff_zip {f : α → β} :
    xs.map f = ys.map f ↔ xs.length = ys.length ∧ ∀ {x y}, (x, y) ∈ xs.zip ys → f x = f y := by
  rw [← List.forall₂_eq_eq_eq, List.forall₂_map_left_iff, List.forall₂_map_right_iff,
    List.forall₂_iff_zip]

theorem mapIdx_eq_of_zip {f : Nat → α → β} (hlength : xs.length = ys.length)
    (h : ∀ x y, (x, y) ∈ xs.zip ys → ∀ i, f i x = f i y) : xs.mapIdx f = ys.mapIdx f := by
  apply List.ext_getElem
  · simpa using hlength
  · intro i hx hy
    rw [List.length_mapIdx] at hx hy
    have hmem : (xs[i], ys[i]) ∈ xs.zip ys :=
      List.mem_iff_getElem.2 ⟨i, by simpa using ⟨hx, hy⟩, List.getElem_zip⟩
    simpa using h _ _ hmem i

end Corresponding

namespace TypeToken

/-! ## Arrays and objects -/

/-- Arrays are checked alike if their items are, one by one. -/
theorem check_listOf_congr {item : TypeToken} {xs ys : List Json}
    (hlength : xs.length = ys.length)
    (h : ∀ x y, (x, y) ∈ xs.zip ys → ∀ path, item.check x path = item.check y path)
    (path : Path) :
    (TypeToken.listOf item).check (.arr xs) path =
      (TypeToken.listOf item).check (.arr ys) path := by
  rw [check, check, mapIdx_eq_of_zip hlength fun x y hxy i => h x y hxy (path.index i)]

/-- Dictionaries with the same keys in the same order are checked alike if their values are. -/
theorem check_dictOf_congr {key value : TypeToken} {xs ys : Json.Entries}
    (hkeys : xs.map Prod.fst = ys.map Prod.fst)
    (h : ∀ d e, (d, e) ∈ xs.zip ys → ∀ path, value.check d.2 path = value.check e.2 path)
    (path : Path) :
    (TypeToken.dictOf key value).check (.obj xs) path =
      (TypeToken.dictOf key value).check (.obj ys) path := by
  rw [check, check]
  refine congrArg (fun checked => (Checked.all checked).map Json.obj) ?_
  refine map_eq_map_iff_zip.2 ⟨(map_eq_map_iff_zip.1 hkeys).1, fun {d e} hde => ?_⟩
  have hname : d.1 = e.1 := (map_eq_map_iff_zip.1 hkeys).2 hde
  simp only [hname, h d e hde]

/-- Objects are checked alike if their values under each declared name are. -/
theorem checkFields_congr {fields : List (String × TypeToken)} {xs ys : Json.Entries} {path : Path}
    (h : ∀ f ∈ fields, (xs.lookup f.1 = none ∧ ys.lookup f.1 = none) ∨
      ∃ x y, xs.lookup f.1 = some x ∧ ys.lookup f.1 = some y ∧
        f.2.check x (path.field f.1) = f.2.check y (path.field f.1)) :
    checkFields fields xs path = checkFields fields ys path := by
  induction fields with
  | nil => rfl
  | cons f fields ih =>
    obtain ⟨name, type⟩ := f
    obtain ⟨hfield, hfields⟩ := List.forall_mem_cons.1 h
    rw [checkFields, checkFields, ih hfields]
    rcases hfield with ⟨hx, hy⟩ | ⟨x, y, hx, hy, hcheck⟩
    · rw [hx, hy]
    · simp only [hx, hy, hcheck]

theorem check_record_congr {name : String} {fields : List (String × TypeToken)}
    {xs ys : Json.Entries}
    (h : ∀ f ∈ fields, (xs.lookup f.1 = none ∧ ys.lookup f.1 = none) ∨
      ∃ x y, xs.lookup f.1 = some x ∧ ys.lookup f.1 = some y ∧
        ∀ path, f.2.check x path = f.2.check y path) (path : Path) :
    (TypeToken.record name fields).check (.obj xs) path =
      (TypeToken.record name fields).check (.obj ys) path := by
  rw [check, check, checkFields_congr]
  intro f hf
  refine (h f hf).imp_right ?_
  rintro ⟨x, y, hx, hy, hcheck⟩
  exact ⟨x, y, hx, hy, hcheck (path.field f.1)⟩

end TypeToken

end TypedWorkflow
