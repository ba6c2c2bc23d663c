import Mathlib.Data.List.Forall2
import TypedWorkflow.Json.Basic
import TypedWorkflow.Proofs.Entries

/-!
# Equality of JSON values

Values nest through lists of items and of entries, so proofs about them need an induction that
reaches both. Two objects without repeated keys are equal when their entries agree key by key, and
a value in which no object repeats a key is equal to itself. Apart from the comparison stands what
it is for: values are alike when they have one shape, with alike values in corresponding places.
That is an equivalence of all values, and where no object repeats a key it is what the comparison
decides.

## Main definitions

* `Json.ind`: induction on values.
* `Json.equiv_obj_iff`: equality of objects, key by key.
* `Json.equiv_refl`: equality of a value with itself.
* `Json.Alike`, `Json.equiv_iff_alike`: values of one shape, and the comparison of values.
-/

namespace TypedWorkflow

/-! ## Numbers -/

theorem Binary64.sameValue_refl (x : Binary64) : x.sameValue x = true := by
  simp [Binary64.sameValue]

theorem Binary64.sameValue_symm {x y : Binary64} (h : x.sameValue y = true) :
    y.sameValue x = true := by
  simp only [Binary64.sameValue, Bool.or_eq_true, Bool.and_eq_true, beq_iff_eq] at h ⊢
  exact h.imp Eq.symm And.symm

theorem Binary64.sameValue_trans {x y z : Binary64} (h : x.sameValue y = true)
    (h' : y.sameValue z = true) : x.sameValue z = true := by
  simp only [Binary64.sameValue, Bool.or_eq_true, Bool.and_eq_true, beq_iff_eq] at h h' ⊢
  rcases h with rfl | ⟨hx, hy⟩
  · exact h'
  · rcases h' with rfl | ⟨-, hz⟩
    · exact .inr ⟨hx, hy⟩
    · exact .inr ⟨hx, hz⟩

theorem Number.sameValue_refl (n : Number) : n.sameValue n = true := by
  cases n with
  | int i => simp [Number.sameValue]
  | float x => exact x.sameValue_refl

theorem Number.sameValue_symm {m n : Number} (h : m.sameValue n = true) :
    n.sameValue m = true := by
  cases m with
  | int i => cases n <;> simp_all [Number.sameValue]
  | float x =>
    cases n with
    | int j => cases h
    | float y => exact Binary64.sameValue_symm (x := x) h

theorem Number.sameValue_trans {l m n : Number} (h : l.sameValue m = true)
    (h' : m.sameValue n = true) : l.sameValue n = true := by
  cases l with
  | int i => cases m <;> simp_all [Number.sameValue]
  | float x =>
    cases m with
    | int j => cases h
    | float y =>
      cases n with
      | int k => cases h'
      | float z => exact Binary64.sameValue_trans (x := x) h h'

namespace Json

/-- Induction on values: for an array or an object the statement may be assumed of every value
directly inside. -/
@[elab_as_elim, induction_eliminator]
theorem ind {motive : Json → Prop} (null : motive .null) (bool : ∀ b, motive (.bool b))
    (num : ∀ n, motive (.num n)) (str : ∀ s, motive (.str s))
    (arr : ∀ items, (∀ v ∈ items, motive v) → motive (.arr items))
    (obj : ∀ entries, (∀ e ∈ entries, motive e.2) → motive (.obj entries)) (v : Json) :
    motive v := by
  refine @Json.rec motive (fun items => ∀ v ∈ items, motive v)
    (fun entries => ∀ e ∈ entries, motive e.2) (fun e => motive e.2)
    null bool num str arr obj ?_ ?_ ?_ ?_ ?_ v
  · simp
  · intro w items hw hitems
    simpa using ⟨hw, hitems⟩
  · simp
  · intro e entries he hentries u hu
    rcases List.mem_cons.1 hu with rfl | hu
    · exact he
    · exact hentries u hu
  · intro _ w hw
    exact hw

/-! ## Distinct keys -/

theorem distinctItems_iff (items : List Json) : DistinctItems items ↔ ∀ v ∈ items, v.Distinct := by
  induction items with
  | nil => simp [DistinctItems]
  | cons v items ih => simp [DistinctItems, ih]

theorem distinctEntries_iff (entries : Entries) :
    DistinctEntries entries ↔ ∀ e ∈ entries, e.2.Distinct := by
  induction entries with
  | nil => simp [DistinctEntries]
  | cons e entries ih => simp [DistinctEntries, ih]

theorem distinct_arr_iff (items : List Json) :
    (Json.arr items).Distinct ↔ ∀ v ∈ items, v.Distinct := by
  rw [Distinct, distinctItems_iff]

theorem distinct_obj_iff (entries : Entries) :
    (Json.obj entries).Distinct ↔
      (entries.map Prod.fst).Nodup ∧ ∀ e ∈ entries, e.2.Distinct := by
  rw [Distinct, distinctEntries_iff]

theorem Distinct.of_lookup {entries : Entries} (h : (Json.obj entries).Distinct) {key : String}
    {v : Json} (hv : entries.lookup key = some v) : v.Distinct :=
  ((distinct_obj_iff entries).1 h).2 _ (Entries.mem_of_lookup_eq_some hv)

/-! ## Equality -/

theorem equivItems_iff (xs ys : List Json) :
    equivItems xs ys = true ↔ List.Forall₂ (fun x y => x.equiv y = true) xs ys := by
  induction xs generalizing ys with
  | nil => cases ys <;> simp [equivItems]
  | cons x xs ih => cases ys <;> simp [equivItems, ih]

theorem equivEntries_iff (xs ys : Entries) :
    equivEntries xs ys = true ↔
      ∀ e ∈ xs, ∃ y, ys.lookup e.1 = some y ∧ e.2.equiv y = true := by
  induction xs with
  | nil => simp [equivEntries]
  | cons e xs ih =>
    obtain ⟨k, x⟩ := e
    simp only [equivEntries, Bool.and_eq_true, ih, List.forall_mem_cons]
    refine and_congr_left fun _ => ?_
    cases ys.lookup k <;> simp

theorem exists_of_equiv_num {m : Number} {w : Json} (h : (Json.num m).equiv w = true) :
    ∃ n, w = .num n ∧ m.sameValue n = true := by
  cases w <;> simp_all [equiv]

theorem exists_of_equiv_arr {xs : List Json} {w : Json} (h : (Json.arr xs).equiv w = true) :
    ∃ ys, w = .arr ys := by
  cases w <;> simp_all [equiv]

theorem exists_of_equiv_obj {xs : Entries} {w : Json} (h : (Json.obj xs).equiv w = true) :
    ∃ ys, w = .obj ys := by
  cases w <;> simp_all [equiv]

theorem equiv_arr_iff (xs ys : List Json) :
    (Json.arr xs).equiv (.arr ys) = true ↔ List.Forall₂ (fun x y => x.equiv y = true) xs ys := by
  rw [equiv, equivItems_iff]

/-- Objects without repeated keys are equal when they hold equal values under the same keys. -/
theorem equiv_obj_iff {xs ys : Entries} (hxs : (xs.map Prod.fst).Nodup)
    (hys : (ys.map Prod.fst).Nodup) :
    (Json.obj xs).equiv (.obj ys) = true ↔
      Entries.Agree (fun x y => x.equiv y = true) xs ys := by
  rw [Entries.agree_iff hxs hys, equiv, Bool.and_eq_true, beq_iff_eq, equivEntries_iff]

theorem equiv_refl {v : Json} (h : v.Distinct) : v.equiv v = true := by
  induction v with
  | null => rfl
  | bool b => simp [equiv]
  | num n => exact n.sameValue_refl
  | str s => simp [equiv]
  | arr items ih =>
    rw [equiv_arr_iff, List.forall₂_same]
    intro v hv
    exact ih v hv ((distinct_arr_iff items).1 h v hv)
  | obj entries ih =>
    obtain ⟨hkeys, hvalues⟩ := (distinct_obj_iff entries).1 h
    rw [equiv_obj_iff hkeys hkeys, Entries.agree_iff hkeys hkeys]
    refine ⟨rfl, ?_⟩
    intro e he
    exact ⟨e.2, Entries.lookup_eq_some_of_mem hkeys he, ih e he (hvalues e he)⟩

/-! ## Shape -/

/-- Values of one shape: numbers of the same value, arrays with alike items in each place, objects
with alike values under the same keys. -/
inductive Alike : Json → Json → Prop
  | null : Alike .null .null
  | bool (b : Bool) : Alike (.bool b) (.bool b)
  | num {m n : Number} (h : m.sameValue n = true) : Alike (.num m) (.num n)
  | str (s : String) : Alike (.str s) (.str s)
  | arr {xs ys : List Json} (hlength : xs.length = ys.length)
      (hitems : ∀ i (hx : i < xs.length) (hy : i < ys.length), Alike xs[i] ys[i]) :
      Alike (.arr xs) (.arr ys)
  | obj {xs ys : Entries} (e : Fin xs.length ≃ Fin ys.length) (hkeys : ∀ i, xs[i].1 = ys[e i].1)
      (hvalues : ∀ i : Fin xs.length, Alike xs[i].2 ys[e i].2) :
      Alike (.obj xs) (.obj ys)

theorem alike_arr_iff {xs ys : List Json} :
    (Json.arr xs).Alike (.arr ys) ↔ List.Forall₂ Alike xs ys := by
  rw [List.forall₂_iff_get]
  constructor
  · rintro (_ | _ | _ | _ | ⟨hlength, hitems⟩)
    exact ⟨hlength, hitems⟩
  · rintro ⟨hlength, hitems⟩
    exact .arr hlength hitems

theorem alike_obj_iff {xs ys : Entries} :
    (Json.obj xs).Alike (.obj ys) ↔ TypedWorkflow.Entries.Matched Alike xs ys := by
  constructor
  · rintro (_ | _ | _ | _ | _ | ⟨e, hkeys, hvalues⟩)
    exact ⟨e, fun i => ⟨hkeys i, hvalues i⟩⟩
  · rintro ⟨e, he⟩
    exact .obj e (fun i => (he i).1) fun i => (he i).2

theorem Alike.refl (v : Json) : v.Alike v := by
  induction v with
  | null => exact .null
  | bool b => exact .bool b
  | num n => exact .num n.sameValue_refl
  | str s => exact .str s
  | arr items ih => exact alike_arr_iff.2 (List.forall₂_same.2 ih)
  | obj entries ih => exact alike_obj_iff.2 (.refl ih)

theorem Alike.symm {v w : Json} (h : v.Alike w) : w.Alike v := by
  induction h with
  | null => exact .null
  | bool b => exact .bool b
  | num h => exact .num (Number.sameValue_symm h)
  | str s => exact .str s
  | arr hlength _ ih => exact .arr hlength.symm fun i hy hx => ih i hx hy
  | @obj xs ys e hkeys _ ih =>
    have hmatched : TypedWorkflow.Entries.Matched (fun x y => y.Alike x) xs ys :=
      ⟨e, fun i => ⟨hkeys i, ih i⟩⟩
    exact alike_obj_iff.2 hmatched.symm

theorem Alike.trans {u v w : Json} (h : u.Alike v) (h' : v.Alike w) : u.Alike w := by
  induction h generalizing w with
  | null => exact h'
  | bool b => exact h'
  | num h =>
    cases h' with
    | num h' => exact .num (Number.sameValue_trans h h')
  | str s => exact h'
  | arr hlength _ ih =>
    cases h' with
    | arr hlength' hitems' =>
      exact .arr (hlength.trans hlength') fun i hx hz =>
        ih i hx (hlength ▸ hx) (hitems' i (hlength ▸ hx) hz)
  | @obj xs ys e hkeys _ ih =>
    cases h' with
    | obj e' hkeys' hvalues' =>
      have hmatched : TypedWorkflow.Entries.Matched (fun x y => ∀ w, y.Alike w → x.Alike w) xs ys :=
        ⟨e, fun i => ⟨hkeys i, fun _ => ih i⟩⟩
      have hmatched' : TypedWorkflow.Entries.Matched Alike ys _ :=
        ⟨e', fun i => ⟨hkeys' i, hvalues' i⟩⟩
      exact alike_obj_iff.2 (hmatched.trans hmatched' fun _ _ _ hx hy => hx _ hy)

/-- The comparison of values decides whether they are alike. -/
theorem equiv_iff_alike {v w : Json} (hv : v.Distinct) (hw : w.Distinct) :
    v.equiv w = true ↔ v.Alike w := by
  induction v generalizing w with
  | null => cases w <;> first | exact ⟨fun _ => .null, fun _ => rfl⟩ | exact ⟨nofun, nofun⟩
  | bool b =>
    cases w with
    | bool c => exact ⟨fun h => beq_iff_eq.1 h ▸ .bool b, by rintro ⟨⟩; exact beq_self_eq_true b⟩
    | _ => exact ⟨nofun, nofun⟩
  | num m =>
    cases w with
    | num n => exact ⟨.num, by rintro ⟨⟩; assumption⟩
    | _ => exact ⟨nofun, nofun⟩
  | str s =>
    cases w with
    | str t => exact ⟨fun h => beq_iff_eq.1 h ▸ .str s, by rintro ⟨⟩; exact beq_self_eq_true s⟩
    | _ => exact ⟨nofun, nofun⟩
  | arr xs ih =>
    cases w with
    | arr ys =>
      rw [distinct_arr_iff] at hv hw
      rw [equiv_arr_iff, alike_arr_iff, List.forall₂_iff_get, List.forall₂_iff_get]
      refine and_congr_right fun _ => forall_congr' fun i => forall₂_congr fun hx hy => ?_
      exact ih _ (List.get_mem xs _) (hv _ (List.get_mem xs _)) (hw _ (List.get_mem ys _))
    | _ => exact ⟨nofun, nofun⟩
  | obj xs ih =>
    cases w with
    | obj ys =>
      obtain ⟨hxkeys, hxvalues⟩ := (distinct_obj_iff xs).1 hv
      obtain ⟨hykeys, hyvalues⟩ := (distinct_obj_iff ys).1 hw
      rw [equiv_obj_iff hxkeys hykeys, TypedWorkflow.Entries.agree_iff_matched hxkeys hykeys,
        alike_obj_iff]
      exact TypedWorkflow.Entries.matched_congr fun x hx y hy =>
        ih x hx (hxvalues x hx) (hyvalues y hy)
    | _ => exact ⟨nofun, nofun⟩

end Json

end TypedWorkflow
