import TypedWorkflow.Proofs.Json.Equality
import TypedWorkflow.Proofs.Schema.Token

/-!
# Equality of types

Two types are alike when they have one structure: the same name without arguments, lists and
dictionaries of alike types, or records with a bijection between their fields that keeps the names
and leads to alike types. This is an equivalence of all types. The comparison only looks up each
field of the first record in the second, which finds out the same for types in which no record
declares a name twice; so on them it is an equivalence too.

## Main definitions

* `TypeToken.Alike`: types of one structure.
* `TypeToken.same_iff_alike`: the comparison decides it.
* `TypeToken.same_refl`, `TypeToken.same_symm`, `TypeToken.same_trans`: so it is an equivalence.
* `RecordType.same_iff_matched`: equal record types have matching fields.
-/

namespace TypedWorkflow

namespace TypeToken

/-! ## Structure -/

/-- Types of one structure. The names of records and the order of their fields do not matter. -/
inductive Alike : TypeToken → TypeToken → Prop
  | int : Alike .int .int
  | float : Alike .float .float
  | str : Alike .str .str
  | bool : Alike .bool .bool
  | any : Alike .any .any
  | list : Alike .list .list
  | listOf {a b : TypeToken} (h : Alike a b) : Alike (.listOf a) (.listOf b)
  | dict : Alike .dict .dict
  | dictOf {k l a b : TypeToken} (hkey : Alike k l) (hvalue : Alike a b) :
      Alike (.dictOf k a) (.dictOf l b)
  | record {m n : String} {fs gs : List (String × TypeToken)}
      (e : Fin fs.length ≃ Fin gs.length) (hnames : ∀ i, fs[i].1 = gs[e i].1)
      (htypes : ∀ i : Fin fs.length, Alike fs[i].2 gs[e i].2) :
      Alike (.record m fs) (.record n gs)

theorem alike_record_iff {m n : String} {fs gs : List (String × TypeToken)} :
    (TypeToken.record m fs).Alike (.record n gs) ↔ Entries.Matched Alike fs gs := by
  constructor
  · rintro (_ | _ | _ | _ | _ | _ | _ | _ | _ | ⟨e, hnames, htypes⟩)
    exact ⟨e, fun i => ⟨hnames i, htypes i⟩⟩
  · rintro ⟨e, he⟩
    exact .record e (fun i => (he i).1) fun i => (he i).2

theorem Alike.refl (t : TypeToken) : t.Alike t := by
  induction t with
  | listOf item ih => exact .listOf ih
  | dictOf key value ihkey ihvalue => exact .dictOf ihkey ihvalue
  | record name fields ih => exact alike_record_iff.2 (.refl ih)
  | _ => constructor

theorem Alike.symm {t u : TypeToken} (h : t.Alike u) : u.Alike t := by
  induction h with
  | listOf _ ih => exact .listOf ih
  | dictOf _ _ ihkey ihvalue => exact .dictOf ihkey ihvalue
  | @record m n fs gs e hnames _ ih =>
    have hmatched : Entries.Matched (fun s t => t.Alike s) fs gs :=
      ⟨e, fun i => ⟨hnames i, ih i⟩⟩
    exact alike_record_iff.2 hmatched.symm
  | _ => constructor

theorem Alike.trans {s t u : TypeToken} (h : s.Alike t) (h' : t.Alike u) : s.Alike u := by
  induction h generalizing u with
  | listOf _ ih =>
    cases h' with
    | listOf h' => exact .listOf (ih h')
  | dictOf _ _ ihkey ihvalue =>
    cases h' with
    | dictOf hkey' hvalue' => exact .dictOf (ihkey hkey') (ihvalue hvalue')
  | @record m n fs gs e hnames _ ih =>
    cases h' with
    | record e' hnames' htypes' =>
      have hmatched : Entries.Matched (fun s t => ∀ u, t.Alike u → s.Alike u) fs gs :=
        ⟨e, fun i => ⟨hnames i, fun _ => ih i⟩⟩
      have hmatched' : Entries.Matched Alike gs _ := ⟨e', fun i => ⟨hnames' i, htypes' i⟩⟩
      exact alike_record_iff.2 (hmatched.trans hmatched' fun _ _ _ hs ht => hs _ ht)
  | _ => exact h'

/-! ## The comparison -/

/-- The comparison of types decides whether they are alike. -/
theorem same_iff_alike {t u : TypeToken} (ht : t.Distinct) (hu : u.Distinct) :
    t.same u = true ↔ t.Alike u := by
  induction t generalizing u with
  | listOf item ih =>
    cases u with
    | listOf other =>
      rw [same, ih (u := other) ht hu]
      refine ⟨.listOf, ?_⟩
      rintro (_ | _ | _ | _ | _ | _ | h)
      exact h
    | _ => constructor <;> intro h <;> cases h
  | dictOf key value ihkey ihvalue =>
    cases u with
    | dictOf k v =>
      rw [same, Bool.and_eq_true, ihkey (u := k) ht.1 hu.1, ihvalue (u := v) ht.2 hu.2]
      refine ⟨fun h => .dictOf h.1 h.2, ?_⟩
      rintro (_ | _ | _ | _ | _ | _ | _ | _ | ⟨hkey, hvalue⟩)
      exact ⟨hkey, hvalue⟩
    | _ => constructor <;> intro h <;> cases h
  | record name fields ih =>
    cases u with
    | record other others =>
      obtain ⟨hnames, htypes⟩ := (distinct_record_iff name fields).1 ht
      obtain ⟨hothernames, hothertypes⟩ := (distinct_record_iff other others).1 hu
      rw [same_record_iff hnames hothernames, Entries.agree_iff_matched hnames hothernames,
        alike_record_iff]
      exact Entries.matched_congr fun f hf g hg => ih f hf (htypes f hf) (hothertypes g hg)
    | _ => constructor <;> intro h <;> cases h
  | _ =>
    -- types without arguments are alike if they are the same
    cases u <;> constructor <;> intro h <;> first | (cases h; done) | constructor

theorem same_refl {t : TypeToken} (ht : t.Distinct) : t.same t = true :=
  (same_iff_alike ht ht).2 (.refl t)

theorem same_symm {t u : TypeToken} (ht : t.Distinct) (hu : u.Distinct) (h : t.same u = true) :
    u.same t = true :=
  (same_iff_alike hu ht).2 ((same_iff_alike ht hu).1 h).symm

theorem same_trans {s t u : TypeToken} (hs : s.Distinct) (ht : t.Distinct) (hu : u.Distinct)
    (h : s.same t = true) (h' : t.same u = true) : s.same u = true :=
  (same_iff_alike hs hu).2 (((same_iff_alike hs ht).1 h).trans ((same_iff_alike ht hu).1 h'))

end TypeToken

/-! ## Record types -/

namespace RecordType

/-- Equal record types have matching fields of equal types. -/
theorem same_iff_matched {T U : RecordType} (hT : T.WellFormed) (hU : U.WellFormed) :
    T.same U = true ↔
      Entries.Matched (fun t u => t.same u = true) T.schema.fields U.schema.fields := by
  rw [same, token, token, TypeToken.same_record_iff hT.nodup_names hU.nodup_names,
    Entries.agree_iff_matched hT.nodup_names hU.nodup_names]

/-- Record types with the same fields in another order are equal. -/
theorem same_of_perm {T U : RecordType} (hT : T.WellFormed)
    (h : T.schema.fields.Perm U.schema.fields) : T.same U = true := by
  obtain ⟨hnames, htypes⟩ := (TypeToken.distinct_record_iff _ _).1 hT
  rw [same, token, token,
    TypeToken.same_record_iff hnames ((h.map Prod.fst).nodup_iff.1 hnames)]
  exact .of_perm (fun f hf => TypeToken.same_refl (htypes f hf)) hnames h

end RecordType

end TypedWorkflow
