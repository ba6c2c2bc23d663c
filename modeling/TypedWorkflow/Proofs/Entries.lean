import Mathlib.Data.List.Perm.Subperm
import Mathlib.Data.List.Nodup
import Mathlib.Data.List.NodupEquivFin

/-!
# Lists of named things

The fields of a record type and the entries of an object are lists of named things, and both are
read by looking up a name. Lists in which no name is repeated are determined by their look-ups up
to order, so two of them match, name by name, exactly when they are equally long and every entry of
one has its match in the other.

## Main definitions

* `Entries.Agree`: a relation between the things of each name.
* `Entries.agree_iff`: how agreement is checked on the lists.
* `Entries.Matched`, `Entries.agree_iff_matched`: agreement as a bijection between the entries.
-/

namespace TypedWorkflow.Entries

variable {α β : Type}

/-! ## Look-up -/

theorem mem_of_lookup_eq_some {es : List (String × α)} {name : String} {a : α}
    (h : es.lookup name = some a) : (name, a) ∈ es := by
  obtain ⟨before, after, rfl, -⟩ := List.lookup_eq_some_iff.1 h
  simp

theorem lookup_eq_some_of_mem {es : List (String × α)} (hes : (es.map Prod.fst).Nodup)
    {name : String} {a : α} (h : (name, a) ∈ es) : es.lookup name = some a := by
  induction es with
  | nil => simp at h
  | cons e es ih =>
    obtain ⟨hhead, htail⟩ := List.nodup_cons.1 hes
    rcases List.mem_cons.1 h with rfl | h
    · simp
    · have hne : name ≠ e.1 := by
        rintro rfl
        exact hhead (List.mem_map.2 ⟨_, h, rfl⟩)
      rw [List.lookup_cons, beq_false_of_ne hne]
      exact ih htail h

theorem lookup_isSome_iff_mem {es : List (String × α)} {name : String} :
    (∃ a, es.lookup name = some a) ↔ name ∈ es.map Prod.fst := by
  constructor
  · rintro ⟨a, h⟩
    exact List.mem_map.2 ⟨_, mem_of_lookup_eq_some h, rfl⟩
  · intro h
    cases hl : es.lookup name with
    | some a => exact ⟨a, rfl⟩
    | none =>
      obtain ⟨e, he, rfl⟩ := List.mem_map.1 h
      simpa using List.lookup_eq_none_iff.1 hl e he

theorem isSome_lookup_iff {es : List (String × α)} {name : String} :
    (es.lookup name).isSome = true ↔ name ∈ es.map Prod.fst := by
  rw [Option.isSome_iff_exists]
  exact lookup_isSome_iff_mem

theorem lookup_eq_some_iff {es : List (String × α)} (hes : (es.map Prod.fst).Nodup)
    {name : String} {a : α} : es.lookup name = some a ↔ (name, a) ∈ es :=
  ⟨mem_of_lookup_eq_some, lookup_eq_some_of_mem hes⟩

/-- Lists without repeated names in which the same is found have the same entries. -/
theorem perm_of_lookup_eq {xs ys : List (String × α)} (hxs : (xs.map Prod.fst).Nodup)
    (hys : (ys.map Prod.fst).Nodup) (h : ∀ name, xs.lookup name = ys.lookup name) : xs.Perm ys := by
  refine (List.perm_ext_iff_of_nodup hxs.of_map hys.of_map).2 fun e => ?_
  rw [← lookup_eq_some_iff hxs, ← lookup_eq_some_iff hys, h]

/-- Things that some of the elements give, under names of the elements, repeat no name that the
elements do not repeat. -/
theorem names_filterMap_sublist (name : α → String) (f : α → Option β) (xs : List α) :
    ((xs.filterMap fun x => (f x).map fun b => (name x, b)).map Prod.fst).Sublist
      (xs.map name) := by
  induction xs with
  | nil => exact .slnil
  | cons x rest ih =>
    cases h : f x with
    | none => simpa [h] using ih.cons (name x)
    | some b => simpa [h] using ih

/-- Changing the things but not their names changes what is found, not whether it is. -/
theorem lookup_map (f : String → α → β) (es : List (String × α)) (name : String) :
    (es.map fun e => (e.1, f e.1 e.2)).lookup name = (es.lookup name).map (f name) := by
  induction es with
  | nil => rfl
  | cons e es ih =>
    obtain ⟨other, a⟩ := e
    by_cases h : name = other
    · subst h
      simp
    · simp [List.lookup_cons, beq_false_of_ne h, ih]

theorem names_map (f : String → α → β) (es : List (String × α)) :
    (es.map fun e => (e.1, f e.1 e.2)).map Prod.fst = es.map Prod.fst := by
  rw [List.map_map]
  rfl

/-- What the entries give can be had from the names, by looking each of them up. -/
theorem flatMap_eq_flatMap_names {es : List (String × α)} (hes : (es.map Prod.fst).Nodup)
    (f : String → α → List β) :
    (es.flatMap fun e => f e.1 e.2) =
      (es.map Prod.fst).flatMap fun name => ((es.lookup name).map (f name)).getD [] := by
  rw [List.flatMap_map]
  refine List.flatMap_congr fun e he => ?_
  rw [lookup_eq_some_of_mem hes he]
  rfl

/-- The names of things that are given by their names. -/
theorem names_tabulate (f : String → α) (names : List String) :
    (names.map fun name => (name, f name)).map Prod.fst = names := by
  simp [Function.comp_def]

theorem lookup_tabulate (f : String → α) {names : List String} {name : String}
    (h : name ∈ names) : (names.map fun name => (name, f name)).lookup name = some (f name) := by
  induction names with
  | nil => simp at h
  | cons other names ih =>
    by_cases heq : name = other
    · subst heq
      simp
    · rw [List.map_cons, List.lookup_cons, beq_false_of_ne heq]
      exact ih ((List.mem_cons.1 h).resolve_left heq)

theorem notMem_of_nodup {before after : List String} {name : String}
    (h : (before ++ name :: after).Nodup) : name ∉ before := by
  intro hmem
  exact (List.nodup_cons.1 (List.nodup_middle.1 h)).1 (List.mem_append_left after hmem)

theorem nodup_names_append {es : List (String × α)} (hes : (es.map Prod.fst).Nodup)
    {name : String} (h : name ∉ es.map Prod.fst) (a : α) :
    ((es ++ [(name, a)]).map Prod.fst).Nodup := by
  rw [List.map_append, List.map_singleton, ← List.concat_eq_append]
  exact List.Nodup.concat h hes

/-! ## Agreement -/

/-- Both lists have the same names, with related things under each. -/
def Agree (R : α → β → Prop) (xs : List (String × α)) (ys : List (String × β)) : Prop :=
  ∀ name, Option.Rel R (xs.lookup name) (ys.lookup name)

theorem Agree.of_some {R : α → β → Prop} {xs : List (String × α)} {ys : List (String × β)}
    (h : Agree R xs ys) {name : String} {a : α} (ha : xs.lookup name = some a) :
    ∃ b, ys.lookup name = some b ∧ R a b := by
  have hname := h name
  rw [ha] at hname
  cases hb : ys.lookup name with
  | none => rw [hb] at hname; cases hname
  | some b =>
    rw [hb] at hname
    cases hname with
    | some hab => exact ⟨b, rfl, hab⟩

theorem Agree.flip {R : α → β → Prop} {xs : List (String × α)} {ys : List (String × β)}
    (h : Agree R xs ys) : Agree (fun b a => R a b) ys xs := by
  intro name
  have hname := h name
  generalize xs.lookup name = x at hname ⊢
  generalize ys.lookup name = y at hname ⊢
  cases hname with
  | some hab => exact .some hab
  | none => exact .none

theorem Agree.names_subset {R : α → β → Prop} {xs : List (String × α)} {ys : List (String × β)}
    (h : Agree R xs ys) : xs.map Prod.fst ⊆ ys.map Prod.fst := by
  intro name hname
  obtain ⟨a, ha⟩ := lookup_isSome_iff_mem.2 hname
  obtain ⟨b, hb, -⟩ := h.of_some ha
  exact lookup_isSome_iff_mem.1 ⟨b, hb⟩

theorem Agree.perm_names {R : α → β → Prop} {xs : List (String × α)} {ys : List (String × β)}
    (h : Agree R xs ys) (hxs : (xs.map Prod.fst).Nodup) (hys : (ys.map Prod.fst).Nodup) :
    (xs.map Prod.fst).Perm (ys.map Prod.fst) :=
  (List.subperm_of_subset hxs h.names_subset).antisymm
    (List.subperm_of_subset hys h.flip.names_subset)

/-- Things that agree still do when each is changed along with its counterpart. -/
theorem Agree.map {γ δ : Type} {R : α → β → Prop} {S : γ → δ → Prop} {xs : List (String × α)}
    {ys : List (String × β)} (h : Agree R xs ys) (f : String → α → γ) (g : String → β → δ)
    (hfg : ∀ name a b, (name, a) ∈ xs → (name, b) ∈ ys → R a b → S (f name a) (g name b)) :
    Agree S (xs.map fun e => (e.1, f e.1 e.2)) (ys.map fun e => (e.1, g e.1 e.2)) := by
  intro name
  rw [lookup_map, lookup_map]
  have hname := h name
  cases ha : xs.lookup name with
  | none =>
    rw [ha] at hname
    generalize ys.lookup name = y at hname ⊢
    cases hname
    exact .none
  | some a =>
    obtain ⟨b, hb, hab⟩ := h.of_some ha
    rw [hb]
    exact .some (hfg name a b (mem_of_lookup_eq_some ha) (mem_of_lookup_eq_some hb) hab)

/-- Lists that things and their counterparts give, each up to order, make up lists that are the same
up to order. -/
theorem Agree.flatMap_perm {γ : Type} {R : α → β → Prop} {xs : List (String × α)}
    {ys : List (String × β)} (h : Agree R xs ys) (hxs : (xs.map Prod.fst).Nodup)
    (hys : (ys.map Prod.fst).Nodup) (f : String → α → List γ) (g : String → β → List γ)
    (hfg : ∀ name a b, (name, a) ∈ xs → (name, b) ∈ ys → R a b → (f name a).Perm (g name b)) :
    (xs.flatMap fun e => f e.1 e.2).Perm (ys.flatMap fun e => g e.1 e.2) := by
  rw [flatMap_eq_flatMap_names hxs f, flatMap_eq_flatMap_names hys g]
  refine (h.perm_names hxs hys).flatMap fun name hname => ?_
  obtain ⟨a, ha⟩ := lookup_isSome_iff_mem.2 hname
  obtain ⟨b, hb, hab⟩ := h.of_some ha
  rw [ha, hb]
  exact hfg name a b (mem_of_lookup_eq_some ha) (mem_of_lookup_eq_some hb) hab

/-- Agreement as it is computed: by the lengths and a look-up for each entry of the first list. -/
theorem agree_iff {R : α → β → Prop} {xs : List (String × α)} {ys : List (String × β)}
    (hxs : (xs.map Prod.fst).Nodup) (hys : (ys.map Prod.fst).Nodup) :
    Agree R xs ys ↔
      xs.length = ys.length ∧ ∀ e ∈ xs, ∃ b, ys.lookup e.1 = some b ∧ R e.2 b := by
  constructor
  · intro h
    refine ⟨by simpa using (h.perm_names hxs hys).length_eq, ?_⟩
    intro e he
    exact h.of_some (lookup_eq_some_of_mem hxs he)
  · rintro ⟨hlength, h⟩ name
    have hsub : xs.map Prod.fst ⊆ ys.map Prod.fst := by
      intro n hn
      obtain ⟨e, he, rfl⟩ := List.mem_map.1 hn
      obtain ⟨b, hb, -⟩ := h e he
      exact lookup_isSome_iff_mem.1 ⟨b, hb⟩
    -- as many distinct names on both sides, so those of the second list are no others
    have hperm : (xs.map Prod.fst).Perm (ys.map Prod.fst) :=
      (List.subperm_of_subset hxs hsub).perm_of_length_le (by simp [hlength])
    cases ha : xs.lookup name with
    | some a =>
      obtain ⟨b, hb, hab⟩ := h _ (mem_of_lookup_eq_some ha)
      rw [hb]
      exact .some hab
    | none =>
      cases hb : ys.lookup name with
      | none => exact .none
      | some b =>
        have hmem := hperm.mem_iff.2 (lookup_isSome_iff_mem.1 ⟨b, hb⟩)
        obtain ⟨a, ha'⟩ := lookup_isSome_iff_mem.2 hmem
        rw [ha] at ha'
        cases ha'

/-- A list agrees with itself in another order. -/
theorem Agree.of_perm {R : α → α → Prop} {xs ys : List (String × α)} (hR : ∀ e ∈ xs, R e.2 e.2)
    (hxs : (xs.map Prod.fst).Nodup) (h : xs.Perm ys) : Agree R xs ys := by
  have hys : (ys.map Prod.fst).Nodup := (h.map Prod.fst).nodup_iff.1 hxs
  refine (agree_iff hxs hys).2 ⟨h.length_eq, ?_⟩
  intro e he
  exact ⟨e.2, lookup_eq_some_of_mem hys (h.mem_iff.1 he), hR e he⟩

/-! ## Bijections -/

/-- A bijection between the entries of two lists that leads from each entry to one of the same name
with a related thing. -/
def Matched (R : α → β → Prop) (xs : List (String × α)) (ys : List (String × β)) : Prop :=
  ∃ e : Fin xs.length ≃ Fin ys.length, ∀ i, xs[i].1 = ys[e i].1 ∧ R xs[i].2 ys[e i].2

theorem Matched.refl {R : α → α → Prop} {xs : List (String × α)} (h : ∀ e ∈ xs, R e.2 e.2) :
    Matched R xs xs :=
  ⟨Equiv.refl _, fun i => ⟨rfl, h xs[i] (List.getElem_mem i.2)⟩⟩

theorem Matched.symm {R : α → β → Prop} {xs : List (String × α)} {ys : List (String × β)}
    (h : Matched R xs ys) : Matched (fun b a => R a b) ys xs := by
  obtain ⟨e, he⟩ := h
  refine ⟨e.symm, fun i => ?_⟩
  obtain ⟨i, rfl⟩ := e.surjective i
  simpa using ⟨(he i).1.symm, (he i).2⟩

theorem Matched.trans {γ : Type} {R : α → β → Prop} {S : β → γ → Prop} {T : α → γ → Prop}
    {xs : List (String × α)} {ys : List (String × β)} {zs : List (String × γ)}
    (h : Matched R xs ys) (h' : Matched S ys zs) (hT : ∀ a b c, R a b → S b c → T a c) :
    Matched T xs zs := by
  obtain ⟨e, he⟩ := h
  obtain ⟨e', he'⟩ := h'
  refine ⟨e.trans e', fun i => ?_⟩
  obtain ⟨hname, hrel⟩ := he i
  obtain ⟨hname', hrel'⟩ := he' (e i)
  exact ⟨hname.trans hname', hT _ _ _ hrel hrel'⟩

theorem matched_congr {R S : α → β → Prop} {xs : List (String × α)} {ys : List (String × β)}
    (h : ∀ x ∈ xs, ∀ y ∈ ys, (R x.2 y.2 ↔ S x.2 y.2)) : Matched R xs ys ↔ Matched S xs ys := by
  refine exists_congr fun e => forall_congr' fun i => and_congr_right fun _ => ?_
  exact h _ (List.getElem_mem i.2) _ (List.getElem_mem (e i).2)

/-- The entries of two lists without repeated names match if the names do. -/
theorem exists_equiv_of_perm {xs : List (String × α)} {ys : List (String × β)}
    (hxs : (xs.map Prod.fst).Nodup) (hys : (ys.map Prod.fst).Nodup)
    (h : (xs.map Prod.fst).Perm (ys.map Prod.fst)) :
    ∃ e : Fin xs.length ≃ Fin ys.length, ∀ i, xs[i].1 = ys[e i].1 := by
  obtain ⟨names, hnames⟩ : ∃ names : {name // name ∈ xs.map Prod.fst} ≃
      {name // name ∈ ys.map Prod.fst}, ∀ name, (names name).1 = name.1 :=
    ⟨Equiv.subtypeEquivRight fun _ => h.mem_iff, fun _ => rfl⟩
  refine ⟨((((finCongr (List.length_map _).symm).trans (hxs.getEquiv _)).trans names).trans
    (hys.getEquiv _).symm).trans (finCongr (List.length_map _)), ?_⟩
  intro i
  have hmem : xs[i].1 ∈ ys.map Prod.fst :=
    h.mem_iff.1 (List.mem_map.2 ⟨xs[i], List.getElem_mem _, rfl⟩)
  have hfound := List.getElem_idxOf (List.idxOf_lt_length_of_mem hmem)
  rw [List.getElem_map] at hfound
  simpa [hnames] using hfound.symm

/-- Lists without repeated names agree exactly if their entries match. -/
theorem agree_iff_matched {R : α → β → Prop} {xs : List (String × α)} {ys : List (String × β)}
    (hxs : (xs.map Prod.fst).Nodup) (hys : (ys.map Prod.fst).Nodup) :
    Agree R xs ys ↔ Matched R xs ys := by
  constructor
  · intro h
    obtain ⟨e, he⟩ := exists_equiv_of_perm hxs hys (h.perm_names hxs hys)
    refine ⟨e, fun i => ⟨he i, ?_⟩⟩
    obtain ⟨b, hb, hab⟩ := h.of_some (lookup_eq_some_of_mem hxs (List.getElem_mem i.2))
    have hpartner : (xs[i].1, ys[e i].2) ∈ ys := by
      rw [he i]
      exact List.getElem_mem (e i).2
    obtain rfl := Option.some.inj (hb.symm.trans (lookup_eq_some_of_mem hys hpartner))
    exact hab
  · rintro ⟨e, he⟩
    refine (agree_iff hxs hys).2 ⟨Fin.equiv_iff_eq.1 ⟨e⟩, ?_⟩
    intro x hx
    obtain ⟨i, hi, rfl⟩ := List.getElem_of_mem hx
    obtain ⟨hname, hrel⟩ := he ⟨i, hi⟩
    refine ⟨_, lookup_eq_some_of_mem hys ?_, hrel⟩
    rw [show xs[i].1 = _ from hname]
    exact List.getElem_mem (e ⟨i, hi⟩).2

end TypedWorkflow.Entries
