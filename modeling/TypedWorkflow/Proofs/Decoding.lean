import TypedWorkflow.Decoding
import TypedWorkflow.Proofs.Json.Document

/-!
# Decoding what has been written

A record is written as an object with some of its fields in declaration order. Such an object gives
a decoder no reason to stop at a key: none is unknown, repeated or missing. So the record that is
read depends on the values alone, which are read one after the other.

Whatever the document, what holds of a record before it is read and is kept by reading each field
holds of the record that is read.

## Main definitions

* `Decode.Reads`: where reading the values of an object one after the other leads.
* `Decode.record_ofJson`: reading an object whose keys are in declaration order.
* `Decode.list_ofJson`, `Decode.object_ofJson`, `Decode.optional_ofJson`: reading simple types.
* `Decode.record_invariant`: what reading the fields keeps.
-/

namespace TypedWorkflow.Decode

/-! ## Simple types -/

theorem object_ofJson {entries : Json.Entries} (h : (Json.obj entries).Distinct) :
    object (Document.ofJson (.obj entries)) = .ok entries := by
  have hread := Document.toJson_ofJson h
  rw [Document.ofJson] at hread ⊢
  rw [object, hread]
  rfl

theorem optional_ofJson {α : Type} {decode : Document → Decoded α} {v : Json} {a : α}
    (hv : v ≠ .null) (h : decode (Document.ofJson v) = .ok a) :
    optional decode (Document.ofJson v) = .ok (some a) := by
  rw [optional, h]
  cases v with
  | null => exact absurd rfl hv
  | _ => rfl

theorem items_ofJson {α : Type} {decode : Document → Decoded α} {toJson : α → Json} {as : List α}
    (h : ∀ a ∈ as, decode (Document.ofJson (toJson a)) = .ok a) :
    items decode (Document.ofJsonItems (as.map toJson)) = .ok as := by
  induction as with
  | nil => rfl
  | cons a rest ih =>
    obtain ⟨ha, hrest⟩ := List.forall_mem_cons.1 h
    rw [List.map_cons, Document.ofJsonItems, items, ha, ih hrest]
    rfl

theorem list_ofJson {α : Type} {decode : Document → Decoded α} {toJson : α → Json} {as : List α}
    (h : ∀ a ∈ as, decode (Document.ofJson (toJson a)) = .ok a) :
    list decode (Document.ofJson (.arr (as.map toJson))) = .ok as := by
  rw [Document.ofJson, list, items_ofJson h]
  rfl

/-! ## Records -/

variable {σ : Type} {f : Fields} {read : String → Document → σ → Decoded σ}

/-- Reading the values of an object one after the other leads from one state to another. -/
inductive Reads (read : String → Document → σ → Decoded σ) : σ → Json.Entries → σ → Prop where
  | nil {state : σ} : Reads read state [] state
  | cons {key : String} {v : Json} {rest : Json.Entries} {start middle state : σ}
      (hread : read key (Document.ofJson v) start = .ok middle)
      (hrest : Reads read middle rest state) : Reads read start ((key, v) :: rest) state

theorem Reads.singleton {key : String} {v : Json} {start state : σ}
    (h : read key (Document.ofJson v) start = .ok state) : Reads read start [(key, v)] state :=
  .cons h .nil

theorem Reads.append {before after : Json.Entries} {start middle state : σ}
    (hbefore : Reads read start before middle) (hafter : Reads read middle after state) :
    Reads read start (before ++ after) state := by
  induction hbefore with
  | nil => exact hafter
  | cons hread _ ih => exact .cons hread (ih hafter)

theorem accept_of_new {seen : List String} {key : String} (hknown : key ∈ f.names)
    (hnew : key ∉ seen) : f.accept seen key = .ok (some (key :: seen)) := by
  simp [Fields.accept, hknown, hnew]

theorem entries_ofJson {es : Json.Entries} {start state : σ} (h : Reads read start es state)
    (hknown : es.map Prod.fst ⊆ f.names) {seen : List String}
    (hnew : (seen ++ es.map Prod.fst).Nodup) :
    entries f read seen start (Document.ofJsonEntries es) =
      .ok ((es.map Prod.fst).reverse ++ seen, state) := by
  induction h generalizing seen with
  | nil => rfl
  | @cons key v rest start middle state hread _ ih =>
    obtain ⟨hkey, hrest⟩ := List.cons_subset.1 hknown
    have hfresh : key ∉ seen := Entries.notMem_of_nodup hnew
    have hnew' : (key :: seen ++ rest.map Prod.fst).Nodup := List.nodup_middle.1 hnew
    rw [Document.ofJsonEntries, entries, accept_of_new hkey hfresh]
    dsimp only [bind, Except.bind]
    rw [hread]
    simp [ih hrest hnew']

/-- An object whose keys are in declaration order and include the required ones is read as its
values are. -/
theorem record_ofJson {es : Json.Entries} {start state : σ} (h : Reads read start es state)
    (hnames : f.names.Nodup) (hkeys : (es.map Prod.fst).Sublist f.names)
    (hrequired : f.required ⊆ es.map Prod.fst) (source : Source) :
    record f source read start (Document.ofJson (.obj es)) = .ok state := by
  have hnew : ([] ++ es.map Prod.fst).Nodup := hkeys.nodup hnames
  have hcomplete : f.complete ((es.map Prod.fst).reverse ++ []) = .ok () := by
    have hnone : (f.required.find? fun name =>
        !((es.map Prod.fst).reverse ++ []).contains name) = none := by
      rw [List.find?_eq_none]
      intro name hname
      simpa using hrequired hname
    rw [Fields.complete, hnone]
  rw [Document.ofJson, record, entries_ofJson h hkeys.subset hnew]
  dsimp only [bind, Except.bind, noFault]
  rw [hcomplete]
  rfl

/-! ## What was read -/

theorem distinct_of_object {d : Document} {entries : Json.Entries} (h : object d = .ok entries) :
    (Json.obj entries).Distinct := by
  cases d with
  | obj es fault =>
    rw [object] at h
    split at h
    case h_1 v hv =>
      have hdistinct := Document.distinct_of_toJson hv
      obtain ⟨read, -, hread⟩ := Except.bind_eq_ok_iff.1 hv
      obtain ⟨-, rfl⟩ := Document.orFault_eq_ok_iff.1 hread
      exact Except.ok.inj h ▸ hdistinct
    case h_2 => cases h
  | deep bracket => cases bracket <;> cases h
  | _ => cases h

theorem exists_of_mem_items {α : Type} {decode : Document → Decoded α} {ds : List Document}
    {as : List α} (h : items decode ds = .ok as) {a : α} (ha : a ∈ as) :
    ∃ d ∈ ds, decode d = .ok a := by
  induction ds generalizing as with
  | nil =>
    obtain rfl : [] = as := Except.ok.inj h
    simp at ha
  | cons d rest ih =>
    obtain ⟨b, hb, h⟩ := Except.bind_eq_ok_iff.1 h
    obtain ⟨bs, hbs, h⟩ := Except.bind_eq_ok_iff.1 h
    obtain rfl : b :: bs = as := Except.ok.inj h
    rcases List.mem_cons.1 ha with rfl | ha
    · exact ⟨d, List.mem_cons_self .., hb⟩
    · obtain ⟨e, he, hdecode⟩ := ih hbs ha
      exact ⟨e, List.mem_cons_of_mem d he, hdecode⟩

/-- Each item of a list was read from a document in the array. -/
theorem exists_of_mem_list {α : Type} {decode : Document → Decoded α} {d : Document} {as : List α}
    (h : list decode d = .ok as) {a : α} (ha : a ∈ as) : ∃ e ∈ d.parts, decode e = .ok a := by
  cases d with
  | arr ds fault =>
    obtain ⟨bs, hbs, h⟩ := Except.bind_eq_ok_iff.1 h
    obtain ⟨-, -, h⟩ := Except.bind_eq_ok_iff.1 h
    obtain rfl : bs = as := Except.ok.inj h
    exact exists_of_mem_items hbs ha
  | deep bracket => cases bracket <;> cases h
  | _ => cases h

theorem decode_of_optional {α : Type} {decode : Document → Decoded α} {d : Document} {a : α}
    (h : optional decode d = .ok (some a)) : decode d = .ok a := by
  cases d with
  | null => cases h
  | _ =>
    obtain ⟨b, hb, heq⟩ := Except.map_eq_ok_iff.1 h
    exact Option.some.inj heq ▸ hb

theorem entries_invariant {P : σ → Prop} {es : List (String × Document)}
    (hread : ∀ d ∈ es.map Prod.snd, ∀ key state state', P state → read key d state = .ok state' →
      P state') {seen seen' : List String} {state state' : σ} (hstate : P state)
    (h : entries f read seen state es = .ok (seen', state')) : P state' := by
  induction es generalizing seen state with
  | nil =>
    obtain ⟨-, rfl⟩ := Prod.mk.inj (Except.ok.inj h)
    exact hstate
  | cons e rest ih =>
    obtain ⟨he, hrest⟩ := List.forall_mem_cons.1 hread
    obtain ⟨accepted, -, h⟩ := Except.bind_eq_ok_iff.1 h
    cases accepted with
    | none => exact ih hrest hstate h
    | some seen =>
      obtain ⟨middle, hmiddle, h⟩ := Except.bind_eq_ok_iff.1 h
      exact ih hrest (he _ _ _ hstate hmiddle) h

theorem positions_invariant {P : σ → Prop} {ds : List Document}
    (hread : ∀ d ∈ ds, ∀ key state state', P state → read key d state = .ok state' → P state')
    {names left : List String} {rest : List Document} {state state' : σ} (hstate : P state)
    (h : positions read names state ds = .ok (state', left, rest)) : P state' := by
  induction ds generalizing names state with
  | nil =>
    cases names <;>
    · obtain ⟨rfl, -⟩ := Prod.mk.inj (Except.ok.inj h)
      exact hstate
  | cons d ds ih =>
    obtain ⟨hd, hds⟩ := List.forall_mem_cons.1 hread
    cases names with
    | nil =>
      obtain ⟨rfl, -⟩ := Prod.mk.inj (Except.ok.inj h)
      exact hstate
    | cons name names =>
      obtain ⟨middle, hmiddle, h⟩ := Except.bind_eq_ok_iff.1 h
      exact ih hds (hd _ _ _ hstate hmiddle) h

/-- What holds at the start, and is kept by reading a field from a document directly inside, holds
of the record that is read. -/
theorem record_invariant {P : σ → Prop} {d : Document} {source : Source} {start state : σ}
    (hstart : P start)
    (hread : ∀ e ∈ d.parts, ∀ key state state', P state → read key e state = .ok state' → P state')
    (h : record f source read start d = .ok state) : P state := by
  cases d with
  | obj es fault =>
    obtain ⟨⟨seen, last⟩, hlast, h⟩ := Except.bind_eq_ok_iff.1 h
    obtain ⟨-, -, h⟩ := Except.bind_eq_ok_iff.1 h
    obtain ⟨-, -, h⟩ := Except.bind_eq_ok_iff.1 h
    obtain rfl : last = state := Except.ok.inj h
    exact entries_invariant hread hstart hlast
  | arr ds fault =>
    obtain ⟨⟨last, left, rest⟩, hlast, h⟩ := Except.bind_eq_ok_iff.1 h
    obtain ⟨-, -, h⟩ := Except.bind_eq_ok_iff.1 h
    obtain rfl : last = state := Except.ok.inj h
    exact positions_invariant hread hstart hlast
  | _ => cases h

end TypedWorkflow.Decode
