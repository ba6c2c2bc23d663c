import TypedWorkflow.Json.Document
import TypedWorkflow.Proofs.Except
import TypedWorkflow.Proofs.Json.Equality

/-!
# Values and their documents

The document of a value is read as the value again, provided that no object in the value repeats a
key: an entry whose key was not read before goes to the end, so the entries stay in order. Nor does
any object repeat a key in a value that was read, since the last of several entries with one key
takes the place of the others. Where a document has no such entries to begin with, it is the
document of its value.

## Main definitions

* `Json.insert_of_notMem`, `Json.Distinct.insert`: what an entry does to those before it.
* `Document.toJson_ofJson`: from a value to its document and back.
* `Document.ind`: induction on documents.
* `Document.distinct_of_toJson`, `Document.lookup_toJsonEntries_of_last`: the keys of a value that
  was read, and what is found under them.
* `Document.Distinct`, `Document.eq_ofJson_of_toJson`: a document without repeated keys is that of
  its value.
-/

namespace TypedWorkflow

/-- A new key goes to the end. -/
theorem Json.insert_of_notMem {key : String} {entries : Entries}
    (h : key ∉ entries.map Prod.fst) (value : Json) :
    insert key value entries = entries ++ [(key, value)] := by
  induction entries with
  | nil => rfl
  | cons e entries ih =>
    simp only [List.map_cons, List.mem_cons, not_or] at h
    rw [insert, if_neg (Ne.symm h.1), ih h.2, List.cons_append]

namespace Document

/-! ## There and back -/

theorem ofJsonItems_eq_map (items : List Json) : ofJsonItems items = items.map ofJson := by
  induction items with
  | nil => rfl
  | cons v rest ih => rw [ofJsonItems, ih, List.map_cons]

theorem ofJsonEntries_eq_map (entries : Json.Entries) :
    ofJsonEntries entries = entries.map fun e => (e.1, ofJson e.2) := by
  induction entries with
  | nil => rfl
  | cons e rest ih => rw [ofJsonEntries, ih, List.map_cons]

theorem toJsonItems_ofJson {items : List Json} (h : ∀ v ∈ items, (ofJson v).toJson = .ok v) :
    toJsonItems (items.map ofJson) = .ok items := by
  induction items with
  | nil => rfl
  | cons v rest ih =>
    obtain ⟨hv, hrest⟩ := List.forall_mem_cons.1 h
    rw [List.map_cons, toJsonItems, hv, ih hrest]
    rfl

theorem toJsonEntries_ofJson {entries : Json.Entries}
    (h : ∀ e ∈ entries, (ofJson e.2).toJson = .ok e.2) {read : Json.Entries}
    (hkeys : ((read ++ entries).map Prod.fst).Nodup) :
    toJsonEntries read (entries.map fun e => (e.1, ofJson e.2)) = .ok (read ++ entries) := by
  induction entries generalizing read with
  | nil => simp [toJsonEntries]
  | cons e rest ih =>
    obtain ⟨he, hrest⟩ := List.forall_mem_cons.1 h
    have hnew : e.1 ∉ read.map Prod.fst := by
      rw [List.map_append, List.map_cons] at hkeys
      exact Entries.notMem_of_nodup hkeys
    have hstep : toJsonEntries read ((e :: rest).map fun e => (e.1, ofJson e.2)) =
        toJsonEntries (Json.insert e.1 e.2 read) (rest.map fun e => (e.1, ofJson e.2)) := by
      rw [List.map_cons, toJsonEntries, he]
      rfl
    rw [hstep, Json.insert_of_notMem hnew, ih hrest (by simpa using hkeys), List.append_assoc]
    rfl

/-- The document of a value is read as the value. -/
theorem toJson_ofJson {v : Json} (h : v.Distinct) : (ofJson v).toJson = .ok v := by
  induction v with
  | arr items ih =>
    have hitems : ∀ v ∈ items, (ofJson v).toJson = .ok v := by
      intro v hv
      exact ih v hv ((Json.distinct_arr_iff items).1 h v hv)
    rw [ofJson, ofJsonItems_eq_map, toJson, toJsonItems_ofJson hitems]
    rfl
  | obj entries ih =>
    obtain ⟨hkeys, hvalues⟩ := (Json.distinct_obj_iff entries).1 h
    have hentries : ∀ e ∈ entries, (ofJson e.2).toJson = .ok e.2 := by
      intro e he
      exact ih e he (hvalues e he)
    have hread : toJsonEntries [] (entries.map fun e => (e.1, ofJson e.2)) = .ok entries :=
      toJsonEntries_ofJson hentries hkeys
    rw [ofJson, ofJsonEntries_eq_map, toJson, hread]
    rfl
  | _ => rfl

end Document

/-! ## Keys of what is read -/

namespace Json

theorem names_insert_of_mem {key : String} {entries : Entries} (h : key ∈ entries.map Prod.fst)
    (value : Json) : (insert key value entries).map Prod.fst = entries.map Prod.fst := by
  induction entries with
  | nil => simp at h
  | cons e entries ih =>
    by_cases hkey : e.1 = key
    · rw [insert, if_pos hkey]
      rfl
    · have hrest := (List.mem_cons.1 h).resolve_left (Ne.symm hkey)
      rw [insert, if_neg hkey, List.map_cons, List.map_cons, ih hrest]

theorem mem_or_eq_of_mem_insert {key : String} {value : Json} {entries : Entries}
    {e : String × Json} (h : e ∈ insert key value entries) : e ∈ entries ∨ e.2 = value := by
  induction entries with
  | nil => exact .inr (congrArg Prod.snd (List.mem_singleton.1 h))
  | cons e' entries ih =>
    by_cases hkey : e'.1 = key
    · rw [insert, if_pos hkey] at h
      rcases List.mem_cons.1 h with rfl | h
      · exact .inr rfl
      · exact .inl (List.mem_cons_of_mem e' h)
    · rw [insert, if_neg hkey] at h
      rcases List.mem_cons.1 h with rfl | h
      · exact .inl (List.mem_cons_self ..)
      · exact (ih h).imp_left (List.mem_cons_of_mem e')

theorem lookup_insert (key : String) (value : Json) (entries : Entries) (name : String) :
    (insert key value entries).lookup name =
      if name = key then some value else entries.lookup name := by
  have hcons (e : String × Json) (rest : Entries) :
      (e :: rest).lookup name = if name = e.1 then some e.2 else rest.lookup name := by
    rw [List.lookup_cons]
    by_cases hname : name = e.1 <;> simp [hname, beq_false_of_ne]
  induction entries with
  | nil => rw [insert, hcons]
  | cons e entries ih =>
    by_cases hkey : e.1 = key
    · rw [insert, if_pos hkey, hcons, hcons, hkey]
      by_cases hname : name = key <;> simp [hname]
    · rw [insert, if_neg hkey, hcons, hcons, ih]
      by_cases hname : name = key
      · have hother : name ≠ e.1 := hname ▸ Ne.symm hkey
        rw [if_neg hother, if_pos hname, if_pos hname]
      · rw [if_neg hname, if_neg hname]

theorem mem_names_insert {key : String} {value : Json} {entries : Entries} {name : String} :
    name ∈ (insert key value entries).map Prod.fst ↔
      name = key ∨ name ∈ entries.map Prod.fst := by
  rw [← Entries.isSome_lookup_iff, ← Entries.isSome_lookup_iff, lookup_insert]
  by_cases hname : name = key <;> simp [hname]

/-- An entry more, or in another's place, leaves the keys distinct. -/
theorem Distinct.insert {entries : Entries} (h : (Json.obj entries).Distinct) (key : String)
    {value : Json} (hvalue : value.Distinct) :
    (Json.obj (Json.insert key value entries)).Distinct := by
  obtain ⟨hkeys, hvalues⟩ := (distinct_obj_iff entries).1 h
  refine (distinct_obj_iff _).2 ⟨?_, ?_⟩
  · by_cases hmem : key ∈ entries.map Prod.fst
    · rwa [names_insert_of_mem hmem]
    · rw [insert_of_notMem hmem]
      exact TypedWorkflow.Entries.nodup_names_append hkeys hmem value
  · intro e he
    rcases mem_or_eq_of_mem_insert he with he | he
    · exact hvalues e he
    · exact he ▸ hvalue

end Json

namespace Document

/-- The documents directly inside a document. -/
def parts : Document → List Document
  | .arr items _ => items
  | .obj entries _ => entries.map Prod.snd
  | _ => []

/-- Induction on documents: the statement may be assumed of every document directly inside. -/
@[elab_as_elim]
theorem ind {motive : Document → Prop} (whole : ∀ d, (∀ e ∈ d.parts, motive e) → motive d)
    (d : Document) : motive d := by
  have hleaf (d : Document) (h : d.parts = []) : motive d := whole d (by simp [h])
  refine @Document.rec motive (fun items => ∀ d ∈ items, motive d)
    (fun entries => ∀ d ∈ entries.map Prod.snd, motive d) (fun e => motive e.2)
    (hleaf _ rfl) (fun _ => hleaf _ rfl) (fun _ => hleaf _ rfl) (fun _ => hleaf _ rfl) ?_ ?_
    (fun _ => hleaf _ rfl) (fun _ => hleaf _ rfl) ?_ ?_ ?_ ?_ ?_ d
  · intro items fault hitems
    exact whole (.arr items fault) hitems
  · intro entries fault hentries
    exact whole (.obj entries fault) hentries
  · simp
  · intro d items hd hitems
    exact List.forall_mem_cons.2 ⟨hd, hitems⟩
  · simp
  · intro e entries he hentries
    exact List.forall_mem_cons.2 ⟨he, hentries⟩
  · intro _ d hd
    exact hd

theorem orFault_eq_ok_iff {α : Type} {result r : α} {fault : Option SyntaxError} :
    orFault result fault = .ok r ↔ fault = none ∧ result = r := by
  cases fault <;> simp [orFault]

theorem distinct_of_toJsonItems {items : List Document} {vs : List Json}
    (hitems : ∀ d ∈ items, ∀ v, d.toJson = .ok v → v.Distinct) (h : toJsonItems items = .ok vs) :
    ∀ v ∈ vs, v.Distinct := by
  induction items generalizing vs with
  | nil =>
    obtain rfl : [] = vs := Except.ok.inj h
    simp
  | cons d rest ih =>
    obtain ⟨hd, hrest⟩ := List.forall_mem_cons.1 hitems
    obtain ⟨v, hv, h⟩ := Except.bind_eq_ok_iff.1 h
    obtain ⟨vs', hvs', h⟩ := Except.bind_eq_ok_iff.1 h
    obtain rfl : v :: vs' = vs := Except.ok.inj h
    exact List.forall_mem_cons.2 ⟨hd v hv, ih hrest hvs'⟩

theorem distinct_of_toJsonEntries {es : List (String × Document)} {read entries : Json.Entries}
    (hes : ∀ d ∈ es.map Prod.snd, ∀ v, d.toJson = .ok v → v.Distinct)
    (hread : (Json.obj read).Distinct) (h : toJsonEntries read es = .ok entries) :
    (Json.obj entries).Distinct := by
  induction es generalizing read with
  | nil => exact Except.ok.inj h ▸ hread
  | cons e rest ih =>
    obtain ⟨he, hrest⟩ := List.forall_mem_cons.1 hes
    obtain ⟨v, hv, h⟩ := Except.bind_eq_ok_iff.1 h
    exact ih hrest (hread.insert e.1 (he v hv)) h

/-- In a value that was read no object repeats a key. -/
theorem distinct_of_toJson {d : Document} {v : Json} (h : d.toJson = .ok v) : v.Distinct := by
  induction d using Document.ind generalizing v with
  | whole d ih =>
    cases d with
    | arr items fault =>
      obtain ⟨vs, hvs, h⟩ := Except.bind_eq_ok_iff.1 h
      obtain ⟨-, rfl⟩ := orFault_eq_ok_iff.1 h
      exact (Json.distinct_arr_iff vs).2 (distinct_of_toJsonItems (fun d hd v => ih d hd) hvs)
    | obj es fault =>
      obtain ⟨entries, hentries, h⟩ := Except.bind_eq_ok_iff.1 h
      obtain ⟨-, rfl⟩ := orFault_eq_ok_iff.1 h
      have hempty : (Json.obj []).Distinct := (Json.distinct_obj_iff []).2 (by simp)
      exact distinct_of_toJsonEntries (fun d hd v => ih d hd) hempty hentries
    | deep bracket => cases h
    | broken e => cases h
    | _ =>
      obtain rfl := Except.ok.inj h
      trivial

/-- Every key that is read is a key of the value. -/
theorem mem_names_toJsonEntries {es : List (String × Document)} {read entries : Json.Entries}
    (h : toJsonEntries read es = .ok entries) {name : String} :
    name ∈ entries.map Prod.fst ↔ name ∈ read.map Prod.fst ∨ name ∈ es.map Prod.fst := by
  induction es generalizing read with
  | nil =>
    obtain rfl := Except.ok.inj h
    simp
  | cons e rest ih =>
    obtain ⟨v, -, h⟩ := Except.bind_eq_ok_iff.1 h
    rw [ih h, Json.mem_names_insert, List.map_cons, List.mem_cons, or_assoc, or_left_comm]

/-- Nothing else becomes of a key that was read before than that an entry takes its place. -/
theorem lookup_toJsonEntries_of_notMem {es : List (String × Document)} {read entries : Json.Entries}
    (h : toJsonEntries read es = .ok entries) {name : String} (hname : name ∉ es.map Prod.fst) :
    entries.lookup name = read.lookup name := by
  induction es generalizing read with
  | nil =>
    obtain rfl := Except.ok.inj h
    rfl
  | cons e rest ih =>
    obtain ⟨v, -, h⟩ := Except.bind_eq_ok_iff.1 h
    rw [List.map_cons, List.mem_cons, not_or] at hname
    rw [ih h hname.2, Json.lookup_insert, if_neg hname.1]

/-- The last entry of a key is the one that stays. -/
theorem lookup_toJsonEntries_of_last {before after : List (String × Document)} {name : String}
    {d : Document} {read entries : Json.Entries}
    (h : toJsonEntries read (before ++ (name, d) :: after) = .ok entries)
    (hname : name ∉ after.map Prod.fst) :
    ∃ v, d.toJson = .ok v ∧ entries.lookup name = some v := by
  induction before generalizing read with
  | nil =>
    obtain ⟨v, hv, h⟩ := Except.bind_eq_ok_iff.1 h
    refine ⟨v, hv, ?_⟩
    rw [lookup_toJsonEntries_of_notMem h hname, Json.lookup_insert, if_pos rfl]
  | cons e before ih =>
    obtain ⟨v, -, h⟩ := Except.bind_eq_ok_iff.1 h
    exact ih h

/-! ## Documents without repeated keys -/

/-- The keys of an object. -/
def keys : Document → List String
  | .obj entries _ => entries.map Prod.fst
  | _ => []

/-- No object repeats a key, at whatever depth it stands. -/
inductive Distinct : Document → Prop where
  | whole {d : Document} (hkeys : d.keys.Nodup) (hparts : ∀ e ∈ d.parts, e.Distinct) : Distinct d

mutual

/-- Whether no object repeats a key. -/
def isDistinct : Document → Bool
  | .arr items _ => areDistinct items
  | .obj entries _ => decide (entries.map Prod.fst).Nodup && areDistinctEntries entries
  | _ => true

/-- Whether no object repeats a key in the items of an array. -/
def areDistinct : List Document → Bool
  | [] => true
  | d :: rest => d.isDistinct && areDistinct rest

/-- Whether no object repeats a key in the values of the entries of an object. -/
def areDistinctEntries : List (String × Document) → Bool
  | [] => true
  | (_, d) :: rest => d.isDistinct && areDistinctEntries rest

end

theorem areDistinct_eq_all (items : List Document) : areDistinct items = items.all isDistinct := by
  induction items with
  | nil => rfl
  | cons d rest ih => rw [areDistinct, ih, List.all_cons]

theorem areDistinctEntries_eq_all (entries : List (String × Document)) :
    areDistinctEntries entries = (entries.map Prod.snd).all isDistinct := by
  induction entries with
  | nil => rfl
  | cons e rest ih => rw [areDistinctEntries, ih, List.map_cons, List.all_cons]

theorem isDistinct_eq (d : Document) :
    d.isDistinct = (decide d.keys.Nodup && d.parts.all isDistinct) := by
  cases d with
  | arr items fault => rw [isDistinct, areDistinct_eq_all]; rfl
  | obj entries fault => rw [isDistinct, areDistinctEntries_eq_all]; rfl
  | _ => rfl

theorem isDistinct_iff {d : Document} : d.isDistinct = true ↔ d.Distinct := by
  induction d using Document.ind with
  | whole d ih =>
    rw [isDistinct_eq, Bool.and_eq_true, decide_eq_true_iff, List.all_eq_true]
    constructor
    · rintro ⟨hkeys, hparts⟩
      exact .whole hkeys fun e he => (ih e he).1 (hparts e he)
    · rintro ⟨hkeys, hparts⟩
      exact ⟨hkeys, fun e he => (ih e he).2 (hparts e he)⟩

instance (d : Document) : Decidable d.Distinct :=
  decidable_of_iff _ isDistinct_iff

theorem eq_map_of_toJsonItems {items : List Document} {vs : List Json}
    (hitems : ∀ d ∈ items, ∀ v, d.toJson = .ok v → d = ofJson v) (h : toJsonItems items = .ok vs) :
    items = vs.map ofJson := by
  induction items generalizing vs with
  | nil =>
    obtain rfl : [] = vs := Except.ok.inj h
    rfl
  | cons d rest ih =>
    obtain ⟨hd, hrest⟩ := List.forall_mem_cons.1 hitems
    obtain ⟨v, hv, h⟩ := Except.bind_eq_ok_iff.1 h
    obtain ⟨vs', hvs', h⟩ := Except.bind_eq_ok_iff.1 h
    obtain rfl : v :: vs' = vs := Except.ok.inj h
    rw [List.map_cons, ← hd v hv, ← ih hrest hvs']

/-- Entries whose keys are new are all kept, after those that were read before. -/
theorem eq_map_of_toJsonEntries {es : List (String × Document)} {read entries : Json.Entries}
    (hes : ∀ d ∈ es.map Prod.snd, ∀ v, d.toJson = .ok v → d = ofJson v)
    (hkeys : (read.map Prod.fst ++ es.map Prod.fst).Nodup)
    (h : toJsonEntries read es = .ok entries) :
    ∃ new : Json.Entries, entries = read ++ new ∧ es = new.map fun e => (e.1, ofJson e.2) := by
  induction es generalizing read with
  | nil => exact ⟨[], by rw [List.append_nil]; exact (Except.ok.inj h).symm, rfl⟩
  | cons e rest ih =>
    obtain ⟨key, d⟩ := e
    obtain ⟨hd, hrest⟩ := List.forall_mem_cons.1 hes
    obtain ⟨v, hv, h⟩ := Except.bind_eq_ok_iff.1 h
    have hnew : key ∉ read.map Prod.fst := Entries.notMem_of_nodup hkeys
    rw [Json.insert_of_notMem hnew] at h
    obtain ⟨new, hentries, hmap⟩ := ih hrest (by simpa using hkeys) h
    refine ⟨(key, v) :: new, ?_, ?_⟩
    · rw [hentries, List.append_assoc, List.singleton_append]
    · rw [List.map_cons, ← hmap, ← hd v hv]

/-- Where no object repeats a key, a document is the document of its value. -/
theorem eq_ofJson_of_toJson {d : Document} (hd : d.Distinct) {v : Json} (h : d.toJson = .ok v) :
    d = ofJson v := by
  induction d using Document.ind generalizing v with
  | whole d ih =>
    obtain ⟨hkeys, hparts⟩ := hd
    cases d with
    | arr items fault =>
      obtain ⟨vs, hvs, h⟩ := Except.bind_eq_ok_iff.1 h
      obtain ⟨rfl, rfl⟩ := orFault_eq_ok_iff.1 h
      have hitems : items = vs.map ofJson :=
        eq_map_of_toJsonItems (fun d hd v => ih d hd (hparts d hd)) hvs
      rw [ofJson, ofJsonItems_eq_map, ← hitems]
    | obj es fault =>
      obtain ⟨entries, hentries, h⟩ := Except.bind_eq_ok_iff.1 h
      obtain ⟨rfl, rfl⟩ := orFault_eq_ok_iff.1 h
      have hnew : (([] : Json.Entries).map Prod.fst ++ es.map Prod.fst).Nodup := hkeys
      obtain ⟨new, rfl, hes⟩ :=
        eq_map_of_toJsonEntries (fun d hd v => ih d hd (hparts d hd)) hnew hentries
      rw [ofJson, ofJsonEntries_eq_map, ← hes]
    | deep bracket => cases h
    | broken e => cases h
    | _ => rw [← Except.ok.inj h, ofJson]

end Document

end TypedWorkflow
