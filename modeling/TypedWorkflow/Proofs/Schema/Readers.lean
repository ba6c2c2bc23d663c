import Mathlib.Data.List.Forall2
import TypedWorkflow.Proofs.Json.Reading
import TypedWorkflow.Proofs.Schema.WellFormed

/-!
# The readers of schemas

Three loops build schemas: of names with the texts of their types, of the entries of a value, and of
the entries of a document. They read a type and look for the name at different points, and give
different errors, but each takes the entries in order and adds a field for each. So all of them
succeed on the same terms: every entry denotes a type, and no name is given twice.

The members of an object in a text are given to the last of these loops as they come, so that a
repeated name is met and refused. A value that has been read from the text has forgotten it: there
the last member of a name has taken the place of the others.

## Main definitions

* `Schema.Declares`: fields with the names and types that are given, in the same order.
* `Schema.loop_eq_ok_iff`: when a loop that adds fields succeeds.
* `Schema.ofPairs_eq_ok_iff`, `Schema.ofJson_eq_ok_iff`, `Schema.decode_eq_ok_iff`: the three loops.
* `Schema.ofText_wholeObject_iff`: which texts of objects denote a schema.
* `Schema.readers_agree`: so all readers agree.
-/

namespace TypedWorkflow

namespace Schema

/-! ## Loops that add fields -/

section Loops

variable {β γ ε : Type} {denotes : β → TypeToken → Prop}

/-- The fields have the names that are given, in the same order, and each has a type that what is
given with its name denotes. -/
def Declares (denotes : β → TypeToken → Prop) (given : List (String × β))
    (fields : List (String × TypeToken)) : Prop :=
  List.Forall₂ (fun g f => g.1 = f.1 ∧ denotes g.2 f.2) given fields

theorem declares_nil_iff {fields : List (String × TypeToken)} :
    Declares denotes [] fields ↔ fields = [] :=
  List.forall₂_nil_left_iff

theorem declares_cons_iff {name : String} {b : β} {rest : List (String × β)}
    {fields : List (String × TypeToken)} :
    Declares denotes ((name, b) :: rest) fields ↔
      ∃ t more, denotes b t ∧ Declares denotes rest more ∧ fields = (name, t) :: more := by
  rw [Declares, List.forall₂_cons_left_iff]
  constructor
  · rintro ⟨⟨_, t⟩, more, ⟨rfl, ht⟩, hmore, rfl⟩
    exact ⟨t, more, ht, hmore, rfl⟩
  · rintro ⟨t, more, ht, hmore, rfl⟩
    exact ⟨(name, t), more, ⟨rfl, ht⟩, hmore, rfl⟩

theorem declares_map_iff {f : γ → β} {given : List (String × γ)}
    {fields : List (String × TypeToken)} :
    Declares denotes (given.map fun g => (g.1, f g.2)) fields ↔
      Declares (fun c => denotes (f c)) given fields :=
  List.forall₂_map_left_iff

/-- There are fields for what is given if all of it denotes types. -/
theorem exists_declares_iff {given : List (String × β)} :
    (∃ fields, Declares denotes given fields) ↔ ∀ g ∈ given, ∃ t, denotes g.2 t := by
  induction given with
  | nil => exact ⟨fun _ => by simp, fun _ => ⟨[], .nil⟩⟩
  | cons g rest ih =>
    obtain ⟨name, b⟩ := g
    simp only [declares_cons_iff, List.forall_mem_cons, ← ih]
    constructor
    · rintro ⟨_, t, more, ht, hmore, rfl⟩
      exact ⟨⟨t, ht⟩, more, hmore⟩
    · rintro ⟨⟨t, ht⟩, more, hmore⟩
      exact ⟨_, t, more, ht, hmore, rfl⟩

/-- A loop that takes entries in order and adds a field for each succeeds if every entry denotes a
type and no name is new twice. The new fields come after those that were there. -/
theorem loop_eq_ok_iff {run : Schema → List (String × β) → Except ε Schema}
    (hnil : ∀ s, run s [] = .ok s)
    (hcons : ∀ s name b rest u, run s ((name, b) :: rest) = .ok u ↔
      ∃ t, denotes b t ∧ ∃ s', s.insert name t = .ok s' ∧ run s' rest = .ok u)
    {given : List (String × β)} {s u : Schema} (hs : s.Distinct) :
    run s given = .ok u ↔ (s.names ++ given.map Prod.fst).Nodup ∧
      ∃ fields, Declares denotes given fields ∧ u = ⟨s.fields ++ fields⟩ := by
  induction given generalizing s with
  | nil =>
    rw [hnil, List.map_nil, List.append_nil]
    constructor
    · intro h
      obtain rfl := Except.ok.inj h
      exact ⟨hs, [], .nil, by rw [List.append_nil]⟩
    · rintro ⟨-, fields, ⟨⟩, rfl⟩
      rw [List.append_nil]
  | cons g rest ih =>
    obtain ⟨name, b⟩ := g
    have hnames (t : TypeToken) : (⟨s.fields ++ [(name, t)]⟩ : Schema).names ++ rest.map Prod.fst =
        s.names ++ ((name, b) :: rest).map Prod.fst := by
      simp [names]
    rw [hcons]
    simp only [insert_eq_ok_iff, declares_cons_iff]
    constructor
    · rintro ⟨t, ht, _, ⟨hnew, rfl⟩, hrun⟩
      obtain ⟨hnodup, fields, hfields, rfl⟩ := (ih (Entries.nodup_names_append hs hnew t)).1 hrun
      rw [hnames] at hnodup
      exact ⟨hnodup, _, ⟨t, fields, ht, hfields, rfl⟩, by simp⟩
    · rintro ⟨hnodup, _, ⟨t, fields, ht, hfields, rfl⟩, rfl⟩
      have hnew : name ∉ s.names := Entries.notMem_of_nodup hnodup
      refine ⟨t, ht, _, ⟨hnew, rfl⟩, (ih (Entries.nodup_names_append hs hnew t)).2 ?_⟩
      rw [hnames]
      exact ⟨hnodup, fields, hfields, by simp⟩

/-- A loop that starts without fields. -/
theorem loop_empty_eq_ok_iff {run : Schema → List (String × β) → Except ε Schema}
    (hnil : ∀ s, run s [] = .ok s)
    (hcons : ∀ s name b rest u, run s ((name, b) :: rest) = .ok u ↔
      ∃ t, denotes b t ∧ ∃ s', s.insert name t = .ok s' ∧ run s' rest = .ok u)
    {given : List (String × β)} {s : Schema} :
    run empty given = .ok s ↔ (given.map Prod.fst).Nodup ∧ Declares denotes given s.fields := by
  rw [loop_eq_ok_iff hnil hcons wellFormed_empty.1]
  refine and_congr_right fun _ => ⟨?_, fun h => ⟨s.fields, h, rfl⟩⟩
  rintro ⟨fields, hfields, rfl⟩
  exact hfields

end Loops

/-! ## The three readers -/

/-- The text denotes the type. -/
def DenotedBy (token : String) (t : TypeToken) : Prop :=
  TypeToken.ofText token = .ok t

/-- Adding a field by the text of its type, and then something else. -/
theorem insertText_bind_eq_ok_iff {s u : Schema} {name token : String}
    {next : Schema → Except SchemaError Schema} :
    (s.insertText name token >>= next) = .ok u ↔
      ∃ t, DenotedBy token t ∧ ∃ s', s.insert name t = .ok s' ∧ next s' = .ok u := by
  rw [insertText, Except.bind_eq_ok_iff]
  constructor
  · rintro ⟨s', hs', hnext⟩
    obtain ⟨t, ht, hinsert⟩ := Except.bind_eq_ok_iff.1 hs'
    exact ⟨t, ht, s', hinsert, hnext⟩
  · rintro ⟨t, ht, s', hinsert, hnext⟩
    exact ⟨s', Except.bind_eq_ok_iff.2 ⟨t, ht, hinsert⟩, hnext⟩

/-- Names with the texts of types denote a schema if every text denotes a type and no name is
repeated. -/
theorem ofPairs_eq_ok_iff {pairs : List (String × String)} {s : Schema} :
    ofPairs pairs = .ok s ↔
      (pairs.map Prod.fst).Nodup ∧ Declares DenotedBy pairs s.fields :=
  loop_empty_eq_ok_iff (fun _ => rfl) fun _ _ _ _ _ => insertText_bind_eq_ok_iff

/-- A value denotes a schema if it is an object, every entry is a string that denotes a type, and no
name is repeated. -/
theorem ofJson_eq_ok_iff {v : Json} {s : Schema} :
    ofJson v = .ok s ↔ ∃ entries, v = .obj entries ∧ (entries.map Prod.fst).Nodup ∧
      Declares (fun v t => ∃ token, v = .str token ∧ DenotedBy token t) entries s.fields := by
  have hcons (s : Schema) (name : String) (v : Json) (rest : Json.Entries) (u : Schema) :
      s.insertEntries ((name, v) :: rest) = .ok u ↔
        ∃ t, (∃ token, v = .str token ∧ DenotedBy token t) ∧
          ∃ s', s.insert name t = .ok s' ∧ s'.insertEntries rest = .ok u := by
    cases v with
    | str token =>
      rw [insertEntries, insertText_bind_eq_ok_iff]
      simp only [Json.str.injEq, exists_eq_left']
    | _ => simp [insertEntries]
  cases v with
  | obj entries =>
    rw [ofJson, loop_empty_eq_ok_iff (fun _ => rfl) hcons]
    simp only [Json.obj.injEq, exists_eq_left']
  | _ => simp [ofJson]

end Schema

theorem TypeToken.decode_eq_ok_iff {d : Document} {t : TypeToken} :
    decode d = .ok t ↔ ∃ token, d = .str token ∧ Schema.DenotedBy token t := by
  have hstring : ∀ token, Decode.string d = .ok token ↔ d = .str token := by
    intro token
    cases d with
    | deep bracket => cases bracket <;> simp [Decode.string, Decode.mismatch]
    | _ => simp [Decode.string, Decode.mismatch]
  rw [decode, Except.bind_eq_ok_iff]
  refine exists_congr fun token => ?_
  rw [hstring, Schema.DenotedBy]
  refine and_congr_right fun _ => ?_
  cases ofText token <;> simp

namespace Schema

/-- A document denotes a schema if it is an object without a fault, every entry is a string that
denotes a type, and no name is repeated. -/
theorem decode_eq_ok_iff {d : Document} {s : Schema} :
    decode d = .ok s ↔ ∃ entries, d = .obj entries none ∧ (entries.map Prod.fst).Nodup ∧
      Declares (fun d t => ∃ token, d = .str token ∧ DenotedBy token t) entries s.fields := by
  have hcons (s : Schema) (name : String) (d : Document) (rest : List (String × Document))
      (u : Schema) : s.decodeEntries ((name, d) :: rest) = .ok u ↔
        ∃ t, (∃ token, d = .str token ∧ DenotedBy token t) ∧
          ∃ s', s.insert name t = .ok s' ∧ s'.decodeEntries rest = .ok u := by
    rw [decodeEntries, Except.bind_eq_ok_iff]
    refine exists_congr fun t => ?_
    rw [TypeToken.decode_eq_ok_iff]
    refine and_congr_right fun _ => ?_
    cases s.insert name t <;> simp
  cases d with
  | obj entries fault =>
    have hend (u : Schema) : (Decode.noFault fault >>= fun _ => pure u) = .ok s ↔
        fault = none ∧ u = s := by
      cases fault <;> simp [Decode.noFault, bind, Except.bind, pure, Except.pure]
    rw [decode, Except.bind_eq_ok_iff]
    simp only [hend, loop_empty_eq_ok_iff (fun _ => rfl) hcons, Document.obj.injEq]
    constructor
    · rintro ⟨_, hfields, rfl, rfl⟩
      exact ⟨entries, ⟨rfl, rfl⟩, hfields⟩
    · rintro ⟨_, ⟨rfl, rfl⟩, hfields⟩
      exact ⟨s, hfields, rfl, rfl⟩
  | deep bracket => cases bracket <;> simp [decode, Decode.mismatch]
  | _ => simp [decode, Decode.mismatch]

/-- A value denotes the same schema whether it is read as such or as a document. -/
theorem decode_ofJson_iff {v : Json} {s : Schema} :
    Decode.ofJson (fun _ => decode) v = .ok s ↔ ofJson v = .ok s := by
  have hstr (v : Json) (token : String) : Document.ofJson v = .str token ↔ v = .str token := by
    cases v <;> simp [Document.ofJson]
  rw [Decode.ofJson, decode_eq_ok_iff, ofJson_eq_ok_iff]
  cases v with
  | obj entries =>
    rw [Document.ofJson, Document.ofJsonEntries_eq_map]
    simp only [Document.obj.injEq, and_true, Json.obj.injEq, exists_eq_left', declares_map_iff,
      List.map_map, hstr]
    rfl
  | _ => simp [Document.ofJson]

/-- An object of strings denotes the schema of its entries. -/
theorem ofJson_strings_iff {pairs : List (String × String)} {s : Schema} :
    ofJson (.obj (pairs.map fun p => (p.1, .str p.2))) = .ok s ↔ ofPairs pairs = .ok s := by
  rw [ofJson_eq_ok_iff, ofPairs_eq_ok_iff]
  simp only [Json.obj.injEq, exists_eq_left', declares_map_iff, List.map_map, Json.str.injEq]
  rfl

/-! ## Texts of objects -/

/-- The text of a value is that of a string which denotes the type. -/
def WrittenAs (text : List Char) (t : TypeToken) : Prop :=
  ∃ token, JsonText.StringText token text ∧ DenotedBy token t

open JsonText (Member StringText ValueText WholeObject LastOfEach)

variable {text : String} {members : List Member}

/-- What is read of members declares the fields that the members declare. -/
theorem declares_read_iff (hvalues : ∀ m ∈ members, ValueText m.value) {depth : Nat}
    {fields : List (String × TypeToken)} :
    Declares (fun d t => ∃ token, d = .str token ∧ DenotedBy token t)
        (members.map (Member.read depth)) fields ↔
      Declares WrittenAs (members.map Member.entry) fields := by
  induction members generalizing fields with
  | nil => rw [List.map_nil, List.map_nil, declares_nil_iff, declares_nil_iff]
  | cons m members ih =>
    obtain ⟨hvalue, hvalues⟩ := List.forall_mem_cons.1 hvalues
    rw [List.map_cons, List.map_cons, Member.read, Member.entry, declares_cons_iff,
      declares_cons_iff]
    simp only [JsonText.alone_eq_str_iff hvalue, ih hvalues]
    rfl

/-- The text of an object denotes a schema if every value is a string that denotes a type, and no
name is repeated. -/
theorem ofText_wholeObject_iff (h : WholeObject members text.toList) {s : Schema} :
    Decode.ofText (fun _ => decode) text = .ok s ↔
      (members.map Member.name).Nodup ∧ Declares WrittenAs (members.map Member.entry) s.fields := by
  have hroot : Decode.ofText (fun _ => decode) text =
      decode (.obj (members.map (Member.read 126)) none) := by
    rw [Decode.ofText, JsonText.readText_wholeObject h]
    simp
  rw [hroot, decode_eq_ok_iff]
  simp only [Document.obj.injEq, and_true, exists_eq_left', declares_read_iff h.valueText,
    JsonText.names_map_read]

/-- A value denotes the same schema for both readers of values, and if it is an object of strings,
the one that its entries denote as pairs. A text of an object denotes a schema exactly if its names
are distinct and all its values are strings that denote types, and then the fields are its members.
So a repeated name is refused there, although of several members with one name the untyped value
keeps the last. -/
theorem readers_agree :
    (∀ v s, Decode.ofJson (fun _ => decode) v = .ok s ↔ ofJson v = .ok s) ∧
    (∀ pairs s,
      (ofJson (.obj (pairs.map fun p => (p.1, .str p.2))) = .ok s ↔ ofPairs pairs = .ok s) ∧
      (Decode.ofJson (fun _ => decode) (.obj (pairs.map fun p => (p.1, .str p.2))) = .ok s ↔
        ofPairs pairs = .ok s)) ∧
    ∀ (text : String) members, WholeObject members text.toList →
      ((∃ s, Decode.ofText (fun _ => decode) text = .ok s) ↔
        (members.map Member.name).Nodup ∧ ∀ m ∈ members, ∃ t, WrittenAs m.value t) ∧
      (∀ s, Decode.ofText (fun _ => decode) text = .ok s →
        Declares WrittenAs (members.map Member.entry) s.fields) ∧
      (∀ v, Json.ofText text = .ok v → ∃ entries, v = .obj entries ∧ LastOfEach members entries) ∧
      ((∀ m ∈ members, ∃ token, StringText token m.value) → ∃ v, Json.ofText text = .ok v) := by
  refine ⟨fun v s => decode_ofJson_iff, fun pairs s => ⟨ofJson_strings_iff, ?_⟩,
    fun text members h => ⟨?_, fun s hs => ((ofText_wholeObject_iff h).1 hs).2,
      fun v => JsonText.exists_lastOfEach h, JsonText.exists_ofText_of_strings h⟩⟩
  · rw [decode_ofJson_iff, ofJson_strings_iff]
  · have hentries : (∀ e ∈ members.map Member.entry, ∃ t, WrittenAs e.2 t) ↔
        ∀ m ∈ members, ∃ t, WrittenAs m.value t := List.forall_mem_map
    have hfields : (∃ s : Schema, Declares WrittenAs (members.map Member.entry) s.fields) ↔
        ∀ m ∈ members, ∃ t, WrittenAs m.value t := by
      rw [← hentries, ← exists_declares_iff]
      exact ⟨fun ⟨s, hs⟩ => ⟨s.fields, hs⟩, fun ⟨fields, hs⟩ => ⟨⟨fields⟩, hs⟩⟩
    simp only [ofText_wholeObject_iff h, exists_and_left, hfields]

/-- Of two fields of one name the schema is refused, and the untyped value keeps the second. -/
theorem readers_agree_repeated :
    (¬ ∃ s, Decode.ofText (fun _ => decode) "\x7b\"a\":\"int\",\"a\":\"str\"\x7d" = .ok s) ∧
    ∃ entries, Json.ofText "\x7b\"a\":\"int\",\"a\":\"str\"\x7d" = .ok (.obj entries) ∧
      entries.lookup "a" = some (.str "str") := by
  let first : Member := ⟨"a", [], ['a'], [], [], ['"', 'i', 'n', 't', '"'], []⟩
  let second : Member := ⟨"a", [], ['a'], [], [], ['"', 's', 't', 'r', '"'], []⟩
  have hint : StringText "int" first.value := .mk (JsonText.spells_plain (by simp))
  have hstr : StringText "str" second.value := .mk (JsonText.spells_plain (by simp))
  have hwhole : WholeObject [first, second] "\x7b\"a\":\"int\",\"a\":\"str\"\x7d".toList := by
    refine ⟨[], _, [], JsonText.gap_nil, .members (List.cons_ne_nil _ _) (fun m hm => ?_) ?_,
      JsonText.gap_nil, rfl⟩
    · have hkey : JsonText.Spells "a".toList ['a'] := JsonText.spells_plain (by simp)
      rcases List.mem_pair.1 hm with rfl | rfl <;>
        exact ⟨hkey, JsonText.gap_nil, JsonText.gap_nil, JsonText.gap_nil, JsonText.gap_nil⟩
    · simpa using ⟨.string hint, .string hstr⟩
  obtain ⟨htyped, -, hlast, huntyped⟩ := readers_agree.2.2 _ _ hwhole
  refine ⟨fun hs => absurd (htyped.1 hs).1 (by decide), ?_⟩
  obtain ⟨v, hv⟩ := huntyped (by simpa using ⟨⟨_, hint⟩, ⟨_, hstr⟩⟩)
  obtain ⟨entries, rfl, hentries⟩ := hlast v hv
  obtain ⟨w, hw, hlookup⟩ := hentries.last [first] second [] rfl (by simp)
  refine ⟨entries, hv, ?_⟩
  rw [hlookup, Except.ok.inj (hw.symm.trans (JsonText.ofText_stringText hstr))]

end Schema

end TypedWorkflow
