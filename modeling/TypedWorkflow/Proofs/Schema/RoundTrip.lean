import TypedWorkflow.Proofs.Json.Document
import TypedWorkflow.Proofs.Schema.Grammar

/-!
# Reading what has been written

The text of a token without records is in the grammar of tokens and denotes the token, so it is
read as it was written. With distinct names no entry of a schema gets lost when the schema is
written, and none is rejected when it is read, so every reader of schemas gives the schema back,
its fields in order.

A record shows as its name alone, so a schema with records is written but not read again. Its two
written forms agree nevertheless.

## Main definitions

* `TypeToken.denotes_text`: the texts of tokens are in the grammar.
* `Schema.toJson_toDocument`, `Schema.ofJson_toJson`: the written forms.
* `Schema.text_round_trip`: tokens and schemas, written and read.
-/

namespace TypedWorkflow

/-! ## Tokens -/

namespace TypeToken

theorem Atom.denotes {cs : List Char} {t : TypeToken} (h : Atom cs t) : Denotes cs t := by
  simpa using Denotes.padded Text.blanks_nil h Text.blanks_nil

theorem Word.denotes {word : String} {t : TypeToken} (hword : Word word t)
    (hspells : Spells word word.toList) : Denotes word.toList t :=
  (Atom.word hword hspells).denotes

theorem Denotes.space_cons {cs : List Char} {t : TypeToken} (h : Denotes cs t) :
    Denotes (' ' :: cs) t := by
  obtain ⟨hbefore, hatom, hafter⟩ := h
  have hspace : Text.isBlank ' ' = true := by decide
  exact .padded (List.forall_mem_cons.2 ⟨hspace, hbefore⟩) hatom hafter

/-- The text of a token without records denotes the token. -/
theorem denotes_text {t : TypeToken} (h : t.RecordFree) : Denotes t.text.toList t := by
  induction t with
  | int => exact Word.int.denotes rfl
  | float => exact Word.float.denotes rfl
  | str => exact Word.str.denotes rfl
  | bool => exact Word.bool.denotes rfl
  | any => exact Word.any.denotes rfl
  | list => exact Word.list.denotes rfl
  | dict => exact Word.dict.denotes rfl
  | listOf item ih =>
    have hword : Spells "list" ['l', 'i', 's', 't'] := rfl
    have hatom := Atom.listOf hword Text.blanks_nil (ih h)
    simpa [text] using hatom.denotes
  | dictOf key value ihkey ihvalue =>
    have hword : Spells "dict" ['d', 'i', 'c', 't'] := rfl
    have hatom := Atom.dictOf hword Text.blanks_nil (ihkey h.1) (ihvalue h.2).space_cons
    simpa [text] using hatom.denotes
  | record name fields => exact h.elim

theorem ofText_text {t : TypeToken} (h : t.RecordFree) : ofText t.text = .ok t :=
  ofChars_of_denotes (denotes_text h)

theorem decode_text {t : TypeToken} (h : t.RecordFree) : decode (.str t.text) = .ok t := by
  have hstring : Decode.string (.str t.text) = .ok t.text := rfl
  rw [decode, hstring]
  dsimp only [bind, Except.bind]
  rw [ofText_text h]

end TypeToken

/-! ## Schemas -/

namespace Schema

/-- No field has a record in its type. -/
def RecordFree (s : Schema) : Prop :=
  ∀ f ∈ s.fields, f.2.RecordFree

/-- The entries that fields are written as. -/
def textEntries (fields : List (String × TypeToken)) : Json.Entries :=
  fields.map fun f => (f.1, .str f.2.text)

theorem toDocument_eq (s : Schema) :
    s.toDocument = Document.ofJson (.obj (textEntries s.fields)) := by
  rw [Document.ofJson, Document.ofJsonEntries_eq_map, textEntries, List.map_map]
  rfl

/-- What a schema is written as has the value that the schema is turned into. -/
theorem toJson_toDocument (s : Schema) : s.toDocument.toJson = .ok s.toJson := by
  have hentries (fields : List (String × TypeToken)) (read : Json.Entries) :
      Document.toJsonEntries read (fields.map fun f => (f.1, .str f.2.text)) =
        .ok (fields.foldl (fun entries f => Json.insert f.1 (.str f.2.text) entries) read) := by
    induction fields generalizing read with
    | nil => rfl
    | cons f rest ih => exact ih (Json.insert f.1 (.str f.2.text) read)
  rw [toDocument, Document.toJson]
  exact Except.bind_eq_ok_iff.2 ⟨_, hentries s.fields [], rfl⟩

theorem distinct_textEntries {s : Schema} (h : s.Distinct) :
    (Json.obj (textEntries s.fields)).Distinct := by
  refine (Json.distinct_obj_iff _).2 ⟨?_, ?_⟩
  · have hnames := Entries.names_map (fun _ type => Json.str (TypeToken.text type)) s.fields
    rw [textEntries, hnames]
    exact h
  · intro e he
    obtain ⟨f, -, rfl⟩ := List.mem_map.1 he
    trivial

/-- With distinct names the object of a schema has an entry for each field, in order. -/
theorem toJson_eq {s : Schema} (h : s.Distinct) : s.toJson = .obj (textEntries s.fields) := by
  have hread := toJson_toDocument s
  rw [toDocument_eq, Document.toJson_ofJson (distinct_textEntries h)] at hread
  exact (Except.ok.inj hread).symm

/-! ## Reading schemas -/

variable {s : Schema} {fields : List (String × TypeToken)}

theorem insert_eq_ok {name : String} (h : name ∉ s.names) (type : TypeToken) :
    s.insert name type = .ok ⟨s.fields ++ [(name, type)]⟩ :=
  insert_eq_ok_iff.2 ⟨h, rfl⟩

theorem notMem_names_of_nodup {f : String × TypeToken}
    (h : ((s.fields ++ f :: fields).map Prod.fst).Nodup) : f.1 ∉ s.names := by
  rw [List.map_append, List.map_cons] at h
  exact Entries.notMem_of_nodup h

theorem insertEntries_textEntries (htokens : ∀ f ∈ fields, f.2.RecordFree)
    (hnames : ((s.fields ++ fields).map Prod.fst).Nodup) :
    s.insertEntries (textEntries fields) = .ok ⟨s.fields ++ fields⟩ := by
  induction fields generalizing s with
  | nil => simp [textEntries, insertEntries]
  | cons f rest ih =>
    obtain ⟨hf, hrest⟩ := List.forall_mem_cons.1 htokens
    have hinsert := insert_eq_ok (notMem_names_of_nodup hnames) f.2
    have hstep : s.insertEntries (textEntries (f :: rest)) =
        insertEntries ⟨s.fields ++ [f]⟩ (textEntries rest) := by
      rw [textEntries, List.map_cons, insertEntries, insertText, TypeToken.ofText_text hf]
      dsimp only [bind, Except.bind]
      rw [hinsert]
      rfl
    rw [hstep, ih hrest (by simpa using hnames), List.append_assoc]
    rfl

theorem decodeEntries_textEntries (htokens : ∀ f ∈ fields, f.2.RecordFree)
    (hnames : ((s.fields ++ fields).map Prod.fst).Nodup) :
    s.decodeEntries (Document.ofJsonEntries (textEntries fields)) = .ok ⟨s.fields ++ fields⟩ := by
  induction fields generalizing s with
  | nil => simp [textEntries, Document.ofJsonEntries, decodeEntries]
  | cons f rest ih =>
    obtain ⟨hf, hrest⟩ := List.forall_mem_cons.1 htokens
    have hinsert := insert_eq_ok (notMem_names_of_nodup hnames) f.2
    have hstep : s.decodeEntries (Document.ofJsonEntries (textEntries (f :: rest))) =
        decodeEntries ⟨s.fields ++ [f]⟩ (Document.ofJsonEntries (textEntries rest)) := by
      rw [textEntries, List.map_cons, Document.ofJsonEntries, decodeEntries, Document.ofJson,
        TypeToken.decode_text hf]
      dsimp only [bind, Except.bind]
      rw [hinsert]
      rfl
    rw [hstep, ih hrest (by simpa using hnames), List.append_assoc]
    rfl

theorem ofJson_toJson (hs : s.Distinct) (htokens : s.RecordFree) : ofJson s.toJson = .ok s := by
  rw [toJson_eq hs]
  exact insertEntries_textEntries htokens hs

theorem decode_toDocument (hs : s.Distinct) (htokens : s.RecordFree) :
    decode s.toDocument = .ok s := by
  have hentries : empty.decodeEntries (Document.ofJsonEntries (textEntries s.fields)) = .ok s :=
    decodeEntries_textEntries htokens hs
  rw [toDocument_eq, Document.ofJson, decode, hentries]
  rfl

theorem decode_ofJson_toJson (hs : s.Distinct) (htokens : s.RecordFree) :
    Decode.ofJson (fun _ => decode) s.toJson = .ok s := by
  rw [Decode.ofJson, toJson_eq hs, ← toDocument_eq, decode_toDocument hs htokens]

/-- The text of a token is read as the token, and each written form of a schema as the schema,
unless there is a record in it. The written forms of a schema are the same object, whether there
are records in it or not. -/
theorem text_round_trip :
    (∀ t : TypeToken, t.RecordFree → TypeToken.ofText t.text = .ok t) ∧
      (∀ s : Schema, s.Distinct → s.RecordFree →
        ofJson s.toJson = .ok s ∧ decode s.toDocument = .ok s ∧
          Decode.ofJson (fun _ => decode) s.toJson = .ok s) ∧
      ∀ s : Schema, s.toDocument.toJson = .ok s.toJson := by
  refine ⟨?_, ?_, ?_⟩
  · intro t ht
    exact TypeToken.ofText_text ht
  · intro s hs htokens
    exact ⟨ofJson_toJson hs htokens, decode_toDocument hs htokens, decode_ofJson_toJson hs htokens⟩
  · intro s
    exact toJson_toDocument s

/-- A schema of several fields. The type of the second has a comma in the brackets on either side of
the comma that parts its arguments. -/
def nestedSchema : Schema where
  fields := [("answers", .listOf (.dictOf .str .float)),
    ("totals", .dictOf (.dictOf .str .int) (.dictOf .bool (.listOf .any))), ("question", .str)]

theorem text_round_trip_nestedSchema :
    TypeToken.ofText "dict[dict[str, int], dict[bool, list[any]]]" =
        .ok (.dictOf (.dictOf .str .int) (.dictOf .bool (.listOf .any))) ∧
      nestedSchema.Distinct ∧ nestedSchema.RecordFree ∧
      ofJson nestedSchema.toJson = .ok nestedSchema ∧
      decode nestedSchema.toDocument = .ok nestedSchema ∧
      Decode.ofJson (fun _ => decode) nestedSchema.toJson = .ok nestedSchema := by
  obtain ⟨htokens, hschemas, -⟩ := text_round_trip
  have hnames : nestedSchema.Distinct := by simp [Distinct, names, nestedSchema]
  have htypes : nestedSchema.RecordFree := by
    simp [RecordFree, nestedSchema, TypeToken.RecordFree]
  have htext := htokens (.dictOf (.dictOf .str .int) (.dictOf .bool (.listOf .any)))
    (by simp [TypeToken.RecordFree])
  exact ⟨htext, hnames, htypes, hschemas nestedSchema hnames htypes⟩

end Schema

end TypedWorkflow
