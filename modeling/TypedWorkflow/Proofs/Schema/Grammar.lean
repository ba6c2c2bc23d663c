import TypedWorkflow.Proofs.Schema.WellFormed
import TypedWorkflow.Proofs.Text.Blank

/-!
# The grammar of type tokens

A token is a word with blanks around it, or the word `list` or `dict` with one or two tokens in
brackets. The reader does not go by this grammar: it takes off the last bracket wherever the first
one belongs to, and looks for a comma by counting brackets, where a closing bracket too many counts
for nothing. Still it accepts the texts of the grammar and no others.

That no other text is accepted holds because the parts of a text put together give the text again,
so that a text is split somewhere, and each part has to be a token in its turn. That every text of
the grammar is accepted rests on the brackets and commas inside a token: at whatever depth of
brackets a token stands, counting through it leads back to that depth, and no comma in it is met
outside brackets of its own.

## Main definitions

* `TypeToken.Denotes`, `TypeToken.Atom`: the grammar.
* `TypeToken.Whole`: texts that are not split.
* `TypeToken.ofChars_eq_ok_iff_denotes`: the reader and the grammar.
* `TypeToken.ofText_grammar`: what is accepted, and how the rest is rejected.
-/

namespace TypedWorkflow.TypeToken

open Text (Blanks)

/-! ## The grammar -/

/-- The words that denote a token by themselves. -/
inductive Word : String → TypeToken → Prop where
  | int : Word "int" .int
  | float : Word "float" .float
  | str : Word "str" .str
  | string : Word "string" .str
  | bool : Word "bool" .bool
  | boolean : Word "boolean" .bool
  | any : Word "any" .any
  | json : Word "json" .any
  | list : Word "list" .list
  | dict : Word "dict" .dict

/-- A text spells a word, in ASCII letters of either case. -/
def Spells (word : String) (cs : List Char) : Prop :=
  cs.map Char.toLower = word.toList

mutual

/-- A text denotes a token, blanks around it aside. -/
inductive Denotes : List Char → TypeToken → Prop where
  | padded {before atom after : List Char} {t : TypeToken} (hbefore : Blanks before)
      (hatom : Atom atom t) (hafter : Blanks after) : Denotes (before ++ atom ++ after) t

/-- A text without blanks around it denotes a token. -/
inductive Atom : List Char → TypeToken → Prop where
  | word {cs : List Char} {word : String} {t : TypeToken} (hword : Word word t)
      (hcs : Spells word cs) : Atom cs t
  | listOf {word gap item : List Char} {t : TypeToken} (hword : Spells "list" word)
      (hgap : Blanks gap) (hitem : Denotes item t) :
      Atom (word ++ gap ++ '[' :: item ++ [']']) (.listOf t)
  | dictOf {word gap key value : List Char} {k v : TypeToken} (hword : Spells "dict" word)
      (hgap : Blanks gap) (hkey : Denotes key k) (hvalue : Denotes value v) :
      Atom (word ++ gap ++ '[' :: (key ++ ',' :: value) ++ [']']) (.dictOf k v)

end

/-- No record stands in the token. -/
def RecordFree : TypeToken → Prop
  | .listOf item => item.RecordFree
  | .dictOf key value => key.RecordFree ∧ value.RecordFree
  | .record _ _ => False
  | _ => True

theorem Word.recordFree {word : String} {t : TypeToken} (h : Word word t) : t.RecordFree := by
  cases h <;> trivial

theorem Denotes.recordFree {cs : List Char} {t : TypeToken} (h : Denotes cs t) :
    t.RecordFree := by
  induction t generalizing cs with
  | listOf item ih =>
    obtain ⟨-, hatom, -⟩ := h
    cases hatom with
    | word hword _ => exact hword.recordFree
    | listOf _ _ hitem => exact ih hitem
  | dictOf key value ihkey ihvalue =>
    obtain ⟨-, hatom, -⟩ := h
    cases hatom with
    | word hword _ => exact hword.recordFree
    | dictOf _ _ hkey hvalue => exact ⟨ihkey hkey, ihvalue hvalue⟩
  | record name fields =>
    obtain ⟨-, hatom, -⟩ := h
    cases hatom with
    | word hword _ => exact hword.recordFree
  | _ => trivial

/-! ## Parts -/

theorem atom?_eq_some_iff {cs : List Char} {t : TypeToken} :
    atom? cs = some t ↔ ∃ word, Word word t ∧ cs = word.toList := by
  constructor
  · intro h
    have hmem := Entries.mem_of_lookup_eq_some h
    have hword : Word (String.ofList cs) t := by
      simp only [atoms, List.mem_cons, Prod.mk.injEq, List.not_mem_nil, or_false] at hmem
      rcases hmem with h | h | h | h | h | h | h | h | h | h <;> rw [h.1, h.2] <;> constructor
    exact ⟨_, hword, String.toList_ofList.symm⟩
  · rintro ⟨word, hword, rfl⟩
    cases hword <;> rfl

theorem Word.letters {word : String} {t : TypeToken} (h : Word word t) :
    ∀ c ∈ word.toList, 97 ≤ c.toNat ∧ c.toNat ≤ 122 := by
  have hall : word.toList.all (fun c => decide (97 ≤ c.toNat ∧ c.toNat ≤ 122)) = true := by
    cases h <;> rfl
  simpa using hall

theorem Word.bracket_notMem {word : String} {t : TypeToken} (h : Word word t) :
    '[' ∉ word.toList := by
  intro hmem
  exact absurd (h.letters _ hmem) (by decide)

theorem dropWord?_eq_some_iff {word cs rest : List Char} :
    dropWord? word cs = some rest ↔ cs = word ++ rest := by
  induction word generalizing cs with
  | nil => simp [dropWord?]
  | cons w word ih =>
    cases cs with
    | nil => simp [dropWord?]
    | cons c cs =>
      by_cases h : w = c
      · simp [dropWord?, h, ih]
      · simp [dropWord?, h, Ne.symm h]

theorem dropClosing?_eq_some_iff {cs rest : List Char} :
    dropClosing? cs = some rest ↔ cs = rest ++ [']'] := by
  induction cs generalizing rest with
  | nil => simp [dropClosing?]
  | cons c cs ih =>
    cases cs with
    | nil =>
      by_cases h : c = ']'
      · simp [dropClosing?, h, eq_comm]
      · simp [dropClosing?, h, List.singleton_eq_append_iff, Ne.symm h]
    | cons d ds =>
      simp only [dropClosing?, Option.map_eq_some_iff, ih]
      cases rest with
      | nil => simp
      | cons r rest => simp [eq_comm, and_comm]

theorem argument?_eq_some_iff {name token inner : List Char} :
    argument? name token = some inner ↔
      ∃ gap, Blanks gap ∧ token = name ++ gap ++ '[' :: inner ++ [']'] := by
  simp only [argument?, Option.bind_eq_bind, Option.bind_eq_some_iff, dropWord?_eq_some_iff]
  constructor
  · rintro ⟨after, rfl, h⟩
    obtain ⟨gap, hgap, hafter⟩ := Text.exists_eq_append_trimStart after
    split at h
    case h_1 rest hrest =>
      rw [dropClosing?_eq_some_iff] at h
      refine ⟨gap, hgap, ?_⟩
      rw [hafter, hrest, h]
      simp
    case h_2 => cases h
  · rintro ⟨gap, hgap, rfl⟩
    refine ⟨gap ++ '[' :: inner ++ [']'], by simp, ?_⟩
    have htrim : Text.trimStart (gap ++ '[' :: inner ++ [']']) = '[' :: (inner ++ [']']) := by
      rw [List.append_assoc, Text.trimStart_append hgap]
      exact Text.trimStart_eq_self (by simp; decide)
    rw [htrim]
    exact dropClosing?_eq_some_iff.2 rfl

/-! ## Splitting at commas -/

theorem exists_splitAtCommas_eq (depth : Nat) (cs : List Char) :
    ∃ part parts, splitAtCommas depth cs = part :: parts := by
  have hcons (c : Char) (parts : List (List Char)) :
      ∃ part more, consFirst c parts = part :: more := by
    cases parts with
    | nil => exact ⟨_, _, rfl⟩
    | cons part parts => exact ⟨_, _, rfl⟩
  cases cs with
  | nil => exact ⟨_, _, rfl⟩
  | cons c cs =>
    rw [splitAtCommas]
    split
    · exact ⟨_, _, rfl⟩
    · split
      · exact hcons _ _
      · split <;> exact hcons _ _

theorem intercalate_consFirst (c : Char) (parts : List (List Char)) :
    [','].intercalate (consFirst c parts) = c :: [','].intercalate parts := by
  cases parts with
  | nil => rfl
  | cons part parts =>
    cases parts with
    | nil => rfl
    | cons => simp [consFirst, List.intercalate_cons_cons]

/-- The parts put together give the text again. -/
theorem intercalate_splitAtCommas (depth : Nat) (cs : List Char) :
    [','].intercalate (splitAtCommas depth cs) = cs := by
  induction cs generalizing depth with
  | nil => rfl
  | cons c cs ih =>
    rw [splitAtCommas]
    split
    case isTrue h =>
      obtain ⟨part, parts, heq⟩ := exists_splitAtCommas_eq 0 cs
      have hrest := ih 0
      rw [heq] at hrest ⊢
      rw [List.intercalate_cons_cons, hrest, h.1]
      rfl
    case isFalse h =>
      split
      · rw [intercalate_consFirst, ih]
      · split <;> rw [intercalate_consFirst, ih]

/-- A text that is not split, at whatever depth of brackets it stands: the first part of what
follows it goes on after it. -/
def Whole (cs : List Char) : Prop :=
  ∀ depth rest part parts, splitAtCommas depth rest = part :: parts →
    splitAtCommas depth (cs ++ rest) = (cs ++ part) :: parts

theorem Whole.append {as bs : List Char} (ha : Whole as) (hb : Whole bs) : Whole (as ++ bs) := by
  intro depth rest part parts h
  rw [List.append_assoc, List.append_assoc]
  exact ha depth _ _ _ (hb depth rest part parts h)

/-- A character that is neither a comma nor a bracket. -/
def Plain (c : Char) : Prop :=
  c ≠ ',' ∧ c ≠ '[' ∧ c ≠ ']'

instance (c : Char) : Decidable (Plain c) :=
  inferInstanceAs (Decidable (_ ∧ _))

theorem whole_of_plain {cs : List Char} (h : ∀ c ∈ cs, Plain c) : Whole cs := by
  induction cs with
  | nil =>
    intro depth rest part parts hrest
    exact hrest
  | cons c cs ih =>
    obtain ⟨⟨hcomma, hopen, hclose⟩, hcs⟩ := List.forall_mem_cons.1 h
    intro depth rest part parts hrest
    have htail := ih hcs depth rest part parts hrest
    simp [splitAtCommas, hcomma, hopen, hclose, htail, consFirst]

/-- Inside brackets commas do not split. -/
theorem splitAtCommas_comma {depth : Nat} {rest part : List Char} {parts : List (List Char)}
    (h : splitAtCommas (depth + 1) rest = part :: parts) :
    splitAtCommas (depth + 1) (',' :: rest) = (',' :: part) :: parts := by
  simp [splitAtCommas, h, consFirst]

theorem splitAtCommas_closing {depth : Nat} {rest part : List Char} {parts : List (List Char)}
    (h : splitAtCommas depth rest = part :: parts) :
    splitAtCommas (depth + 1) (']' :: rest) = (']' :: part) :: parts := by
  simp [splitAtCommas, h, consFirst]

theorem splitAtCommas_opening {depth : Nat} {rest part : List Char} {parts : List (List Char)}
    (h : splitAtCommas (depth + 1) rest = part :: parts) :
    splitAtCommas depth ('[' :: rest) = ('[' :: part) :: parts := by
  simp [splitAtCommas, h, consFirst]

theorem Whole.bracket {item : List Char} (h : Whole item) : Whole ('[' :: item ++ [']']) := by
  intro depth rest part parts hrest
  have hitem := h (depth + 1) _ _ _ (splitAtCommas_closing hrest)
  simpa using splitAtCommas_opening hitem

theorem Whole.bracketPair {key value : List Char} (hkey : Whole key) (hvalue : Whole value) :
    Whole ('[' :: (key ++ ',' :: value) ++ [']']) := by
  intro depth rest part parts hrest
  have hvalue' := hvalue (depth + 1) _ _ _ (splitAtCommas_closing hrest)
  have hkey' := hkey (depth + 1) _ _ _ (splitAtCommas_comma hvalue')
  simpa using splitAtCommas_opening hkey'

/-- Two texts that are not split, with a comma between them, are the two parts. -/
theorem splitAtCommas_pair {key value : List Char} (hkey : Whole key) (hvalue : Whole value) :
    splitAtCommas 0 (key ++ ',' :: value) = [key, value] := by
  have hlast : splitAtCommas 0 value = [value] := by
    simpa using hvalue 0 [] [] [] rfl
  have hcomma : splitAtCommas 0 (',' :: value) = [] :: [value] := by
    simp [splitAtCommas, hlast]
  simpa using hkey 0 _ _ _ hcomma

theorem splitPair?_eq_some {arguments key value : List Char}
    (h : splitPair? arguments = some (key, value)) :
    ∃ p q, arguments = p ++ ',' :: q ∧ key = Text.trim p ∧ value = Text.trim q := by
  rw [splitPair?] at h
  split at h
  case h_1 k v hparts =>
    obtain ⟨p, rest, hsplit, rfl, hrest⟩ := List.map_eq_cons_iff.1 hparts
    obtain ⟨q, more, rfl, rfl, hmore⟩ := List.map_eq_cons_iff.1 hrest
    obtain rfl := List.map_eq_nil_iff.1 hmore
    have htext := intercalate_splitAtCommas 0 arguments
    rw [hsplit] at htext
    refine ⟨p, q, by simpa [List.intercalate] using htext.symm, ?_⟩
    split at h
    · cases h
    · simpa [eq_comm] using h
  case h_2 => cases h

/-! ## The reader -/

theorem normalize_trim (raw : List Char) : normalize (Text.trim raw) = normalize raw := by
  rw [normalize, Text.trim_trim, normalize]

theorem normalize_map_toLower (raw : List Char) :
    normalize (raw.map Char.toLower) = normalize raw := by
  rw [normalize, Text.trim_map_toLower, List.map_map, normalize]
  refine List.map_congr_left fun c _ => ?_
  exact Text.toLower_toLower c

theorem atom?_eq_none_of_argument? {name token inner : List Char}
    (h : argument? name token = some inner) : atom? token = none := by
  obtain ⟨gap, -, rfl⟩ := argument?_eq_some_iff.1 h
  rw [Option.eq_none_iff_forall_ne_some]
  intro t ht
  obtain ⟨word, hword, heq⟩ := atom?_eq_some_iff.1 ht
  refine hword.bracket_notMem ?_
  rw [← heq]
  simp

theorem argument?_list_eq_none {token inner : List Char}
    (h : argument? ['d', 'i', 'c', 't'] token = some inner) :
    argument? ['l', 'i', 's', 't'] token = none := by
  obtain ⟨gap, -, rfl⟩ := argument?_eq_some_iff.1 h
  rw [Option.eq_none_iff_forall_ne_some]
  intro item hitem
  obtain ⟨gap', -, heq⟩ := argument?_eq_some_iff.1 hitem
  simp at heq

theorem ofChars_of_list {raw item : List Char}
    (h : argument? ['l', 'i', 's', 't'] (normalize raw) = some item) :
    ofChars raw = (ofChars item).map .listOf := by
  rw [ofChars, atom?_eq_none_of_argument? h]
  dsimp only
  split
  case h_1 item' hitem =>
    obtain rfl : item = item' := Option.some.inj (h.symm.trans hitem)
    rfl
  case h_2 hnone =>
    rw [h] at hnone
    cases hnone

theorem ofChars_of_dict {raw arguments : List Char}
    (h : argument? ['d', 'i', 'c', 't'] (normalize raw) = some arguments) :
    ofChars raw = match splitPair? arguments with
      | some (key, value) => do return .dictOf (← ofChars key) (← ofChars value)
      | none => .error (.invalidDict ("dict[" ++ String.ofList arguments ++ "]")) := by
  rw [ofChars, atom?_eq_none_of_argument? h]
  dsimp only
  split
  case h_1 item hitem =>
    rw [argument?_list_eq_none h] at hitem
    cases hitem
  case h_2 =>
    split
    case h_1 arguments' harguments =>
      obtain rfl : arguments = arguments' := Option.some.inj (h.symm.trans harguments)
      split <;> simp_all
    case h_2 hnone =>
      rw [h] at hnone
      cases hnone

/-- The texts that the reader accepts, in terms of what it finds in them. -/
theorem ofChars_eq_ok_iff {raw : List Char} {t : TypeToken} : ofChars raw = .ok t ↔
    atom? (normalize raw) = some t ∨
      (∃ item a, argument? ['l', 'i', 's', 't'] (normalize raw) = some item ∧
        ofChars item = .ok a ∧ t = .listOf a) ∨
      ∃ arguments key value k v, argument? ['d', 'i', 'c', 't'] (normalize raw) = some arguments ∧
        splitPair? arguments = some (key, value) ∧ ofChars key = .ok k ∧ ofChars value = .ok v ∧
        t = .dictOf k v := by
  refine ⟨ofChars_cases, ?_⟩
  rintro (hatom | ⟨item, a, hitem, ha, rfl⟩ |
    ⟨arguments, key, value, k, v, harguments, hpair, hk, hv, rfl⟩)
  · rw [ofChars, hatom]
  · rw [ofChars_of_list hitem, ha]
    rfl
  · rw [ofChars_of_dict harguments, hpair]
    dsimp only
    rw [hk, hv]
    rfl

/-- Texts that differ in blanks around them and in the case of letters denote the same token. -/
theorem ofChars_congr {raw raw' : List Char} (h : normalize raw = normalize raw') {t : TypeToken} :
    ofChars raw = .ok t ↔ ofChars raw' = .ok t := by
  rw [ofChars_eq_ok_iff, ofChars_eq_ok_iff, h]

/-! ## Accepted texts are in the grammar -/

theorem denotes_of_atom {raw : List Char} {t : TypeToken} (h : Atom (Text.trim raw) t) :
    Denotes raw t := by
  obtain ⟨before, after, hbefore, hafter, hraw⟩ := Text.exists_eq_append_trim raw
  rw [hraw]
  exact .padded hbefore h hafter

/-- What stands in brackets in the normalized text stands in brackets in the text itself. -/
theorem exists_trim_eq_of_argument? (name : String) {raw inner : List Char}
    (h : argument? name.toList (normalize raw) = some inner) :
    ∃ word gap inner', Spells name word ∧ Blanks gap ∧ inner'.map Char.toLower = inner ∧
      Text.trim raw = word ++ gap ++ '[' :: inner' ++ [']'] := by
  obtain ⟨gap, hgap, htoken⟩ := argument?_eq_some_iff.1 h
  rw [normalize, List.map_eq_append_iff] at htoken
  obtain ⟨front, close, htrim, hfront, hclose⟩ := htoken
  obtain ⟨head, body, rfl, hhead, hbody⟩ := List.map_eq_append_iff.1 hfront
  obtain ⟨word, gap', rfl, hword, rfl⟩ := List.map_eq_append_iff.1 hhead
  obtain ⟨b, inner', rfl, hb, hinner⟩ := List.map_eq_cons_iff.1 hbody
  obtain ⟨e, more, rfl, he, hmore⟩ := List.map_eq_cons_iff.1 hclose
  obtain rfl := List.map_eq_nil_iff.1 hmore
  rw [Text.toLower_eq_iff (by decide) (by decide)] at hb he
  subst hb he
  exact ⟨word, gap', inner', hword, Text.blanks_map_toLower.1 hgap, hinner, htrim⟩

theorem denotes_of_atom? {raw : List Char} {t : TypeToken} (h : atom? (normalize raw) = some t) :
    Denotes raw t := by
  obtain ⟨word, hword, hraw⟩ := atom?_eq_some_iff.1 h
  exact denotes_of_atom (.word hword hraw)

theorem ofChars_of_map_toLower {raw : List Char} {t : TypeToken}
    (h : ofChars (raw.map Char.toLower) = .ok t) : ofChars raw = .ok t :=
  (ofChars_congr (normalize_map_toLower raw)).1 h

/-- Every text that the reader accepts is in the grammar. -/
theorem denotes_of_ofChars {raw : List Char} {t : TypeToken} (h : ofChars raw = .ok t) :
    Denotes raw t := by
  -- the induction is on the token: its parts are what the parts of the text denote
  induction t generalizing raw with
  | listOf item ih =>
    rcases ofChars_cases h with ha | ⟨text, a, htext, ha, heq⟩ | ⟨_, _, _, _, _, -, -, -, -, heq⟩
    · exact denotes_of_atom? ha
    · obtain rfl : item = a := TypeToken.listOf.inj heq
      obtain ⟨word, gap, inner, hword, hgap, rfl, htrim⟩ :=
        exists_trim_eq_of_argument? "list" htext
      have hitem := ih (ofChars_of_map_toLower ha)
      exact denotes_of_atom (htrim ▸ .listOf hword hgap hitem)
    · cases heq
  | dictOf key value ihkey ihvalue =>
    rcases ofChars_cases h with
      ha | ⟨_, _, -, -, heq⟩ | ⟨text, _, _, k, v, htext, hpair, hk, hv, heq⟩
    · exact denotes_of_atom? ha
    · cases heq
    · obtain ⟨rfl, rfl⟩ := TypeToken.dictOf.inj heq
      obtain ⟨word, gap, inner, hword, hgap, rfl, htrim⟩ :=
        exists_trim_eq_of_argument? "dict" htext
      obtain ⟨p, q, hsplit, rfl, rfl⟩ := splitPair?_eq_some hpair
      obtain ⟨p, rest, rfl, rfl, hrest⟩ := List.map_eq_append_iff.1 hsplit
      obtain ⟨c, q, rfl, hc, rfl⟩ := List.map_eq_cons_iff.1 hrest
      obtain rfl := (Text.toLower_eq_iff (by decide) (by decide)).1 hc
      have hkey := ihkey (ofChars_of_map_toLower ((ofChars_congr (normalize_trim _)).1 hk))
      have hvalue := ihvalue (ofChars_of_map_toLower ((ofChars_congr (normalize_trim _)).1 hv))
      exact denotes_of_atom (htrim ▸ .dictOf hword hgap hkey hvalue)
  | record name fields =>
    rcases ofChars_cases h with ha | ⟨_, _, -, -, heq⟩ | ⟨_, _, _, _, _, -, -, -, -, heq⟩
    · exact denotes_of_atom? ha
    · cases heq
    · cases heq
  | _ =>
    rcases ofChars_cases h with ha | ⟨_, _, -, -, heq⟩ | ⟨_, _, _, _, _, -, -, -, -, heq⟩
    · exact denotes_of_atom? ha
    · cases heq
    · cases heq

/-! ## Texts of the grammar are accepted -/

theorem Word.plain {word : String} {t : TypeToken} (h : Word word t) :
    ∀ c ∈ word.toList, Plain c := by
  intro c hc
  have hletter := h.letters c hc
  refine ⟨?_, ?_, ?_⟩ <;> rintro rfl <;> exact absurd hletter (by decide)

theorem Word.solid {word : String} {t : TypeToken} (h : Word word t) :
    Text.Solid word.toList := by
  have hblank : ∀ c ∈ word.toList, Text.isBlank c = false := by
    intro c hc
    have hletter := h.letters c hc
    exact Text.isBlank_eq_false_of_letter (by omega)
  refine ⟨?_, ?_, ?_⟩
  · cases h <;> simp
  · intro c hc
    exact hblank c (List.mem_of_head? hc)
  · intro c hc
    exact hblank c (List.mem_of_getLast? hc)

theorem plain_of_isBlank {c : Char} (h : Text.isBlank c = true) : Plain c := by
  refine ⟨?_, ?_, ?_⟩ <;> rintro rfl <;> exact absurd h (by decide)

theorem Spells.solid {word : String} {t : TypeToken} (hword : Word word t) {cs : List Char}
    (h : Spells word cs) : Text.Solid cs := by
  rw [← Text.solid_map_toLower, h]
  exact hword.solid

theorem solid_of_bracket {word : List Char} (h : Text.Solid word) (gap inner : List Char) :
    Text.Solid (word ++ gap ++ '[' :: inner ++ [']']) := by
  obtain ⟨c, word, rfl⟩ := List.exists_cons_of_ne_nil h.ne_nil
  refine ⟨by simp, h.head, ?_⟩
  intro d hd
  rw [List.getLast?_concat] at hd
  obtain rfl := Option.some.inj hd
  decide

theorem Atom.solid {cs : List Char} {t : TypeToken} (h : Atom cs t) : Text.Solid cs := by
  cases h with
  | word hword hcs => exact hcs.solid hword
  | listOf hword _ _ => exact solid_of_bracket (hword.solid .list) _ _
  | dictOf hword _ _ _ => exact solid_of_bracket (hword.solid .dict) _ _

theorem normalize_padded {before atom after : List Char} {t : TypeToken} (hbefore : Blanks before)
    (hatom : Atom atom t) (hafter : Blanks after) :
    normalize (before ++ atom ++ after) = atom.map Char.toLower := by
  rw [normalize, hatom.solid.trim_eq hbefore hafter]

theorem whole_of_blanks {cs : List Char} (h : Blanks cs) : Whole (cs.map Char.toLower) := by
  refine whole_of_plain fun c hc => plain_of_isBlank ?_
  exact Text.blanks_map_toLower.2 h c hc

theorem Spells.whole {word : String} {t : TypeToken} (hword : Word word t) {cs : List Char}
    (h : Spells word cs) : Whole (cs.map Char.toLower) := by
  rw [h]
  exact whole_of_plain hword.plain

/-- A text of the grammar is not split. -/
theorem Denotes.whole {cs : List Char} {t : TypeToken} (h : Denotes cs t) :
    Whole (cs.map Char.toLower) := by
  induction t generalizing cs with
  | listOf item ih =>
    obtain ⟨hbefore, hatom, hafter⟩ := h
    rw [List.map_append, List.map_append]
    refine ((whole_of_blanks hbefore).append ?_).append (whole_of_blanks hafter)
    cases hatom with
    | word hword hcs => exact hcs.whole hword
    | listOf hword hgap hitem =>
      have hfront := (hword.whole .list).append (whole_of_blanks hgap)
      simpa using hfront.append (ih hitem).bracket
  | dictOf key value ihkey ihvalue =>
    obtain ⟨hbefore, hatom, hafter⟩ := h
    rw [List.map_append, List.map_append]
    refine ((whole_of_blanks hbefore).append ?_).append (whole_of_blanks hafter)
    cases hatom with
    | word hword hcs => exact hcs.whole hword
    | dictOf hword hgap hkey hvalue =>
      have hfront := (hword.whole .dict).append (whole_of_blanks hgap)
      simpa using hfront.append ((ihkey hkey).bracketPair (ihvalue hvalue))
  | _ =>
    obtain ⟨hbefore, hatom, hafter⟩ := h
    rw [List.map_append, List.map_append]
    refine ((whole_of_blanks hbefore).append ?_).append (whole_of_blanks hafter)
    cases hatom with
    | word hword hcs => exact hcs.whole hword

theorem Denotes.trim_ne_nil {cs : List Char} {t : TypeToken} (h : Denotes cs t) :
    Text.trim (cs.map Char.toLower) ≠ [] := by
  obtain ⟨hbefore, hatom, hafter⟩ := h
  rw [Text.trim_map_toLower, hatom.solid.trim_eq hbefore hafter]
  simpa using hatom.solid.ne_nil

theorem ofChars_of_denotes_word {cs : List Char} {word : String} {t : TypeToken}
    (hword : Word word t) (h : normalize cs = word.toList) : ofChars cs = .ok t :=
  ofChars_eq_ok_iff.2 (.inl (atom?_eq_some_iff.2 ⟨word, hword, h⟩))

/-- The arguments of a dictionary in a text of the grammar are told apart. -/
theorem splitPair?_of_denotes {key value : List Char} {k v : TypeToken} (hkey : Denotes key k)
    (hvalue : Denotes value v) :
    splitPair? (key.map Char.toLower ++ ',' :: value.map Char.toLower) =
      some (Text.trim (key.map Char.toLower), Text.trim (value.map Char.toLower)) := by
  rw [splitPair?, splitAtCommas_pair hkey.whole hvalue.whole]
  simp [hkey.trim_ne_nil, hvalue.trim_ne_nil]

theorem argument?_of_spells (name : String) {cs word gap inner : List Char}
    (hword : Spells name word) (hgap : Blanks gap)
    (h : normalize cs = (word ++ gap ++ '[' :: inner ++ [']']).map Char.toLower) :
    argument? name.toList (normalize cs) = some (inner.map Char.toLower) := by
  refine argument?_eq_some_iff.2 ⟨gap.map Char.toLower, Text.blanks_map_toLower.2 hgap, ?_⟩
  rw [h, ← hword]
  simp

/-- Every text of the grammar is accepted. -/
theorem ofChars_of_denotes {cs : List Char} {t : TypeToken} (h : Denotes cs t) :
    ofChars cs = .ok t := by
  have hlower {raw : List Char} {t : TypeToken} (h : ofChars raw = .ok t) :
      ofChars (raw.map Char.toLower) = .ok t := (ofChars_congr (normalize_map_toLower raw)).2 h
  have htrim {raw : List Char} {t : TypeToken} (h : ofChars raw = .ok t) :
      ofChars (Text.trim raw) = .ok t := (ofChars_congr (normalize_trim raw)).2 h
  induction t generalizing cs with
  | listOf item ih =>
    obtain ⟨hbefore, hatom, hafter⟩ := h
    have hnormal := normalize_padded hbefore hatom hafter
    cases hatom with
    | word hword hcs => exact ofChars_of_denotes_word hword (hnormal.trans hcs)
    | listOf hword hgap hitem =>
      rw [ofChars_of_list (argument?_of_spells "list" hword hgap hnormal), hlower (ih hitem)]
      rfl
  | dictOf key value ihkey ihvalue =>
    obtain ⟨hbefore, hatom, hafter⟩ := h
    have hnormal := normalize_padded hbefore hatom hafter
    cases hatom with
    | word hword hcs => exact ofChars_of_denotes_word hword (hnormal.trans hcs)
    | dictOf hword hgap hkey hvalue =>
      have harguments := argument?_of_spells "dict" hword hgap hnormal
      rw [List.map_append, List.map_cons] at harguments
      have hpair := splitPair?_of_denotes hkey hvalue
      exact ofChars_eq_ok_iff.2 (.inr (.inr ⟨_, _, _, _, _, harguments, hpair,
        htrim (hlower (ihkey hkey)), htrim (hlower (ihvalue hvalue)), rfl⟩))
  | _ =>
    obtain ⟨hbefore, hatom, hafter⟩ := h
    have hnormal := normalize_padded hbefore hatom hafter
    cases hatom with
    | word hword hcs => exact ofChars_of_denotes_word hword (hnormal.trans hcs)

theorem ofChars_eq_ok_iff_denotes {cs : List Char} {t : TypeToken} :
    ofChars cs = .ok t ↔ Denotes cs t :=
  ⟨denotes_of_ofChars, ofChars_of_denotes⟩

/-! ## Rejected texts -/

/-- The two errors of texts that are no token: an unknown name, and a dictionary without its two
arguments. -/
def Rejection (e : SchemaError) : Prop :=
  ∃ text, e = .unsupportedType text ∨ e = .invalidDict text

theorem rejection_of_ofChars {raw : List Char} {e : SchemaError} (h : ofChars raw = .error e) :
    Rejection e := by
  induction raw using ofChars.induct generalizing e with
  | case1 raw t hatom =>
    rw [ofChars, hatom] at h
    cases h
  | case2 raw hatom item hitem ih =>
    rw [ofChars_of_list hitem, Except.map_eq_error_iff] at h
    exact ih h
  | case3 raw hatom hlist arguments harguments key value hpair ihkey ihvalue =>
    rw [ofChars_of_dict harguments, hpair] at h
    dsimp only at h
    rcases Except.bind_eq_error_iff.1 h with hkey | ⟨k, -, h⟩
    · exact ihkey hkey
    · rcases Except.bind_eq_error_iff.1 h with hvalue | ⟨v, -, h⟩
      · exact ihvalue hvalue
      · cases h
  | case4 raw hatom hlist arguments harguments hpair =>
    rw [ofChars_of_dict harguments, hpair] at h
    exact ⟨_, .inr (Except.error.inj h).symm⟩
  | case5 raw hatom hlist hdict =>
    have hraw : ofChars raw = .error (.unsupportedType (String.ofList (Text.trim raw))) := by
      rw [ofChars, hatom]
      dsimp only
      split
      · simp_all
      · split
        · simp_all
        · rfl
    rw [hraw] at h
    exact ⟨_, .inl (Except.error.inj h).symm⟩

/-- The reader accepts the texts of the grammar, each as the token that it denotes, and rejects
every other text with one of two errors. What it reads has no record in it. -/
theorem ofText_grammar (s : String) :
    (∀ t, ofText s = .ok t ↔ Denotes s.toList t) ∧
      ((∀ t, ¬ Denotes s.toList t) → ∃ e, ofText s = .error e ∧ Rejection e) ∧
      ∀ t, ofText s = .ok t → t.RecordFree := by
  refine ⟨fun t => ofChars_eq_ok_iff_denotes, ?_, ?_⟩
  · intro hno
    cases htoken : ofText s with
    | ok t => exact absurd (denotes_of_ofChars htoken) (hno t)
    | error e => exact ⟨e, rfl, rejection_of_ofChars htoken⟩
  · intro t ht
    exact (denotes_of_ofChars ht).recordFree

end TypedWorkflow.TypeToken
