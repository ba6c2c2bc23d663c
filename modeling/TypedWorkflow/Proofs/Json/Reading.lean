import TypedWorkflow.Proofs.Json.Document
import TypedWorkflow.Proofs.Json.Grammar

/-!
# Reading what the grammar derives

The text of a value is read up to its end, wherever it stands. What is read of it does not depend on
what follows, nor on how far inside other values it stands, unless it stands too deep: so it is what
is read of the text alone. From this the reading of an object is the list of its members, each with
what is read of its value.

Numbers that are out of range and values that are nested too deep are no exception. They are read as
documents that have no value, and the reading goes on after them.

## Main definitions

* `JsonText.alone`: what is read of a text alone.
* `JsonText.ReadsAlone`, `JsonText.ValueText.readsAlone`: every value is read as its text alone.
* `JsonText.alone_eq_str_iff`: the texts that are read as strings.
* `JsonText.readText_wholeObject`: what is read of the text of an object.
-/

namespace TypedWorkflow.JsonText

/-! ## Parts of objects and arrays -/

theorem readValue_append {gap : List Char} (h : Gap gap) (fuel depth : Nat) (cs : List Char) :
    Document.readValue fuel depth (gap ++ cs) = Document.readValue fuel depth cs := by
  cases fuel with
  | zero => rfl
  | succ fuel => rw [Document.readValue, Document.readValue, skipSpace_append h]

theorem readItems_append {gap : List Char} (h : Gap gap) (fuel depth : Nat) (first : Bool)
    (cs : List Char) :
    Document.readItems fuel depth first (gap ++ cs) = Document.readItems fuel depth first cs := by
  cases fuel with
  | zero => rfl
  | succ fuel => rw [Document.readItems, Document.readItems, skipSpace_append h]

theorem readEntries_append {gap : List Char} (h : Gap gap) (fuel depth : Nat) (first : Bool)
    (cs : List Char) :
    Document.readEntries fuel depth first (gap ++ cs) =
      Document.readEntries fuel depth first cs := by
  cases fuel with
  | zero => rfl
  | succ fuel => rw [Document.readEntries, Document.readEntries, skipSpace_append h]

theorem readField_append {gap : List Char} (h : Gap gap) (fuel depth : Nat) (key : String)
    (cs : List Char) :
    Document.readField fuel depth key (gap ++ cs) = Document.readField fuel depth key cs := by
  cases fuel with
  | zero => rfl
  | succ fuel => rw [Document.readField, Document.readField, skipSpace_append h]

/-! ## What is read of a text alone -/

/-- What is read of a text alone, where at most `depth` brackets open inside each other. -/
def alone (depth : Nat) (text : List Char) : Document :=
  (Document.readWithin depth text).root

/-- A text is read to its end, wherever it stands, as it is read alone. If it has a value, it has
this value too where it stands less deep. -/
structure ReadsAlone (text : List Char) : Prop where
  read : ∀ {fuel rest}, 4 * text.length < fuel → Follows rest → ∀ depth,
    Document.readValue fuel depth (text ++ rest) = ⟨alone depth text, .ok rest⟩
  deeper : ∀ {depth v}, (alone depth text).toJson = .ok v → (alone (depth + 1) text).toJson = .ok v

/-- What is read of a text wherever it stands is read of it alone. -/
theorem alone_eq {text : List Char} {d : Nat → Document}
    (h : ∀ fuel rest, 4 * text.length < fuel → Follows rest → ∀ depth,
      Document.readValue fuel depth (text ++ rest) = ⟨d depth, .ok rest⟩) (depth : Nat) :
    alone depth text = d depth := by
  have halone := h (4 * text.length + 4) [] (by omega) follows_nil depth
  rw [List.append_nil] at halone
  rw [alone, Document.readWithin, halone]

theorem ReadsAlone.of_read {text : List Char} {d : Nat → Document}
    (hread : ∀ fuel rest, 4 * text.length < fuel → Follows rest → ∀ depth,
      Document.readValue fuel depth (text ++ rest) = ⟨d depth, .ok rest⟩)
    (hdeeper : ∀ depth v, (d depth).toJson = .ok v → (d (depth + 1)).toJson = .ok v) :
    ReadsAlone text := by
  refine ⟨fun hfuel hrest depth => ?_, fun {depth v} hv => ?_⟩
  · rw [alone_eq hread]
    exact hread _ _ hfuel hrest depth
  · rw [alone_eq hread] at hv ⊢
    exact hdeeper depth v hv

/-- The text of a scalar. -/
theorem ReadsAlone.of_scalar {text : List Char} {d : Document}
    (hread : ∀ fuel rest, Follows rest → ∀ depth,
      Document.readValue (fuel + 1) depth (text ++ rest) = ⟨d, .ok rest⟩) : ReadsAlone text := by
  refine .of_read (d := fun _ => d) (fun fuel rest hfuel hrest depth => ?_) fun _ _ hv => hv
  obtain ⟨fuel, rfl⟩ : ∃ left, fuel = left + 1 := ⟨fuel - 1, by omega⟩
  exact hread fuel rest hrest depth

/-! ## Scalars -/

theorem expectWord_append (word rest : List Char) :
    Lexer.expectWord word (word ++ rest) = .ok rest := by
  induction word with
  | nil => rfl
  | cons c word ih => rw [List.cons_append, Lexer.expectWord, if_pos rfl, ih]

theorem readsAlone_word {text : List Char} (h : text ∈ words) : ReadsAlone text := by
  have hread {c : Char} {word : List Char} {d : Document}
      (hword : ∀ fuel depth rest, Document.readValue (fuel + 1) depth (c :: rest) =
        .ofWord d word rest) : ReadsAlone (c :: word) := by
    refine .of_scalar (d := d) fun fuel rest _ depth => ?_
    rw [List.cons_append, hword, Reading.ofWord, expectWord_append]
  rw [words, List.mem_cons, List.mem_cons, List.mem_singleton] at h
  rcases h with rfl | rfl | rfl
  · exact hread (d := .null) fun _ _ _ => rfl
  · exact hread (d := .bool true) fun _ _ _ => rfl
  · exact hread (d := .bool false) fun _ _ _ => rfl

theorem readsAlone_number {text : List Char} (h : NumberText text) : ReadsAlone text := by
  obtain ⟨l, hl⟩ := h.exists_takeLiteral
  obtain ⟨c, cs, rfl, hc⟩ := h.exists_cons
  have hne := ne_of_number_start hc
  simp only [List.mem_cons, List.not_mem_nil, or_false, not_or] at hne
  refine .of_scalar (d := match l.value with | .ok n => .num n | .error e => .broken e)
    fun fuel rest hrest depth => ?_
  have hspace : Lexer.isSpace c = false := by simp [Lexer.isSpace, hne]
  have hread : Document.readValue (fuel + 1) depth (c :: cs ++ rest) =
      .ofScalar .num (Lexer.readNumber (c :: cs ++ rest)) (Lexer.passNumber (c :: cs ++ rest)) := by
    rw [List.cons_append, Document.readValue, skipSpace_cons hspace]
    simp [hne, hc]
  rw [hread, Lexer.readNumber, Lexer.passNumber, hl rest hrest]
  cases hvalue : l.value <;> simp [Reading.ofScalar, bind, Except.bind, hvalue]

theorem readValue_stringText {s : String} {text : List Char} (h : StringText s text)
    (fuel depth : Nat) (rest : List Char) :
    Document.readValue (fuel + 1) depth (text ++ rest) = ⟨.str s, .ok rest⟩ := by
  obtain ⟨h⟩ := h
  have hspace : Lexer.isSpace '"' = false := rfl
  simp [Document.readValue, skipSpace_cons hspace, readString_spells h, passString_spells h,
    Reading.ofScalar]

theorem readsAlone_string {s : String} {text : List Char} (h : StringText s text) :
    ReadsAlone text :=
  .of_scalar fun fuel rest _ depth => readValue_stringText h fuel depth rest

/-- The text of a value starts with no blank and no closing bracket, and with a quotation mark only
if it is a string. -/
theorem ValueText.exists_cons {text : List Char} (h : ValueText text) :
    ∃ c cs, text = c :: cs ∧ Lexer.isSpace c = false ∧ c ≠ ']' ∧
      (c = '"' → ∃ s, StringText s text) := by
  cases h with
  | word h =>
    rw [words, List.mem_cons, List.mem_cons, List.mem_singleton] at h
    rcases h with rfl | rfl | rfl <;>
      exact ⟨_, _, rfl, rfl, by decide, fun h => absurd h (by decide)⟩
  | number h =>
    obtain ⟨c, cs, rfl, hc⟩ := h.exists_cons
    have hne := ne_of_number_start hc
    simp only [List.mem_cons, List.not_mem_nil, or_false, not_or] at hne
    exact ⟨c, cs, rfl, by simp [Lexer.isSpace, hne]⟩
  | string h =>
    obtain ⟨cs, rfl⟩ := h.exists_cons
    exact ⟨_, _, rfl, rfl, by decide, fun _ => ⟨_, h⟩⟩
  | _ => exact ⟨_, _, rfl, rfl, by decide, fun h => absurd h (by decide)⟩

/-! ## Arrays -/

section Arrays

variable {i : Item} {items : List Item} {fuel : Nat} {rest : List Char}

theorem Item.length_value_le (i : Item) : i.value.length ≤ i.text.length := by
  simp only [Item.text, List.length_append]
  omega

theorem follows_separator {texts : List (List Char)} {close : Char}
    (hclose : close = ']' ∨ close = '\x7d') :
    Follows (texts.flatMap (',' :: ·) ++ close :: rest) := by
  cases texts with
  | nil => rcases hclose with rfl | rfl <;> simp [Follows]
  | cons text texts => simp [Follows]

/-- An item is read as its value, and then the items after it. -/
theorem readItem_value (hi : Gap i.before ∧ Gap i.after) (hvalue : ReadsAlone i.value)
    (hfuel : 4 * i.value.length < fuel) (hrest : Follows rest) (depth : Nat) :
    Document.readItem (fuel + 1) depth (i.value ++ (i.after ++ rest)) =
      (Document.readItems fuel depth false rest).cons (alone depth i.value) := by
  rw [Document.readItem, hvalue.read hfuel (hrest.append hi.2)]
  dsimp only
  rw [readItems_append hi.2]

theorem readItems_close (fuel depth : Nat) (first : Bool) (rest : List Char) :
    Document.readItems (fuel + 1) depth first (']' :: rest) = .closed rest := by
  have hspace : Lexer.isSpace ']' = false := rfl
  rw [Document.readItems, skipSpace_cons hspace]
  rfl

theorem readItems_empty {gap : List Char} (h : Gap gap) (fuel depth : Nat) (rest : List Char) :
    Document.readItems (fuel + 1) depth true (gap ++ ']' :: rest) = ⟨[], none, .ok rest⟩ := by
  rw [readItems_append h, readItems_close]
  rfl

theorem readItems_first (hi : Gap i.before ∧ Gap i.after) (hvalue : ValueText i.value)
    (fuel depth : Nat) (rest : List Char) :
    Document.readItems (fuel + 1) depth true (i.text ++ rest) =
      Document.readItem fuel depth (i.value ++ (i.after ++ rest)) := by
  obtain ⟨c, cs, hc, hspace, hclose, -⟩ := hvalue.exists_cons
  rw [Item.text, List.append_assoc, List.append_assoc, readItems_append hi.1, hc, List.cons_append,
    Document.readItems, skipSpace_cons hspace]
  dsimp only
  rw [if_neg hclose, if_pos rfl]

theorem readItems_next (hi : Gap i.before ∧ Gap i.after) (hvalue : ValueText i.value)
    (fuel depth : Nat) (rest : List Char) :
    Document.readItems (fuel + 1) depth false (',' :: i.text ++ rest) =
      Document.readItem fuel depth (i.value ++ (i.after ++ rest)) := by
  have hcomma : Lexer.isSpace ',' = false := rfl
  obtain ⟨c, cs, hc, hspace, hclose, -⟩ := hvalue.exists_cons
  rw [List.cons_append, Document.readItems, skipSpace_cons hcomma, Item.text, List.append_assoc,
    List.append_assoc, hc, List.cons_append]
  dsimp only
  rw [skipSpace_append hi.1, skipSpace_cons hspace]
  dsimp only
  rw [if_neg (by decide), if_neg (by decide), if_pos rfl, if_neg hclose]

/-- Items after a comma each are read to the end of the array. -/
theorem readItems_rest (hgaps : ∀ i ∈ items, Gap i.before ∧ Gap i.after)
    (hvalues : ∀ i ∈ items, ValueText i.value) (halone : ∀ i ∈ items, ReadsAlone i.value)
    (hfuel : 4 * ((items.map Item.text).flatMap (',' :: ·)).length < fuel) (depth : Nat)
    (rest : List Char) :
    Document.readItems fuel depth false
        ((items.map Item.text).flatMap (',' :: ·) ++ ']' :: rest) =
      ⟨items.map fun i => alone depth i.value, none, .ok rest⟩ := by
  induction items generalizing fuel with
  | nil =>
    obtain ⟨fuel, rfl⟩ : ∃ left, fuel = left + 1 := ⟨fuel - 1, by omega⟩
    exact readItems_close fuel depth false rest
  | cons i items ih =>
    obtain ⟨hi, hgaps⟩ := List.forall_mem_cons.1 hgaps
    obtain ⟨hvalue, hvalues⟩ := List.forall_mem_cons.1 hvalues
    obtain ⟨hread, halone⟩ := List.forall_mem_cons.1 halone
    rw [List.map_cons, List.flatMap_cons, List.length_append, List.length_cons] at hfuel
    have hlength := i.length_value_le
    obtain ⟨fuel, rfl⟩ : ∃ left, fuel = left + 2 := ⟨fuel - 2, by omega⟩
    rw [List.map_cons, List.flatMap_cons, List.append_assoc, readItems_next hi hvalue,
      readItem_value hi hread (by omega) (follows_separator (.inl rfl)),
      ih hgaps hvalues halone (by omega)]
    rfl

/-- The items of an array are read to its end. -/
theorem readItems_separated (hne : items ≠ []) (hgaps : ∀ i ∈ items, Gap i.before ∧ Gap i.after)
    (hvalues : ∀ i ∈ items, ValueText i.value) (halone : ∀ i ∈ items, ReadsAlone i.value)
    (hfuel : 4 * (separated (items.map Item.text)).length + 2 < fuel) (depth : Nat)
    (rest : List Char) :
    Document.readItems fuel depth true (separated (items.map Item.text) ++ ']' :: rest) =
      ⟨items.map fun i => alone depth i.value, none, .ok rest⟩ := by
  obtain ⟨i, items, rfl⟩ := List.exists_cons_of_ne_nil hne
  obtain ⟨hi, hgaps⟩ := List.forall_mem_cons.1 hgaps
  obtain ⟨hvalue, hvalues⟩ := List.forall_mem_cons.1 hvalues
  obtain ⟨hread, halone⟩ := List.forall_mem_cons.1 halone
  rw [List.map_cons, separated, List.length_append] at hfuel
  have hlength := i.length_value_le
  obtain ⟨fuel, rfl⟩ : ∃ left, fuel = left + 2 := ⟨fuel - 2, by omega⟩
  rw [List.map_cons, separated, List.append_assoc, readItems_first hi hvalue,
    readItem_value hi hread (by omega) (follows_separator (.inl rfl)),
    readItems_rest hgaps hvalues halone (by omega)]
  rfl

theorem readValue_bracket (fuel depth : Nat) (cs : List Char) :
    Document.readValue (fuel + 1) depth ('[' :: cs) =
      let r := Document.readItems fuel (depth - 1) true cs
      ⟨if depth = 0 then .deep .list else .arr r.items r.fault, r.extent⟩ := by
  have hspace : Lexer.isSpace '[' = false := rfl
  rw [Document.readValue, skipSpace_cons hspace]
  rfl

theorem toJsonItems_map_mono {α : Type} {f g : α → Document} {xs : List α} {vs : List Json}
    (h : ∀ x ∈ xs, ∀ v, (f x).toJson = .ok v → (g x).toJson = .ok v)
    (hvs : Document.toJsonItems (xs.map f) = .ok vs) :
    Document.toJsonItems (xs.map g) = .ok vs := by
  induction xs generalizing vs with
  | nil => exact hvs
  | cons x xs ih =>
    obtain ⟨hx, hxs⟩ := List.forall_mem_cons.1 h
    obtain ⟨v, hv, hrest⟩ := Except.bind_eq_ok_iff.1 hvs
    obtain ⟨more, hmore, hvs⟩ := Except.bind_eq_ok_iff.1 hrest
    exact Except.bind_eq_ok_iff.2 ⟨v, hx v hv, Except.bind_eq_ok_iff.2 ⟨more, ih hxs hmore, hvs⟩⟩

/-- An array is read as its items. -/
theorem readsAlone_array {inside : List Char} {texts : List (List Char)}
    (hread : ∀ fuel depth rest, 4 * inside.length + 2 < fuel →
      Document.readItems fuel depth true (inside ++ ']' :: rest) =
        ⟨texts.map (alone depth), none, .ok rest⟩)
    (halone : ∀ text ∈ texts, ReadsAlone text) : ReadsAlone ('[' :: inside ++ [']']) := by
  refine .of_read (d := fun depth => if depth = 0 then .deep .list else
    .arr (texts.map (alone (depth - 1))) none) (fun fuel rest hfuel _ depth => ?_) ?_
  · rw [List.length_append, List.length_cons, List.length_singleton] at hfuel
    obtain ⟨fuel, rfl⟩ : ∃ left, fuel = left + 1 := ⟨fuel - 1, by omega⟩
    have htext : '[' :: inside ++ [']'] ++ rest = '[' :: (inside ++ ']' :: rest) := by simp
    rw [htext, readValue_bracket, hread fuel (depth - 1) rest (by omega)]
  · intro depth v hv
    cases depth with
    | zero => cases hv
    | succ depth =>
      obtain ⟨vs, hvs, hv⟩ := Except.bind_eq_ok_iff.1 hv
      refine Except.bind_eq_ok_iff.2 ⟨vs, ?_, hv⟩
      exact toJsonItems_map_mono (fun text htext v => (halone text htext).deeper) hvs

end Arrays

/-! ## Objects -/

section Objects

variable {m : Member} {members : List Member} {fuel : Nat} {rest : List Char}

theorem Member.length_value_le (m : Member) : m.value.length ≤ m.text.length := by
  simp only [Member.text, Member.tail, List.length_append, List.length_cons]
  omega

/-- What is read of a member: its name and what is read of its value. -/
def Member.read (depth : Nat) (m : Member) : String × Document :=
  (m.name, alone depth m.value)

/-- A member is read by its name and its value, and then the members after it. -/
theorem readEntry_tail (hm : m.Spelled) (hvalue : ReadsAlone m.value)
    (hfuel : 4 * m.value.length < fuel) (hrest : Follows rest) (depth : Nat) :
    Document.readEntry (fuel + 2) depth (m.tail ++ rest) =
      (Document.readEntries fuel depth false rest).cons (m.read depth) := by
  have htail : m.tail ++ rest = m.key ++ '"' :: (m.afterKey ++ ':' :: (m.beforeValue ++
      (m.value ++ (m.after ++ rest)))) := by
    simp [Member.tail]
  have hspace : Lexer.isSpace ':' = false := rfl
  rw [htail, Document.readEntry, readString_spells hm.spells]
  dsimp only
  rw [readField_append hm.afterKey, Document.readField, skipSpace_cons hspace]
  dsimp only
  rw [if_pos rfl, readValue_append hm.beforeValue, hvalue.read hfuel (hrest.append hm.after)]
  dsimp only
  rw [readEntries_append hm.after]
  rfl

theorem readEntries_close (fuel depth : Nat) (first : Bool) (rest : List Char) :
    Document.readEntries (fuel + 1) depth first ('\x7d' :: rest) = .closed rest := by
  have hspace : Lexer.isSpace '\x7d' = false := rfl
  rw [Document.readEntries, skipSpace_cons hspace]
  rfl

theorem readEntries_empty {gap : List Char} (h : Gap gap) (fuel depth : Nat) (rest : List Char) :
    Document.readEntries (fuel + 1) depth true (gap ++ '\x7d' :: rest) = ⟨[], none, .ok rest⟩ := by
  rw [readEntries_append h, readEntries_close]
  rfl

theorem readEntries_first (hm : m.Spelled) (fuel depth : Nat) (rest : List Char) :
    Document.readEntries (fuel + 1) depth true (m.text ++ rest) =
      Document.readEntry fuel depth (m.tail ++ rest) := by
  have hspace : Lexer.isSpace '"' = false := rfl
  rw [Member.text, List.append_assoc, readEntries_append hm.before, List.cons_append,
    Document.readEntries, skipSpace_cons hspace]
  rfl

theorem readEntries_next (hm : m.Spelled) (fuel depth : Nat) (rest : List Char) :
    Document.readEntries (fuel + 1) depth false (',' :: m.text ++ rest) =
      Document.readEntry fuel depth (m.tail ++ rest) := by
  have hcomma : Lexer.isSpace ',' = false := rfl
  have hspace : Lexer.isSpace '"' = false := rfl
  rw [List.cons_append, Document.readEntries, skipSpace_cons hcomma, Member.text]
  dsimp only
  rw [List.append_assoc, skipSpace_append hm.before, List.cons_append, skipSpace_cons hspace]
  rfl

/-- Members after a comma each are read to the end of the object. -/
theorem readEntries_rest (hspelled : ∀ m ∈ members, m.Spelled)
    (halone : ∀ m ∈ members, ReadsAlone m.value)
    (hfuel : 4 * ((members.map Member.text).flatMap (',' :: ·)).length < fuel) (depth : Nat)
    (rest : List Char) :
    Document.readEntries fuel depth false
        ((members.map Member.text).flatMap (',' :: ·) ++ '\x7d' :: rest) =
      ⟨members.map (Member.read depth), none, .ok rest⟩ := by
  induction members generalizing fuel with
  | nil =>
    obtain ⟨fuel, rfl⟩ : ∃ left, fuel = left + 1 := ⟨fuel - 1, by omega⟩
    exact readEntries_close fuel depth false rest
  | cons m members ih =>
    obtain ⟨hm, hspelled⟩ := List.forall_mem_cons.1 hspelled
    obtain ⟨hread, halone⟩ := List.forall_mem_cons.1 halone
    rw [List.map_cons, List.flatMap_cons, List.length_append, List.length_cons] at hfuel
    have hlength := m.length_value_le
    obtain ⟨fuel, rfl⟩ : ∃ left, fuel = left + 3 := ⟨fuel - 3, by omega⟩
    rw [List.map_cons, List.flatMap_cons, List.append_assoc, readEntries_next hm,
      readEntry_tail hm hread (by omega) (follows_separator (.inr rfl)),
      ih hspelled halone (by omega)]
    rfl

/-- The members of an object are read to its end. -/
theorem readEntries_separated (hne : members ≠ []) (hspelled : ∀ m ∈ members, m.Spelled)
    (halone : ∀ m ∈ members, ReadsAlone m.value)
    (hfuel : 4 * (separated (members.map Member.text)).length + 2 < fuel) (depth : Nat)
    (rest : List Char) :
    Document.readEntries fuel depth true (separated (members.map Member.text) ++ '\x7d' :: rest) =
      ⟨members.map (Member.read depth), none, .ok rest⟩ := by
  obtain ⟨m, members, rfl⟩ := List.exists_cons_of_ne_nil hne
  obtain ⟨hm, hspelled⟩ := List.forall_mem_cons.1 hspelled
  obtain ⟨hread, halone⟩ := List.forall_mem_cons.1 halone
  have hlength : m.value.length + 1 ≤ m.text.length := by
    simp only [Member.text, Member.tail, List.length_append, List.length_cons]
    omega
  rw [List.map_cons, separated, List.length_append] at hfuel
  obtain ⟨fuel, rfl⟩ : ∃ left, fuel = left + 3 := ⟨fuel - 3, by omega⟩
  rw [List.map_cons, separated, List.append_assoc, readEntries_first hm,
    readEntry_tail hm hread (by omega) (follows_separator (.inr rfl)),
    readEntries_rest hspelled halone (by omega)]
  rfl

theorem readValue_brace (fuel depth : Nat) (cs : List Char) :
    Document.readValue (fuel + 1) depth ('\x7b' :: cs) =
      let r := Document.readEntries fuel (depth - 1) true cs
      ⟨if depth = 0 then .deep .object else .obj r.items r.fault, r.extent⟩ := by
  have hspace : Lexer.isSpace '\x7b' = false := rfl
  rw [Document.readValue, skipSpace_cons hspace]
  rfl

theorem toJsonEntries_map_mono {α : Type} {name : α → String} {f g : α → Document} {xs : List α}
    {read es : Json.Entries} (h : ∀ x ∈ xs, ∀ v, (f x).toJson = .ok v → (g x).toJson = .ok v)
    (hes : Document.toJsonEntries read (xs.map fun x => (name x, f x)) = .ok es) :
    Document.toJsonEntries read (xs.map fun x => (name x, g x)) = .ok es := by
  induction xs generalizing read with
  | nil => exact hes
  | cons x xs ih =>
    obtain ⟨hx, hxs⟩ := List.forall_mem_cons.1 h
    obtain ⟨v, hv, hrest⟩ := Except.bind_eq_ok_iff.1 hes
    exact Except.bind_eq_ok_iff.2 ⟨v, hx v hv, ih hxs hrest⟩

/-- An object is read as its members. -/
theorem readsAlone_object {inside : List Char}
    (hread : ∀ fuel depth rest, 4 * inside.length + 2 < fuel →
      Document.readEntries fuel depth true (inside ++ '\x7d' :: rest) =
        ⟨members.map (Member.read depth), none, .ok rest⟩)
    (halone : ∀ m ∈ members, ReadsAlone m.value) :
    ReadsAlone ('\x7b' :: inside ++ ['\x7d']) ∧ ∀ depth,
      alone (depth + 1) ('\x7b' :: inside ++ ['\x7d']) =
        .obj (members.map (Member.read depth)) none := by
  have hall : ∀ fuel rest, 4 * ('\x7b' :: inside ++ ['\x7d']).length < fuel → Follows rest →
      ∀ depth, Document.readValue fuel depth ('\x7b' :: inside ++ ['\x7d'] ++ rest) =
        ⟨if depth = 0 then .deep .object else .obj (members.map (Member.read (depth - 1))) none,
          .ok rest⟩ := by
    intro fuel rest hfuel _ depth
    rw [List.length_append, List.length_cons, List.length_singleton] at hfuel
    obtain ⟨fuel, rfl⟩ : ∃ left, fuel = left + 1 := ⟨fuel - 1, by omega⟩
    have htext : '\x7b' :: inside ++ ['\x7d'] ++ rest = '\x7b' :: (inside ++ '\x7d' :: rest) := by
      simp
    rw [htext, readValue_brace, hread fuel (depth - 1) rest (by omega)]
  refine ⟨.of_read hall fun depth v hv => ?_, fun depth => alone_eq hall (depth + 1)⟩
  cases depth with
  | zero => cases hv
  | succ depth =>
    obtain ⟨es, hes, hv⟩ := Except.bind_eq_ok_iff.1 hv
    refine Except.bind_eq_ok_iff.2 ⟨es, ?_, hv⟩
    exact toJsonEntries_map_mono (fun m hm v => (halone m hm).deeper) hes

end Objects

/-! ## Values -/

/-- An object is read as its members if their values are read as such. -/
theorem ObjectText.readsAlone {members : List Member} {text : List Char}
    (h : ObjectText members text) (halone : ∀ m ∈ members, ReadsAlone m.value) :
    ReadsAlone text ∧
      ∀ depth, alone (depth + 1) text = .obj (members.map (Member.read depth)) none := by
  cases h with
  | empty h =>
    refine readsAlone_object (fun fuel depth rest hfuel => ?_) halone
    obtain ⟨fuel, rfl⟩ : ∃ left, fuel = left + 1 := ⟨fuel - 1, by omega⟩
    exact readEntries_empty h fuel depth rest
  | members hne hspelled hvalues =>
    exact readsAlone_object (fun fuel depth rest hfuel =>
      readEntries_separated hne hspelled halone hfuel depth rest) halone

/-- Every value is read as its text alone, wherever it stands. -/
theorem ValueText.readsAlone {text : List Char} (h : ValueText text) : ReadsAlone text := by
  induction h with
  | word h => exact readsAlone_word h
  | number h => exact readsAlone_number h
  | string h => exact readsAlone_string h
  | emptyArray h =>
    have halone : ∀ text ∈ [], ReadsAlone text := by simp
    refine readsAlone_array (fun fuel depth rest hfuel => ?_) halone
    obtain ⟨fuel, rfl⟩ : ∃ left, fuel = left + 1 := ⟨fuel - 1, by omega⟩
    exact readItems_empty h fuel depth rest
  | @array items hne hgaps hvalues ih =>
    have halone : ∀ text ∈ items.map Item.value, ReadsAlone text := by simpa using ih
    refine readsAlone_array (fun fuel depth rest hfuel => ?_) halone
    rw [readItems_separated hne hgaps hvalues ih hfuel, List.map_map]
    rfl
  | emptyObject h =>
    have halone : ∀ m ∈ ([] : List Member), ReadsAlone m.value := by simp
    exact ((ObjectText.empty h).readsAlone halone).1
  | object hne hspelled hvalues ih =>
    exact ((ObjectText.members hne hspelled hvalues).readsAlone ih).1

/-- A value that starts with no quotation mark is not read as a string. -/
theorem readValue_ne_str {c : Char} (hspace : Lexer.isSpace c = false) (hquote : c ≠ '"')
    (fuel depth : Nat) (rest : List Char) (s : String) :
    (Document.readValue fuel depth (c :: rest)).document ≠ .str s := by
  have hword (value : Document) (word cs : List Char) (hvalue : value ≠ .str s) :
      (Reading.ofWord value word cs).document ≠ .str s := by
    rw [Reading.ofWord]
    split
    · exact hvalue
    · simp [Reading.wrong]
  have hnumber (read : Except SyntaxError (Number × List Char))
      (extent : Except SyntaxError (List Char)) :
      (Reading.ofScalar .num read extent).document ≠ .str s := by
    cases read <;> simp [Reading.ofScalar]
  cases fuel with
  | zero => simp [Document.readValue, Reading.wrong]
  | succ fuel =>
    simp only [Document.readValue, skipSpace_cons hspace, if_neg hquote]
    -- by the character: brackets, the three words, numbers, and what starts no value
    split_ifs
    · simp
    · simp
    · simp
    · simp
    · exact hword _ _ _ (by simp)
    · exact hword _ _ _ (by simp)
    · exact hword _ _ _ (by simp)
    · exact hnumber _ _
    · simp [Reading.wrong]

/-- The values that are read as strings are the strings. -/
theorem alone_eq_str_iff {text : List Char} (h : ValueText text) {depth : Nat} {s : String} :
    alone depth text = .str s ↔ StringText s text := by
  have hstring {s : String} (hs : StringText s text) : alone depth text = .str s :=
    alone_eq (d := fun _ => .str s) (fun fuel rest hfuel _ depth => by
      obtain ⟨fuel, rfl⟩ : ∃ left, fuel = left + 1 := ⟨fuel - 1, by omega⟩
      exact readValue_stringText hs fuel depth rest) depth
  refine ⟨fun hread => ?_, hstring⟩
  obtain ⟨c, cs, hc, hspace, -, hquote⟩ := h.exists_cons
  by_cases hstart : c = '"'
  · obtain ⟨s', hs'⟩ := hquote hstart
    obtain rfl := Document.str.inj ((hstring hs').symm.trans hread)
    exact hs'
  · subst hc
    exact absurd hread (readValue_ne_str hspace hstart _ depth _ s)

/-! ## Whole texts -/

/-- The text of an object is read as its members. -/
theorem readText_wholeObject {text : String} {members : List Member}
    (h : WholeObject members text.toList) :
    Document.readText text = ⟨.obj (members.map (Member.read 126)) none, false⟩ := by
  obtain ⟨before, object, after, hbefore, hobject, hafter, htext⟩ := h
  obtain ⟨hreads, hroot⟩ := hobject.readsAlone fun m hm => (hobject.valueText.2 m hm).readsAlone
  have hfollows : Follows after := by
    rw [← List.append_nil after]
    exact follows_nil.append hafter
  have hfuel : 4 * object.length < 4 * text.toList.length + 4 := by
    rw [htext]
    simp only [List.length_append]
    omega
  have hblank : Lexer.skipSpace after = [] := by
    rw [← List.append_nil after, skipSpace_append hafter]
    rfl
  have hread : Document.readValue (4 * text.toList.length + 4) Document.nestingLimit text.toList =
      ⟨alone Document.nestingLimit object, .ok after⟩ := by
    rw [← hreads.read hfuel hfollows, htext, List.append_assoc, readValue_append hbefore]
  rw [Document.readText, Document.readWithin, hread]
  simp [hblank, Document.nestingLimit, hroot]

/-- What is read of a text alone is what is read of it as a whole text. -/
theorem readText_valueText {text : List Char} (h : ValueText text) :
    Document.readText (String.ofList text) = ⟨alone Document.nestingLimit text, false⟩ := by
  have hread : Document.readValue (4 * text.length + 4) Document.nestingLimit text =
      ⟨alone Document.nestingLimit text, .ok []⟩ := by
    have hfuel : 4 * text.length < 4 * text.length + 4 := by omega
    have halone := h.readsAlone.read hfuel follows_nil Document.nestingLimit
    rwa [List.append_nil] at halone
  rw [Document.readText, String.toList_ofList, Document.readWithin, hread]
  rfl

/-! ## Untyped values -/

/-- The entries are the members of the text of an object, each name with the last of the values that
are given for it. -/
structure LastOfEach (members : List Member) (entries : Json.Entries) : Prop where
  nodup : (entries.map Prod.fst).Nodup
  names : ∀ name, name ∈ entries.map Prod.fst ↔ name ∈ members.map Member.name
  last : ∀ before m after, members = before ++ m :: after → m.name ∉ after.map Member.name →
    ∃ v, Json.ofText (String.ofList m.value) = .ok v ∧ entries.lookup m.name = some v

theorem ofText_wholeObject {text : String} {members : List Member}
    (h : WholeObject members text.toList) :
    Json.ofText text = (Document.toJsonEntries [] (members.map (Member.read 126))).map .obj := by
  rw [Json.ofText, readText_wholeObject h]
  simp only [Document.Whole.toJson, Document.toJson]
  cases Document.toJsonEntries [] (members.map (Member.read 126)) <;> rfl

theorem names_map_read (depth : Nat) (members : List Member) :
    (members.map (Member.read depth)).map Prod.fst = members.map Member.name := by
  rw [List.map_map]
  rfl

/-- The value of a text alone, if it stands somewhere and has one. -/
theorem ofText_of_toJson_alone {text : List Char} (h : ValueText text) {v : Json}
    (hv : (alone 126 text).toJson = .ok v) : Json.ofText (String.ofList text) = .ok v := by
  rw [Json.ofText, readText_valueText h]
  exact Except.bind_eq_ok_iff.2 ⟨v, h.readsAlone.deeper hv, rfl⟩

theorem ofText_stringText {s : String} {text : List Char} (h : StringText s text) :
    Json.ofText (String.ofList text) = .ok (.str s) := by
  refine ofText_of_toJson_alone (.string h) ?_
  rw [(alone_eq_str_iff (.string h)).2 h, Document.toJson]

/-- The untyped value of an object has lost all but the last of the members with one name. -/
theorem exists_lastOfEach {text : String} {members : List Member}
    (h : WholeObject members text.toList) {v : Json} (hv : Json.ofText text = .ok v) :
    ∃ entries, v = .obj entries ∧ LastOfEach members entries := by
  have hdistinct : v.Distinct := by
    obtain ⟨u, hu, hend⟩ := Except.bind_eq_ok_iff.1 hv
    rw [readText_wholeObject h] at hend
    obtain rfl := Except.ok.inj hend
    exact Document.distinct_of_toJson hu
  rw [ofText_wholeObject h] at hv
  obtain ⟨entries, hentries, rfl⟩ := Except.map_eq_ok_iff.1 hv
  refine ⟨entries, rfl, ((Json.distinct_obj_iff entries).1 hdistinct).1, fun name => ?_, ?_⟩
  · rw [Document.mem_names_toJsonEntries hentries, names_map_read]
    simp
  · rintro before m after rfl hlast
    have hvalue : ValueText m.value := h.valueText m (by simp)
    rw [← names_map_read 126] at hlast
    rw [List.map_append, List.map_cons] at hentries
    obtain ⟨v, hv, hlookup⟩ := Document.lookup_toJsonEntries_of_last hentries hlast
    exact ⟨v, ofText_of_toJson_alone hvalue hv, hlookup⟩

/-- An object of strings has an untyped value. -/
theorem exists_ofText_of_strings {text : String} {members : List Member}
    (h : WholeObject members text.toList)
    (hstrings : ∀ m ∈ members, ∃ s, StringText s m.value) : ∃ v, Json.ofText text = .ok v := by
  have hentries (read : Json.Entries) :
      ∃ entries, Document.toJsonEntries read (members.map (Member.read 126)) = .ok entries := by
    clear h
    induction members generalizing read with
    | nil => exact ⟨read, rfl⟩
    | cons m members ih =>
      obtain ⟨⟨s, hs⟩, hmembers⟩ := List.forall_mem_cons.1 hstrings
      obtain ⟨entries, hentries⟩ := ih hmembers (Json.insert m.name (.str s) read)
      refine ⟨entries, Except.bind_eq_ok_iff.2 ⟨.str s, ?_, hentries⟩⟩
      rw [(alone_eq_str_iff (.string hs)).2 hs, Document.toJson]
  obtain ⟨entries, hentries⟩ := hentries []
  rw [ofText_wholeObject h, hentries]
  exact ⟨_, rfl⟩

end TypedWorkflow.JsonText
