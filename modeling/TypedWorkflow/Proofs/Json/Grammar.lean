import TypedWorkflow.Json.Reader
import TypedWorkflow.Proofs.Text.Numeral

/-!
# JSON texts

How JSON values are written, said without a reader: the blanks between the parts of a text, the
spellings of strings, the literals of numbers, and arrays and objects with their items and members
separated by commas. The text of an object determines its members, each with its name and the text
of its value; a name may occur more than once.

The characters of a string may be written in several ways. A surrogate stands only in a pair, so
that every string has a content.

## Main definitions

* `JsonText.Spells`, `JsonText.StringText`: the spellings of strings.
* `JsonText.NumberText`: the literals of numbers.
* `JsonText.ValueText`: the texts of values.
* `JsonText.ObjectText`, `JsonText.WholeObject`: the texts of objects with given members.
* `JsonText.readString_spells`: strings are read with their contents.
* `JsonText.Follows`: what may stand after a value.
* `JsonText.NumberText.exists_takeLiteral`: the literal of a number is read up to its end.
-/

namespace TypedWorkflow.JsonText

/-! ## Strings -/

/-- A run of blanks between the parts of a text, perhaps of none. -/
def Gap (cs : List Char) : Prop :=
  ∀ c ∈ cs, c = ' ' ∨ c = '\n' ∨ c = '\t' ∨ c = '\x0d'

theorem gap_nil : Gap [] := by
  intro c hc
  cases hc

/-- The hexadecimal digits with their values. -/
def hexDigits : List (Char × Nat) :=
  ['0', '1', '2', '3', '4', '5', '6', '7', '8', '9', 'a', 'b', 'c', 'd', 'e', 'f'].zipIdx ++
    ['A', 'B', 'C', 'D', 'E', 'F'].zipIdx 10

/-- Four hexadecimal digits and the UTF-16 unit that they stand for. -/
inductive UnitText : Nat → List Char → Prop where
  | mk {a b c d : Char} {i j k l : Nat} (ha : (a, i) ∈ hexDigits) (hb : (b, j) ∈ hexDigits)
      (hc : (c, k) ∈ hexDigits) (hd : (d, l) ∈ hexDigits) :
      UnitText (((i * 16 + j) * 16 + k) * 16 + l) [a, b, c, d]

/-- The letters of the short escapes with the characters that they stand for. -/
def shortEscapes : List (Char × Char) :=
  [('"', '"'), ('\\', '\\'), ('/', '/'), ('b', '\x08'), ('f', '\x0c'), ('n', '\n'), ('r', '\x0d'),
    ('t', '\t')]

/-- How a character may be written in a string: as it is, by a short escape, or by one or two
UTF-16 units. -/
inductive CharText : Char → List Char → Prop where
  | plain {c : Char} (hcontrol : 0x20 ≤ c.toNat) (hquote : c ≠ '"') (hbackslash : c ≠ '\\') :
      CharText c [c]
  | short {c letter : Char} (h : (letter, c) ∈ shortEscapes) : CharText c ['\\', letter]
  | unit {n : Nat} {digits : List Char} (h : UnitText n digits) (hn : n < 0xd800 ∨ 0xdfff < n) :
      CharText (Char.ofNat n) ('\\' :: 'u' :: digits)
  | pair {high low : Nat} {first second : List Char} (hfirst : UnitText high first)
      (hsecond : UnitText low second) (hhigh : 0xd800 ≤ high ∧ high ≤ 0xdbff)
      (hlow : 0xdc00 ≤ low ∧ low ≤ 0xdfff) :
      CharText (Char.ofNat ((high - 0xd800) * 0x400 + (low - 0xdc00) + 0x10000))
        ('\\' :: 'u' :: first ++ '\\' :: 'u' :: second)

/-- What stands between quotation marks for the characters of a string. -/
inductive Spells : List Char → List Char → Prop where
  | nil : Spells [] []
  | cons {c : Char} {cs text rest : List Char} (hc : CharText c text) (h : Spells cs rest) :
      Spells (c :: cs) (text ++ rest)

/-- The text of a string with a content. -/
inductive StringText (s : String) : List Char → Prop where
  | mk {body : List Char} (h : Spells s.toList body) : StringText s ('"' :: body ++ ['"'])

/-! ## Values -/

/-- A number literal. A zero stands alone before the point. -/
inductive NumberText : List Char → Prop where
  | mk {sign whole fraction exponent : List Char} (hsign : sign = [] ∨ sign = ['-'])
      (hwhole : Text.Digits whole) (hzero : whole.head? = some '0' → whole = ['0'])
      (hfraction : fraction = [] ∨ ∃ digits, Text.Digits digits ∧ fraction = '.' :: digits)
      (hexponent : Text.Exponent exponent) : NumberText (sign ++ whole ++ fraction ++ exponent)

/-- An item of an array as it is written, with the blanks around the text of its value. -/
structure Item where
  before : List Char
  value : List Char
  after : List Char

/-- The text of an item. -/
def Item.text (i : Item) : List Char :=
  i.before ++ i.value ++ i.after

/-- A member of an object as it is written: the name, what stands for it between quotation marks,
the text of the value, and the blanks around the two. -/
structure Member where
  name : String
  before : List Char
  key : List Char
  afterKey : List Char
  beforeValue : List Char
  value : List Char
  after : List Char

namespace Member

/-- The text of a member after the quotation mark that opens its key. -/
def tail (m : Member) : List Char :=
  m.key ++ '"' :: m.afterKey ++ ':' :: m.beforeValue ++ m.value ++ m.after

/-- The text of a member. -/
def text (m : Member) : List Char :=
  m.before ++ '"' :: m.tail

/-- The name of a member and the text of its value. -/
def entry (m : Member) : String × List Char :=
  (m.name, m.value)

/-- The key spells the name, and all around it are blanks. -/
structure Spelled (m : Member) : Prop where
  spells : Spells m.name.toList m.key
  before : Gap m.before
  afterKey : Gap m.afterKey
  beforeValue : Gap m.beforeValue
  after : Gap m.after

end Member

/-- Texts after each other, with commas between them. -/
def separated : List (List Char) → List Char
  | [] => []
  | text :: rest => text ++ rest.flatMap (',' :: ·)

/-- The words that are values. -/
def words : List (List Char) :=
  [['n', 'u', 'l', 'l'], ['t', 'r', 'u', 'e'], ['f', 'a', 'l', 's', 'e']]

/-- The text of a value. -/
inductive ValueText : List Char → Prop where
  | word {text : List Char} (h : text ∈ words) : ValueText text
  | number {text : List Char} (h : NumberText text) : ValueText text
  | string {s : String} {text : List Char} (h : StringText s text) : ValueText text
  | emptyArray {inside : List Char} (h : Gap inside) : ValueText ('[' :: inside ++ [']'])
  | array {items : List Item} (hne : items ≠ []) (hgaps : ∀ i ∈ items, Gap i.before ∧ Gap i.after)
      (hvalues : ∀ i ∈ items, ValueText i.value) :
      ValueText ('[' :: separated (items.map Item.text) ++ [']'])
  | emptyObject {inside : List Char} (h : Gap inside) : ValueText ('\x7b' :: inside ++ ['\x7d'])
  | object {members : List Member} (hne : members ≠ []) (hspelled : ∀ m ∈ members, m.Spelled)
      (hvalues : ∀ m ∈ members, ValueText m.value) :
      ValueText ('\x7b' :: separated (members.map Member.text) ++ ['\x7d'])

/-- The text of an object with the given members. -/
inductive ObjectText : List Member → List Char → Prop where
  | empty {inside : List Char} (h : Gap inside) : ObjectText [] ('\x7b' :: inside ++ ['\x7d'])
  | members {members : List Member} (hne : members ≠ []) (hspelled : ∀ m ∈ members, m.Spelled)
      (hvalues : ∀ m ∈ members, ValueText m.value) :
      ObjectText members ('\x7b' :: separated (members.map Member.text) ++ ['\x7d'])

/-- A whole text that consists of an object with the given members, perhaps between blanks. -/
def WholeObject (members : List Member) (cs : List Char) : Prop :=
  ∃ before text after, Gap before ∧ ObjectText members text ∧ Gap after ∧
    cs = before ++ text ++ after

theorem ObjectText.valueText {members : List Member} {text : List Char}
    (h : ObjectText members text) : ValueText text ∧ ∀ m ∈ members, ValueText m.value := by
  cases h with
  | empty h => exact ⟨.emptyObject h, by simp⟩
  | members hne hspelled hvalues => exact ⟨.object hne hspelled hvalues, hvalues⟩

theorem WholeObject.valueText {members : List Member} {cs : List Char}
    (h : WholeObject members cs) : ∀ m ∈ members, ValueText m.value := by
  obtain ⟨_, _, _, _, hobject, _⟩ := h
  exact hobject.valueText.2

/-- Characters that need no escape stand for themselves. -/
theorem spells_plain {cs : List Char} (h : ∀ c ∈ cs, 0x20 ≤ c.toNat ∧ c ≠ '"' ∧ c ≠ '\\') :
    Spells cs cs := by
  induction cs with
  | nil => exact .nil
  | cons c cs ih =>
    obtain ⟨⟨hcontrol, hquote, hbackslash⟩, hcs⟩ := List.forall_mem_cons.1 h
    exact .cons (.plain hcontrol hquote hbackslash) (ih hcs)

/-! ## Reading strings -/

theorem skipSpace_append {gap : List Char} (h : Gap gap) (cs : List Char) :
    Lexer.skipSpace (gap ++ cs) = Lexer.skipSpace cs := by
  refine List.dropWhile_append_of_pos fun c hc => ?_
  rcases h c hc with rfl | rfl | rfl | rfl <;> rfl

theorem skipSpace_cons {c : Char} (h : Lexer.isSpace c = false) (cs : List Char) :
    Lexer.skipSpace (c :: cs) = c :: cs :=
  List.dropWhile_cons_of_neg (by simp [h])

theorem takeHex_unitText {n : Nat} {digits : List Char} (h : UnitText n digits)
    (rest : List Char) : Lexer.takeHex (digits ++ rest) = .ok (n, rest) := by
  have hvalue : ∀ d ∈ hexDigits, Lexer.hexValue? d.1 = some d.2 := by decide
  obtain ⟨ha, hb, hc, hd⟩ := h
  simp only [List.cons_append, List.nil_append, Lexer.takeHex, hvalue _ ha, hvalue _ hb,
    hvalue _ hc, hvalue _ hd]

theorem readHexEscape_unit {n : Nat} {digits : List Char} (h : UnitText n digits)
    (hn : n < 0xd800 ∨ 0xdfff < n) (rest : List Char) :
    Lexer.readHexEscape (digits ++ rest) = .ok (Char.ofNat n, rest) := by
  have hlow : Lexer.isLowSurrogate n = false := by
    rw [Lexer.isLowSurrogate, Bool.and_eq_false_iff, decide_eq_false_iff_not,
      decide_eq_false_iff_not]
    omega
  have hhigh : Lexer.isHighSurrogate n = false := by
    rw [Lexer.isHighSurrogate, Bool.and_eq_false_iff, decide_eq_false_iff_not,
      decide_eq_false_iff_not]
    omega
  rw [Lexer.readHexEscape, takeHex_unitText h]
  simp [bind, Except.bind, hlow, hhigh]

theorem readHexEscape_pair {high low : Nat} {first second : List Char}
    (hfirst : UnitText high first) (hsecond : UnitText low second)
    (hhigh : 0xd800 ≤ high ∧ high ≤ 0xdbff) (hlow : 0xdc00 ≤ low ∧ low ≤ 0xdfff)
    (rest : List Char) :
    Lexer.readHexEscape (first ++ '\\' :: 'u' :: (second ++ rest)) =
      .ok (Char.ofNat ((high - 0xd800) * 0x400 + (low - 0xdc00) + 0x10000), rest) := by
  have hfirstLow : Lexer.isLowSurrogate high = false := by
    rw [Lexer.isLowSurrogate, Bool.and_eq_false_iff, decide_eq_false_iff_not,
      decide_eq_false_iff_not]
    omega
  have hfirstHigh : Lexer.isHighSurrogate high = true := by simp [Lexer.isHighSurrogate, hhigh]
  have hsecondLow : Lexer.isLowSurrogate low = true := by simp [Lexer.isLowSurrogate, hlow]
  rw [Lexer.readHexEscape, takeHex_unitText hfirst]
  simp [bind, Except.bind, hfirstLow, hfirstHigh, hsecondLow, takeHex_unitText hsecond]

theorem shortEscape?_of_mem {letter c : Char} (h : (letter, c) ∈ shortEscapes) :
    letter ≠ 'u' ∧ Lexer.shortEscape? letter = some c := by
  have hall : ∀ e ∈ shortEscapes, e.1 ≠ 'u' ∧ Lexer.shortEscape? e.1 = some e.2 := by decide
  exact hall _ h

/-- A character is read from any of its spellings. -/
theorem readStringWithin_charText {c : Char} {text : List Char} (h : CharText c text) (fuel : Nat)
    (read rest : List Char) :
    Lexer.readStringWithin (fuel + 1) read (text ++ rest) =
      Lexer.readStringWithin fuel (c :: read) rest := by
  cases h with
  | plain hcontrol hquote hbackslash =>
    simp [Lexer.readStringWithin, hquote, hbackslash, Nat.not_lt.2 hcontrol]
  | short hshort =>
    obtain ⟨hletter, hescape⟩ := shortEscape?_of_mem hshort
    simp [Lexer.readStringWithin, Lexer.readEscape, hletter, hescape]
  | unit hunit hn =>
    simp [Lexer.readStringWithin, Lexer.readEscape, readHexEscape_unit hunit hn]
  | pair hfirst hsecond hhigh hlow =>
    simp [Lexer.readStringWithin, Lexer.readEscape,
      readHexEscape_pair hfirst hsecond hhigh hlow]

/-- A character is passed over in at most as many steps as its spelling has characters. -/
theorem passStringWithin_charText {c : Char} {text : List Char} (h : CharText c text) :
    ∃ steps, 1 ≤ steps ∧ steps ≤ text.length ∧ ∀ fuel rest,
      Lexer.passStringWithin (fuel + steps) (text ++ rest) = Lexer.passStringWithin fuel rest := by
  cases h with
  | plain hcontrol hquote hbackslash =>
    refine ⟨1, Nat.le_refl 1, by simp, fun fuel rest => ?_⟩
    simp [Lexer.passStringWithin, hquote, hbackslash, Nat.not_lt.2 hcontrol]
  | short hshort =>
    obtain ⟨hletter, hescape⟩ := shortEscape?_of_mem hshort
    refine ⟨1, Nat.le_refl 1, by simp, fun fuel rest => ?_⟩
    simp [Lexer.passStringWithin, Lexer.passEscape, hletter, hescape]
  | unit hunit hn =>
    refine ⟨1, Nat.le_refl 1, by simp, fun fuel rest => ?_⟩
    simp [Lexer.passStringWithin, Lexer.passEscape, takeHex_unitText hunit, Except.map]
  | pair hfirst hsecond hhigh hlow =>
    -- the two halves are passed over one by one
    refine ⟨2, by omega, by simp, fun fuel rest => ?_⟩
    simp [Lexer.passStringWithin, Lexer.passEscape, takeHex_unitText hfirst,
      takeHex_unitText hsecond, Except.map]

theorem readStringWithin_spells {cs text : List Char} (h : Spells cs text) {fuel : Nat}
    (hfuel : text.length < fuel) (read rest : List Char) :
    Lexer.readStringWithin fuel read (text ++ '"' :: rest) = .ok (read.reverse ++ cs, rest) := by
  induction h generalizing fuel read with
  | nil =>
    obtain ⟨fuel, rfl⟩ := Nat.exists_eq_succ_of_ne_zero (Nat.ne_of_gt hfuel)
    simp [Lexer.readStringWithin]
  | @cons c cs text more hc _ ih =>
    obtain ⟨fuel, rfl⟩ := Nat.exists_eq_succ_of_ne_zero (Nat.ne_of_gt (Nat.zero_lt_of_lt hfuel))
    have hpos : 0 < text.length := by cases hc <;> simp
    rw [List.length_append] at hfuel
    rw [List.append_assoc, readStringWithin_charText hc, ih (by omega)]
    simp

theorem passStringWithin_spells {cs text : List Char} (h : Spells cs text) {fuel : Nat}
    (hfuel : text.length < fuel) (rest : List Char) :
    Lexer.passStringWithin fuel (text ++ '"' :: rest) = .ok rest := by
  induction h generalizing fuel with
  | nil =>
    obtain ⟨fuel, rfl⟩ := Nat.exists_eq_succ_of_ne_zero (Nat.ne_of_gt hfuel)
    simp [Lexer.passStringWithin]
  | @cons c cs text more hc _ ih =>
    obtain ⟨steps, hpos, hsteps, hpass⟩ := passStringWithin_charText hc
    rw [List.length_append] at hfuel
    obtain ⟨left, rfl⟩ : ∃ left, fuel = left + steps := ⟨fuel - steps, by omega⟩
    rw [List.append_assoc, hpass, ih (by omega)]

/-- A string is read with its content, up to the closing quotation mark. -/
theorem readString_spells {s : String} {text : List Char} (h : Spells s.toList text)
    (rest : List Char) : Lexer.readString (text ++ '"' :: rest) = .ok (s, rest) := by
  have hfuel : text.length < (text ++ '"' :: rest).length := by simp
  rw [Lexer.readString, readStringWithin_spells h hfuel]
  simp [bind, Except.bind]

theorem passString_spells {cs text : List Char} (h : Spells cs text) (rest : List Char) :
    Lexer.passString (text ++ '"' :: rest) = .ok rest :=
  passStringWithin_spells h (by simp) rest

theorem StringText.exists_cons {s : String} {text : List Char} (h : StringText s text) :
    ∃ rest, text = '"' :: rest := by
  obtain ⟨h⟩ := h
  exact ⟨_, rfl⟩

/-! ## Reading numbers -/

/-- What may stand after a value: nothing, a blank, a comma or a closing bracket. -/
def Follows (cs : List Char) : Prop :=
  ∀ c ∈ cs.head?, c ∈ [' ', '\n', '\t', '\x0d', ',', ']', '\x7d']

theorem follows_nil : Follows [] := by
  intro c hc
  cases hc

theorem Follows.append {gap cs : List Char} (hgap : Gap gap) (h : Follows cs) :
    Follows (gap ++ cs) := by
  cases gap with
  | nil => exact h
  | cons c gap =>
    intro c' hc'
    obtain rfl : c = c' := Option.some.inj hc'
    rcases hgap c (List.mem_cons_self ..) with rfl | rfl | rfl | rfl <;> decide

/-- A character that goes on with a number does not follow a value. -/
theorem Follows.head_not_number {cs : List Char} (h : Follows cs) :
    ∀ c ∈ cs.head?, c.isDigit = false ∧ c ≠ '.' ∧ c ≠ 'e' ∧ c ≠ 'E' := by
  have hall : ∀ c ∈ [' ', '\n', '\t', '\x0d', ',', ']', '\x7d'],
      c.isDigit = false ∧ c ≠ '.' ∧ c ≠ 'e' ∧ c ≠ 'E' := by simp
  intro c hc
  exact hall c (h c hc)

theorem expectDigits_append {digits rest : List Char} (hdigits : Text.Digits digits)
    (hrest : ∀ c ∈ rest.head?, c.isDigit = false) :
    Lexer.expectDigits (digits ++ rest) = .ok (digits, rest) := by
  obtain ⟨d, ds, rfl⟩ := List.exists_cons_of_ne_nil hdigits.1
  rw [Lexer.expectDigits, Text.spanDigits_append hdigits.2 hrest]

theorem expectWhole_append {digits rest : List Char} (hdigits : Text.Digits digits)
    (hzero : digits.head? = some '0' → digits = ['0'])
    (hrest : ∀ c ∈ rest.head?, c.isDigit = false) :
    Lexer.expectWhole (digits ++ rest) = .ok (digits, rest) := by
  have hshape : ¬ (digits.head? = some '0' ∧ digits.length ≠ 1) := by
    rintro ⟨hhead, hlength⟩
    rw [hzero hhead] at hlength
    exact hlength rfl
  rw [Lexer.expectWhole, expectDigits_append hdigits hrest]
  exact if_neg hshape

theorem exists_takeFraction {fraction : List Char}
    (h : fraction = [] ∨ ∃ digits, Text.Digits digits ∧ fraction = '.' :: digits) :
    ∃ f, ∀ rest, (∀ c ∈ rest.head?, c.isDigit = false ∧ c ≠ '.') →
      Lexer.takeFraction (fraction ++ rest) = .ok (f, rest) := by
  rcases h with rfl | ⟨digits, hdigits, rfl⟩
  · refine ⟨none, fun rest hrest => ?_⟩
    cases rest with
    | nil => rfl
    | cons c rest => simp [Lexer.takeFraction, (hrest c rfl).2]
  · refine ⟨some digits, fun rest hrest => ?_⟩
    rw [List.cons_append, Lexer.takeFraction,
      expectDigits_append hdigits fun c hc => (hrest c hc).1]
    rfl

theorem exists_takeExponent {exponent : List Char} (h : Text.Exponent exponent) :
    ∃ e, ∀ rest, Follows rest → Lexer.takeExponent (exponent ++ rest) = .ok (e, rest) := by
  cases h with
  | absent =>
    refine ⟨none, fun rest hrest => ?_⟩
    cases rest with
    | nil => rfl
    | cons c rest =>
      obtain ⟨-, -, hlower, hupper⟩ := hrest.head_not_number c rfl
      simp [Lexer.takeExponent, hlower, hupper]
  | @present e negative sign digits he hsign hdigits =>
    refine ⟨some (if negative then -(Text.digitsValue digits : Int) else Text.digitsValue digits),
      fun rest hrest => ?_⟩
    have hunsigned : Text.Unsigned (digits ++ rest) := by
      obtain ⟨d, ds, rfl⟩ := List.exists_cons_of_ne_nil hdigits.1
      rintro c cs ⟨⟩
      exact hdigits.unsigned _ _ rfl
    rw [List.cons_append, Lexer.takeExponent, if_pos he, List.append_assoc,
      Text.splitSign_append hsign hunsigned]
    dsimp only
    rw [expectDigits_append hdigits fun c hc => (hrest.head_not_number c hc).1]
    rfl

/-- The literal of a number is the same whatever follows it. -/
theorem NumberText.exists_takeLiteral {text : List Char} (h : NumberText text) :
    ∃ l, ∀ rest, Follows rest → Lexer.takeLiteral (text ++ rest) = .ok (l, rest) := by
  obtain @⟨sign, whole, fraction, exponent, hsign, hwhole, hzero, hfraction, hexponent⟩ := h
  obtain ⟨f, hf⟩ := exists_takeFraction hfraction
  obtain ⟨e, he⟩ := exists_takeExponent hexponent
  have hafterFraction {rest : List Char} (hrest : Follows rest) :
      ∀ c ∈ (exponent ++ rest).head?, c.isDigit = false ∧ c ≠ '.' := by
    cases hexponent with
    | absent =>
      intro c hc
      obtain ⟨hdigit, hpoint, -, -⟩ := hrest.head_not_number c hc
      exact ⟨hdigit, hpoint⟩
    | present hletter _ _ =>
      intro c hc
      obtain rfl := Option.some.inj hc
      rcases hletter with rfl | rfl <;> decide
  have hafterWhole {rest : List Char} (hrest : Follows rest) :
      ∀ c ∈ (fraction ++ (exponent ++ rest)).head?, c.isDigit = false := by
    rcases hfraction with rfl | ⟨digits, -, rfl⟩
    · intro c hc
      exact (hafterFraction hrest c hc).1
    · intro c hc
      obtain rfl : '.' = c := Option.some.inj hc
      rfl
  have htext (rest : List Char) : sign ++ whole ++ fraction ++ exponent ++ rest =
      sign ++ (whole ++ (fraction ++ (exponent ++ rest))) := by
    simp only [List.append_assoc]
  have hwholeRead {rest : List Char} (hrest : Follows rest) :=
    expectWhole_append hwhole hzero (hafterWhole hrest)
  rcases hsign with rfl | rfl
  · refine ⟨⟨false, whole, f, e⟩, fun rest hrest => ?_⟩
    rw [htext, List.nil_append, Lexer.takeLiteral]
    · simp only [bind, Except.bind, hwholeRead hrest, hf _ (hafterFraction hrest), he _ hrest]
    · intro more hmore
      obtain ⟨d, ds, rfl⟩ := List.exists_cons_of_ne_nil hwhole.1
      exact (hwhole.unsigned d ds rfl).1 (List.cons.inj hmore).1
  · refine ⟨⟨true, whole, f, e⟩, fun rest hrest => ?_⟩
    rw [htext, List.singleton_append, Lexer.takeLiteral]
    simp only [bind, Except.bind, hwholeRead hrest, hf _ (hafterFraction hrest), he _ hrest]

theorem NumberText.exists_cons {text : List Char} (h : NumberText text) :
    ∃ c cs, text = c :: cs ∧ (c = '-' ∨ c.isDigit = true) := by
  obtain ⟨hsign, hwhole, -, -, -⟩ := h
  rcases hsign with rfl | rfl
  · obtain ⟨d, ds, rfl⟩ := List.exists_cons_of_ne_nil hwhole.1
    exact ⟨d, _, rfl, .inr (hwhole.2 d (List.mem_cons_self ..))⟩
  · exact ⟨'-', _, rfl, .inl rfl⟩

/-- A character that a number starts with is none that another value starts with. -/
theorem ne_of_number_start {c : Char} (h : c = '-' ∨ c.isDigit = true) :
    c ∉ [' ', '\n', '\t', '\x0d', '[', ']', '\x7b', '"', 'n', 't', 'f'] := by
  have hall : ∀ d ∈ [' ', '\n', '\t', '\x0d', '[', ']', '\x7b', '"', 'n', 't', 'f'],
      d ≠ '-' ∧ d.isDigit = false := by simp
  intro hc
  obtain ⟨hminus, hdigit⟩ := hall c hc
  rcases h with h | h
  · exact hminus h
  · rw [hdigit] at h
    cases h

end TypedWorkflow.JsonText
