import TypedWorkflow.Json.Lexer

/-!
# Reading JSON texts

A text is read into a document in one pass. Next to the tree the pass gives the extent of each
value, that is the text after it, or the error met when the value is only passed over; from the
extent the reading of an array or object goes on.

## Main definitions

* `Document.readText`: the document of a text.
* `Json.ofText`: the untyped value of a text.
-/

namespace TypedWorkflow

/-- What is read of a value, and the text after it. -/
structure Reading where
  document : Document
  extent : Except SyntaxError (List Char)

/-- What is read of the items of an array or the entries of an object, the error where the next
one or the end should be, and the text after the closing bracket. -/
structure ReadingOf (α : Type) where
  items : List α
  fault : Option SyntaxError
  extent : Except SyntaxError (List Char)

namespace Reading

/-- A value that can be neither read nor passed over. -/
def wrong (e : SyntaxError) : Reading :=
  ⟨.broken e, .error e⟩

/-- A scalar value: what is read of it, and what is passed over. -/
def ofScalar {α : Type} (make : α → Document) (read : Except SyntaxError (α × List Char))
    (extent : Except SyntaxError (List Char)) : Reading :=
  match read with
  | .ok (a, _) => ⟨make a, extent⟩
  | .error e => ⟨.broken e, extent⟩

/-- A word with the given rest. -/
def ofWord (value : Document) (word rest : List Char) : Reading :=
  match Lexer.expectWord word rest with
  | .ok rest => ⟨value, .ok rest⟩
  | .error e => wrong e

end Reading

namespace ReadingOf

variable {α : Type}

/-- No more items, with one error for reading and one for passing over. -/
def stop (fault passed : SyntaxError) : ReadingOf α :=
  ⟨[], some fault, .error passed⟩

/-- No more items, with one error for both. -/
def wrong (e : SyntaxError) : ReadingOf α :=
  stop e e

/-- The closing bracket. -/
def closed (rest : List Char) : ReadingOf α :=
  ⟨[], none, .ok rest⟩

/-- One more item in front. -/
def cons (a : α) (r : ReadingOf α) : ReadingOf α :=
  { r with items := a :: r.items }

end ReadingOf

namespace Document

mutual

/-- The value that a text starts with, where `depth` more brackets may open inside each other. The
`fuel` bounds the number of steps. -/
def readValue : Nat → Nat → List Char → Reading
  | 0, _, _ => .wrong .endInValue
  | fuel + 1, depth, cs =>
    match Lexer.skipSpace cs with
    | [] => .wrong .endInValue
    | c :: rest =>
      if c = '[' then
        let r := readItems fuel (depth - 1) true rest
        ⟨if depth = 0 then .deep .list else .arr r.items r.fault, r.extent⟩
      else if c = '\x7b' then
        let r := readEntries fuel (depth - 1) true rest
        ⟨if depth = 0 then .deep .object else .obj r.items r.fault, r.extent⟩
      else if c = '"' then .ofScalar .str (Lexer.readString rest) (Lexer.passString rest)
      else if c = 'n' then .ofWord .null ['u', 'l', 'l'] rest
      else if c = 't' then .ofWord (.bool true) ['r', 'u', 'e'] rest
      else if c = 'f' then .ofWord (.bool false) ['a', 'l', 's', 'e'] rest
      else if c = '-' ∨ c.isDigit then
        .ofScalar .num (Lexer.readNumber (c :: rest)) (Lexer.passNumber (c :: rest))
      else .wrong .valueExpected
termination_by structural fuel => fuel

/-- The items of an array up to its closing bracket; `first` before the first of them. -/
def readItems : Nat → Nat → Bool → List Char → ReadingOf Document
  | 0, _, _, _ => .wrong .endInList
  | fuel + 1, depth, first, cs =>
    match Lexer.skipSpace cs with
    | [] => .wrong .endInList
    | c :: rest =>
      if c = ']' then .closed rest
      else if first then readItem fuel depth (c :: rest)
      else if c = ',' then
        match Lexer.skipSpace rest with
        | [] => .wrong .endInValue
        | d :: rest =>
          if d = ']' then .stop .trailingComma .valueExpected
          else readItem fuel depth (d :: rest)
      else .wrong .listCommaExpected
termination_by structural fuel => fuel

/-- An item of an array and the items after it. -/
def readItem : Nat → Nat → List Char → ReadingOf Document
  | 0, _, _ => .wrong .endInValue
  | fuel + 1, depth, cs =>
    let r := readValue fuel depth cs
    match r.extent with
    | .error e => (ReadingOf.wrong e).cons r.document
    | .ok rest => (readItems fuel depth false rest).cons r.document
termination_by structural fuel => fuel

/-- The entries of an object up to its closing bracket; `first` before the first of them. -/
def readEntries : Nat → Nat → Bool → List Char → ReadingOf (String × Document)
  | 0, _, _, _ => .wrong .endInObject
  | fuel + 1, depth, first, cs =>
    match Lexer.skipSpace cs with
    | [] => .wrong .endInObject
    | c :: rest =>
      if c = '\x7d' then .closed rest
      else if first then
        if c = '"' then readEntry fuel depth rest else .wrong .keyNotString
      else if c = ',' then
        match Lexer.skipSpace rest with
        | [] => .stop .endInValue .endInObject
        | d :: rest =>
          if d = '"' then readEntry fuel depth rest
          else if d = '\x7d' then .stop .trailingComma .keyNotString
          else .wrong .keyNotString
      else .wrong .objectCommaExpected
termination_by structural fuel => fuel

/-- An entry of an object after the quotation mark that opens its key, and the entries after it.
A key that can only be passed over ends what is read of the object. -/
def readEntry : Nat → Nat → List Char → ReadingOf (String × Document)
  | 0, _, _ => .wrong .endInString
  | fuel + 1, depth, cs =>
    match Lexer.readString cs, Lexer.passString cs with
    | .ok (key, rest), _ => readField fuel depth key rest
    | .error e, .ok rest =>
      { readField fuel depth "" rest with items := [], fault := some e }
    | .error e, .error passed => .stop e passed
termination_by structural fuel => fuel

/-- An entry of an object after its key, and the entries after it. -/
def readField : Nat → Nat → String → List Char → ReadingOf (String × Document)
  | 0, _, _, _ => .wrong .endInObject
  | fuel + 1, depth, key, cs =>
    match Lexer.skipSpace cs with
    | [] => .wrong .endInObject
    | c :: rest =>
      if c = ':' then
        let r := readValue fuel depth rest
        match r.extent with
        | .error e => (ReadingOf.wrong e).cons (key, r.document)
        | .ok rest => (readEntries fuel depth false rest).cons (key, r.document)
      else .wrong .colonExpected
termination_by structural fuel => fuel

end

/-- How many brackets may open inside each other in a text. -/
def nestingLimit : Nat := 127

/-- The document of a text, and whether anything but blanks follows its value. -/
structure Whole where
  root : Document
  trailing : Bool

/-- The document of a text in which at most `limit` brackets open inside each other. At most three
steps pass no character between two that do, so the fuel is never used up. -/
def readWithin (limit : Nat) (text : List Char) : Whole :=
  let r := readValue (4 * text.length + 4) limit text
  let trailing := match r.extent with
    | .ok rest => !(Lexer.skipSpace rest).isEmpty
    | .error _ => false
  ⟨r.document, trailing⟩

/-- The document of a text. -/
def readText (text : String) : Whole :=
  readWithin nestingLimit text.toList

/-- The untyped value of a whole text. -/
def Whole.toJson (t : Whole) : Except SyntaxError Json := do
  let v ← t.root.toJson
  if t.trailing then .error .trailingCharacters else .ok v

end Document

/-- The untyped value of a text. -/
def Json.ofText (text : String) : Except SyntaxError Json :=
  (Document.readText text).toJson

end TypedWorkflow
