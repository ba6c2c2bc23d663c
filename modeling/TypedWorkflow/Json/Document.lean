import TypedWorkflow.Json.Basic

/-!
# Documents

A document is a JSON text as far as it can be read. Where the text breaks off or goes wrong, the
tree holds the error that a reader meets at that spot, and nothing after it. A reader that wants a
value of a certain type goes through the tree in the order of the text, so that it reports the
first thing that is wrong, whether that is the syntax or the type. Keys may be repeated.

## Main definitions

* `SyntaxError`: what can be wrong with a JSON text.
* `Document`: a text as far as it can be read.
* `Document.toJson`: the untyped value, in which the last of several equal keys wins.
* `Document.ofJson`: the faultless document of a value.
-/

namespace TypedWorkflow

/-! ## Errors -/

/-- What can be wrong with a JSON text. -/
inductive SyntaxError where
  | endInValue
  | endInList
  | endInObject
  | endInString
  | valueExpected
  | wordExpected
  | colonExpected
  | listCommaExpected
  | objectCommaExpected
  | keyNotString
  | trailingComma
  | trailingCharacters
  | invalidNumber
  | numberOutOfRange
  | invalidEscape
  | surrogateUnpaired
  | surrogateMisplaced
  | controlCharacter
  | nestingTooDeep
  deriving DecidableEq

namespace SyntaxError

/-- The text of an error. -/
def message : SyntaxError → String
  | endInValue => "EOF while parsing a value"
  | endInList => "EOF while parsing a list"
  | endInObject => "EOF while parsing an object"
  | endInString => "EOF while parsing a string"
  | valueExpected => "expected value"
  | wordExpected => "expected ident"
  | colonExpected => "expected `:`"
  | listCommaExpected => "expected `,` or `]`"
  | objectCommaExpected => "expected `,` or `\x7d`"
  | keyNotString => "key must be a string"
  | trailingComma => "trailing comma"
  | trailingCharacters => "trailing characters"
  | invalidNumber => "invalid number"
  | numberOutOfRange => "number out of range"
  | invalidEscape => "invalid escape"
  | surrogateUnpaired => "unexpected end of hex escape"
  | surrogateMisplaced => "lone leading surrogate in hex escape"
  | controlCharacter => "control character (\\u0000-\\u001F) found while parsing a string"
  | nestingTooDeep => "recursion limit exceeded"

/-- Whether the text ends too early, rather than going wrong at a character. -/
def isEnd : SyntaxError → Bool
  | endInValue | endInList | endInObject | endInString => true
  | _ => false

end SyntaxError

/-! ## Documents -/

/-- The two brackets of a JSON text. -/
inductive Bracket where
  | list
  | object
  deriving DecidableEq

/-- A JSON text as far as it can be read. The `fault` of an array or object is the error that
stands where its next item or its end should be; `none` if it is closed. -/
inductive Document where
  | null
  | bool (value : Bool)
  | num (value : Number)
  | str (value : String)
  | arr (items : List Document) (fault : Option SyntaxError)
  | obj (entries : List (String × Document)) (fault : Option SyntaxError)
  /-- An array or object that stands too deep to be read. -/
  | deep (bracket : Bracket)
  | broken (error : SyntaxError)

instance : Inhabited Document := ⟨.null⟩

namespace Document

/-- A faultless result unless there is a fault. -/
def orFault {α : Type} (result : α) : Option SyntaxError → Except SyntaxError α
  | none => .ok result
  | some e => .error e

mutual

/-- The untyped value of a document. A repeated key keeps its first place and takes its last
value. -/
def toJson : Document → Except SyntaxError Json
  | .null => .ok .null
  | .bool b => .ok (.bool b)
  | .num n => .ok (.num n)
  | .str s => .ok (.str s)
  | .arr items fault => do orFault (.arr (← toJsonItems items)) fault
  | .obj es fault => do orFault (.obj (← toJsonEntries [] es)) fault
  | .deep _ => .error .nestingTooDeep
  | .broken e => .error e

/-- The untyped values of the items of an array. -/
def toJsonItems : List Document → Except SyntaxError (List Json)
  | [] => .ok []
  | d :: rest => do return (← d.toJson) :: (← toJsonItems rest)

/-- The untyped values of the entries of an object, put into the entries read before. -/
def toJsonEntries (read : Json.Entries) :
    List (String × Document) → Except SyntaxError Json.Entries
  | [] => .ok read
  | (k, d) :: rest => do toJsonEntries (Json.insert k (← d.toJson) read) rest

end

mutual

/-- The faultless document of a value. -/
def ofJson : Json → Document
  | .null => .null
  | .bool b => .bool b
  | .num n => .num n
  | .str s => .str s
  | .arr items => .arr (ofJsonItems items) none
  | .obj es => .obj (ofJsonEntries es) none

/-- The documents of the items of an array. -/
def ofJsonItems : List Json → List Document
  | [] => []
  | v :: rest => ofJson v :: ofJsonItems rest

/-- The documents of the entries of an object. -/
def ofJsonEntries : Json.Entries → List (String × Document)
  | [] => []
  | (k, v) :: rest => (k, ofJson v) :: ofJsonEntries rest

end

end Document

end TypedWorkflow
