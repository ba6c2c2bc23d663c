import TypedWorkflow.Error
import TypedWorkflow.Sha256
import TypedWorkflow.Text.Blank
import TypedWorkflow.Text.Uppercase

/-!
# Visual tags

How a node shows in a palette: an acronym and a color. A node without a tag of its own gets one
from its name.

## Main definitions

* `VisualTag`: an acronym that is not blank and a hexadecimal color.
* `VisualTag.make`: a tag from its parts.
* `VisualTag.ofName`: the tag that a name gives.
-/

namespace TypedWorkflow

-- powers are those of the core library, whatever else is imported
attribute [local instance (high)] instPowNat

/-- How a node shows in a palette. -/
structure VisualTag where
  acronym : String
  color : String
  deriving DecidableEq

namespace VisualTag

/-- Whether a text is a hexadecimal color: `#` and three or six hexadecimal digits. -/
def isHexColor (color : List Char) : Bool :=
  match color with
  | '#' :: digits =>
    (digits.length == 3 || digits.length == 6) &&
      digits.all fun c => (Lexer.hexValue? c).isSome
  | _ => false

/-- The tag with the given parts. -/
def make (acronym color : String) : Except WorkflowError VisualTag :=
  if (Text.trim acronym.toList).isEmpty then .error (.invalidVisualTag .acronymBlank)
  else if !isHexColor color.toList then .error (.invalidVisualTag (.notHexColor color))
  else .ok ⟨acronym, color⟩

/-- The colors of tags that names give. -/
def palette : List String :=
  ["#007BFF", "#28A745", "#FFC107", "#DC3545", "#6F42C1", "#FD7E14", "#20C997", "#E83E8C",
    "#17A2B8", "#6610F2", "#8CC63F", "#FF00FF", "#FFD700", "#FF7F50", "#40E0D0", "#00BFFF",
    "#FF5522", "#FA8072", "#8A2BE2"]

/-- The first characters of the words of a name, which underscores separate, after a character
that starts a word or not. -/
def initials : Bool → List Char → List Char
  | _, [] => []
  | start, c :: cs =>
    if c = '_' then initials true cs
    else if start then c :: initials false cs
    else initials false cs

/-- The index of a color that a name gives: the first 64 bits of its digest modulo the number of
colors. -/
def colorIndex (name : String) : Nat :=
  let digest := Sha256.digest name.toUTF8.toList
  (digest.a.toNat * 2 ^ (32 : Nat) + digest.b.toNat) % palette.length

/-- The tag that a name gives: its initials in upper case, and a color. -/
def ofName (name : String) : VisualTag :=
  ⟨String.ofList (Text.upper (initials true name.toList)), palette.getD (colorIndex name) ""⟩

/-- The object of a tag. -/
def toJson (t : VisualTag) : Json :=
  .obj [("acronym", .str t.acronym), ("color", .str t.color)]

end VisualTag

end TypedWorkflow
