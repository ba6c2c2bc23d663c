import TypedWorkflow.Text.Invisible

/-!
# Quoted texts in messages

A text that a message quotes stands between quotation marks, and what would not show in it is
escaped.

## Main definitions

* `Text.quoted`: a text between quotation marks.
-/

namespace TypedWorkflow.Text

/-- A character inside a quoted text. -/
def quotedChar (c : Char) : List Char :=
  if c = '"' then ['\\', '"']
  else if c = '\\' then ['\\', '\\']
  else if c = '\t' then ['\\', 't']
  else if c = '\n' then ['\\', 'n']
  else if c = '\x0d' then ['\\', 'r']
  else if c = '\x00' then ['\\', '0']
  else if isInvisible c then '\\' :: 'u' :: '\x7b' :: (Nat.toDigits 16 c.toNat ++ ['\x7d'])
  else [c]

/-- A text between quotation marks. -/
def quoted (s : String) : String :=
  String.ofList ('"' :: (s.toList.flatMap quotedChar ++ ['"']))

end TypedWorkflow.Text
