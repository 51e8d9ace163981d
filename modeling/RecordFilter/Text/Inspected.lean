import RecordFilter.Text.Visible

/-!
# Strings shown in messages

A string stands between quotation marks. Quotation marks, backslashes and the commonest control
characters are escaped by a letter, and every other character that does not show by itself by its
code point in braces.
-/

namespace RecordFilter.Text

/-- A character inside quotation marks. -/
def inspectedChar (c : Char) : List Char :=
  if c = '"' then ['\\', '"']
  else if c = '\\' then ['\\', '\\']
  else if c = '\n' then ['\\', 'n']
  else if c = '\r' then ['\\', 'r']
  else if c = '\t' then ['\\', 't']
  else if c = '\x00' then ['\\', '0']
  else if shows c then [c]
  else '\\' :: 'u' :: '\x7b' :: Nat.toDigits 16 c.toNat ++ ['\x7d']

/-- A text as it is shown in a message. -/
def inspected (s : String) : List Char := '"' :: s.toList.flatMap inspectedChar ++ ['"']

end RecordFilter.Text
