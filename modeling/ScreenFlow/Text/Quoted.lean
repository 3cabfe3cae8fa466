import ScreenFlow.Text.Shapeless

/-!
# Quoted text in messages

A message quotes the text it is about. Quotes, backslashes and the usual controls have short
escapes; every other character without a shape of its own is shown by its number.
-/

namespace ScreenFlow.Text

/-- An escape that shows a character by its hexadecimal number. -/
def numberEscape (c : Char) : List Char :=
  ['\\', 'u', '\x7b'] ++ Nat.toDigits 16 c.toNat ++ ['\x7d']

/-- A character inside a quoted text. -/
def quotedChar (c : Char) : List Char :=
  if c = '"' then ['\\', '"']
  else if c = '\\' then ['\\', '\\']
  else if c = '\n' then ['\\', 'n']
  else if c = '\r' then ['\\', 'r']
  else if c = '\t' then ['\\', 't']
  else if c.toNat = 0 then ['\\', '0']
  else if c.toNat < 32 then numberEscape c
  else if c.toNat < 127 then [c]
  else if isShapeless c then numberEscape c
  else [c]

/-- A text in quotes. -/
def quoted (s : String) : String := String.ofList ('"' :: s.toList.flatMap quotedChar ++ ['"'])

end ScreenFlow.Text
