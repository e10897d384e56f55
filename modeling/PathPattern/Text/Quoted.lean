import PathPattern.Text.Hidden

/-!
# Quoted texts in messages

A message shows a text between double quotes. Quote, backslash, NUL, tab and the two line
ends have short escapes; a hidden character is written as its code point in hexadecimal
between braces; every other character stands for itself.
-/

namespace PathPattern.Text

/-- Lower-case hexadecimal digits, none of them superfluous. -/
def hexDigits (n : Nat) : List Char := Nat.toDigits 16 n

/-- The spelling of one character inside a quoted text. -/
def quotedChar (c : Char) : List Char :=
  if c = Char.ofNat 0 then ['\\', '0']
  else if c = '\t' then ['\\', 't']
  else if c = '\n' then ['\\', 'n']
  else if c = '\r' then ['\\', 'r']
  else if c = '"' then ['\\', '"']
  else if c = '\\' then ['\\', '\\']
  else if isHidden c then '\\' :: 'u' :: '\x7b' :: hexDigits c.toNat ++ ['\x7d']
  else [c]

/-- The text as a message quotes it. -/
def quoted (s : String) : String :=
  String.ofList ('"' :: s.toList.flatMap quotedChar ++ ['"'])

end PathPattern.Text
