import RevisionLog.Text.Printable

/-!
# Quoted text

File names and damaged lines appear in messages between double quotes. Quotes, backslashes and
characters that do not print are escaped, so a quoted text is one printable line and its first
unescaped quote ends it.
-/

namespace RevisionLog.Text

/-- A character inside quotes: the common escapes by letter, others that do not print by number. -/
def quotedChar (c : Char) : List Char :=
  if c = '"' then ['\\', '"']
  else if c = '\\' then ['\\', '\\']
  else if c = '\n' then ['\\', 'n']
  else if c = '\t' then ['\\', 't']
  else if c = '\r' then ['\\', 'r']
  else if c.toNat = 0 then ['\\', '0']
  else if isPrintable c then [c]
  else ['\\', 'u', '\x7b'] ++ Nat.toDigits 16 c.toNat ++ ['\x7d']

/-- A text between double quotes. -/
def quoted (text : String) : String :=
  String.ofList ('"' :: text.toList.flatMap quotedChar ++ ['"'])

end RevisionLog.Text
