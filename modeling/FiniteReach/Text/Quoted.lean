import FiniteReach.Text.Formless

/-!
# Quoted texts

Messages quote a text so that every character of it can be seen: quotes, backslashes and the common
controls have escapes of two characters, and a character without a form of its own is written as
its number in hexadecimal.
-/

namespace FiniteReach.Text

/-- How a character is written between quotes. -/
def escaped (c : Char) : String :=
  if c = '"' then "\\\""
  else if c = '\\' then "\\\\"
  else if c = '\n' then "\\n"
  else if c = '\r' then "\\r"
  else if c = '\t' then "\\t"
  else if c = '\x00' then "\\0"
  else if isFormless c then "\\u\x7b" ++ String.ofList (Nat.toDigits 16 c.toNat) ++ "\x7d"
  else c.toString

/-- A text between quotes. -/
def quoted (s : String) : String := "\"" ++ String.join (s.toList.map escaped) ++ "\""

end FiniteReach.Text
