import Negotiation.Text.Invisible

/-!
Texts and characters in quotes. Line feed, carriage return, tab and the null character have short
escapes, other invisible characters are written by number; a quote is escaped inside its own kind of
quotes only.
-/

namespace Negotiation.Text

/-- A number in lower-case hexadecimal digits. -/
def hex (n : Nat) : String := String.ofList (Nat.toDigits 16 n)

/-- A character inside quotes that are written with `quote`. -/
def escaped (quote c : Char) : String :=
  if c = '\x00' then "\\0"
  else if c = '\t' then "\\t"
  else if c = '\r' then "\\r"
  else if c = '\n' then "\\n"
  else if c = '\\' ∨ c = quote then "\\" ++ String.singleton c
  else if isInvisible c then "\\u\x7b" ++ hex c.toNat ++ "\x7d"
  else String.singleton c

/-- A text in double quotes. -/
def quoted (s : String) : String :=
  s.toList.foldl (fun acc c => acc ++ escaped '"' c) "\"" ++ "\""

/-- A character in single quotes. -/
def quotedChar (c : Char) : String := "'" ++ escaped '\'' c ++ "'"

end Negotiation.Text
