import CodeAtlas.Text.Lower
import CodeAtlas.Text.VisibleTable

/-!
# Quoted text

A text between double quotes in which every character can be told apart: quotes and backslashes are escaped,
and what has no picture of its own is named by its number.
-/

namespace CodeAtlas.Text

/-- A number in base sixteen, in lower case. -/
def hex (n : Nat) : String := String.ofList (Nat.toDigits 16 n)

/-- One character inside quotes. -/
def quotedChar (c : Char) : String :=
  if c = '"' then "\\\""
  else if c = '\\' then "\\\\"
  else if c = '\n' then "\\n"
  else if c = '\r' then "\\r"
  else if c = '\t' then "\\t"
  else if c.toNat = 0 then "\\0"
  else if c.toNat < 0x20 || (0x7F ≤ c.toNat && inRanges unshown c) then "\\u\x7b" ++ hex c.toNat ++ "\x7d"
  else String.singleton c

/-- A text in quotes. -/
def quoted (s : String) : String := "\"" ++ String.join (s.toList.map quotedChar) ++ "\""

end CodeAtlas.Text
