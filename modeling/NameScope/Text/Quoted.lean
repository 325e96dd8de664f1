import NameScope.Text.Hidden

/-!
# Quoted texts

A text in double quotes as it stands in diagnostics. The quote, the backslash
and the common controls have escapes of two characters; every other hidden
character is named by its code point. Apostrophes stay as they are.
-/

namespace NameScope.Text

/-- How one character stands inside quotes. -/
def quoteChar (c : Char) : String :=
  if c = '"' then "\\\""
  else if c = '\\' then "\\\\"
  else if c = '\n' then "\\n"
  else if c = '\r' then "\\r"
  else if c = '\t' then "\\t"
  else if c = '\x00' then "\\0"
  else if isHidden c then "\\u\x7b" ++ String.ofList (Nat.toDigits 16 c.toNat) ++ "\x7d"
  else String.singleton c

/-- A text in double quotes. -/
def quoted (text : String) : String :=
  "\"" ++ String.join (text.toList.map quoteChar) ++ "\""

end NameScope.Text
