import RowStore.Text.Printable

/-! # Quoted text
A text between double quotes, as messages show it: quotes and backslashes are escaped by a backslash,
four controls have names, and every other character that cannot be shown is written as its number. -/

namespace RowStore.Quoted

/-- A character by its number in hexadecimal digits, between braces. -/
def byNumber (c : Char) : String :=
  "\\u\x7b" ++ String.ofList (Nat.toDigits 16 c.toNat) ++ "\x7d"

/-- A character inside text that `mark` encloses. -/
def escape (mark c : Char) : String :=
  if c = '\x00' then "\\0"
  else if c = '\t' then "\\t"
  else if c = '\r' then "\\r"
  else if c = '\n' then "\\n"
  else if c = '\\' then "\\\\"
  else if c = mark then "\\" ++ mark.toString
  else if isPrintable c then c.toString
  else byNumber c

/-- A text between double quotes. -/
def text (s : String) : String :=
  "\"" ++ String.join (s.toList.map (escape '"')) ++ "\""

/-- A character between single quotes. -/
def char (c : Char) : String :=
  "'" ++ escape '\'' c ++ "'"

end RowStore.Quoted
