import ToyComputer.Text.Hidden

/-!
Quoted characters: how a message shows one character so that it can be recognised.
-/

namespace ToyComputer.Text

/-- A character that would be taken for the quotes' end, or would not show, is written with a
backslash; hidden characters without a letter of their own give their code point. -/
def escapeChar (c : Char) : String :=
  if c = '\x00' then "\\0"
  else if c = '\t' then "\\t"
  else if c = '\n' then "\\n"
  else if c = '\r' then "\\r"
  else if c = '\'' then "\\'"
  else if c = '\\' then "\\\\"
  else if isHidden c then "\\u\x7b" ++ String.ofList (Nat.toDigits 16 c.toNat) ++ "\x7d"
  else String.singleton c

def quoteChar (c : Char) : String := "'" ++ escapeChar c ++ "'"

end ToyComputer.Text
