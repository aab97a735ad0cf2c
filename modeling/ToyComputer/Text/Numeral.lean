/-!
Numbers as digits: the value that digits spell in a base, and the hexadecimal spelling that
listings and messages use.
-/

namespace ToyComputer.Text

def digitValue (c : Char) : Nat :=
  if c.isDigit then c.toNat - '0'.toNat
  else if 'a' ≤ c ∧ c ≤ 'z' then c.toNat - 'a'.toNat + 10
  else c.toNat - 'A'.toNat + 10

def numeralValue (base : Nat) (digits : List Char) : Nat :=
  digits.foldl (fun value digit => value * base + digitValue digit) 0

def isHexDigit (c : Char) : Bool :=
  c.isDigit || ('a' ≤ c && c ≤ 'f') || ('A' ≤ c && c ≤ 'F')

def hexDigits (n : Nat) : List Char := (Nat.toDigits 16 n).map Char.toUpper

def hexDigitsPadded (width n : Nat) : List Char := (hexDigits n).leftpad width '0'

end ToyComputer.Text
