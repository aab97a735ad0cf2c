import ToyComputer.Assembly.Error
import ToyComputer.Text.Cursor

/-!
Number literals: `0x` with hexadecimal digits, between which underscores may stand, or decimal
digits that may follow a minus. Negative numbers stand for their two's complement.
-/

namespace ToyComputer.Assembly

open ToyComputer.Text

inductive Literal where
  | hexadecimal (digits : List Char)
  | decimal (negative : Bool) (digits : List Char)
  deriving DecidableEq, Repr

namespace Literal

def isHexadecimalPart (c : Char) : Bool := isHexDigit c || c == '_'

def hasDigits : Literal → Bool
  | hexadecimal digits => digits.any (· != '_')
  | decimal _ digits => !digits.isEmpty

/-- The word that a literal stands for. Decimal literals reach from the least signed word to the
largest unsigned one. -/
def value? : Literal → Option Word
  | hexadecimal digits =>
    let number := numeralValue 16 (digits.filter (· != '_'))
    if number < 0x100000000 then some (UInt32.ofNat number) else none
  | decimal false digits =>
    let number := numeralValue 10 digits
    if number < 0x100000000 then some (UInt32.ofNat number) else none
  | decimal true digits =>
    let number := numeralValue 10 digits
    if number ≤ 0x80000000 then some (UInt32.ofNat (0x100000000 - number)) else none

def text : Literal → String
  | hexadecimal digits => "0x" ++ String.ofList digits
  | decimal false digits => String.ofList digits
  | decimal true digits => "-" ++ String.ofList digits

def scan (cursor : Cursor) : Spanned Literal × Cursor :=
  match cursor.rest with
  | '0' :: 'x' :: rest | '0' :: 'X' :: rest =>
    let (digits, after) := Cursor.takeWhile isHexadecimalPart ⟨cursor.offset + 2, rest⟩
    (⟨digits.start, digits.stop, hexadecimal digits.content⟩, after)
  | '-' :: rest =>
    let (digits, after) := Cursor.takeWhile Char.isDigit ⟨cursor.offset + 1, rest⟩
    (⟨digits.start, digits.stop, decimal true digits.content⟩, after)
  | _ =>
    let (digits, after) := cursor.takeWhile Char.isDigit
    (⟨digits.start, digits.stop, decimal false digits.content⟩, after)

def check (literal : Spanned Literal) : Except SourceError Word :=
  if literal.content.hasDigits then
    match literal.content.value? with
    | some word => .ok word
    | none => .error (.literalOutOfRange literal.content.text)
  else
    .error (.expectedDigits literal.start)

theorem length_rest_scan {first : Char} {rest : List Char} {cursor : Cursor}
    (here : cursor.rest = first :: rest) (starts : first = '-' ∨ first.isDigit) :
    (scan cursor).2.rest.length ≤ rest.length := by
  have shrinks (p : Char → Bool) (text : List Char) : (text.dropWhile p).length ≤ text.length :=
    (List.dropWhile_suffix p).length_le
  unfold scan
  split
  · next found =>
      have := here.symm.trans found
      simp only [Cursor.takeWhile, List.cons.injEq] at this ⊢
      have := shrinks isHexadecimalPart
      grind
  · next found =>
      have := here.symm.trans found
      simp only [Cursor.takeWhile, List.cons.injEq] at this ⊢
      have := shrinks isHexadecimalPart
      grind
  · next found =>
      have := here.symm.trans found
      simp only [Cursor.takeWhile, List.cons.injEq] at this ⊢
      have := shrinks Char.isDigit
      grind
  · next notMinus =>
      have digit : first.isDigit = true := by
        rcases starts with minus | digit
        · exact absurd (minus ▸ here) (notMinus rest)
        · exact digit
      simpa [Cursor.takeWhile, here, digit] using shrinks Char.isDigit rest

end Literal

end ToyComputer.Assembly
