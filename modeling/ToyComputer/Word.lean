import ToyComputer.Text.Numeral

/-!
Machine words: 32 bits, their arithmetic with its overflow report, their bytes in memory order, the
machine's truth values, and the ways a word is written for a reader.
-/

namespace ToyComputer

abbrev Word := UInt32

/-- A result cut down to a word, and whether the exact result was outside of the words. -/
structure Wrapped where
  value : Word
  overflow : Bool
  deriving DecidableEq, Repr

namespace Word

/-- A sum that lost its carry is smaller than either summand. -/
def add (a b : Word) : Wrapped := ⟨a + b, a + b < a⟩

def sub (a b : Word) : Wrapped := ⟨a - b, a < b⟩

/-- Two words multiply to at most 64 bits, so a product is too large if its upper half is not zero. -/
def mul (a b : Word) : Wrapped :=
  let wide := a.toUInt64 * b.toUInt64
  ⟨wide.toUInt32, wide >>> 32 != 0⟩

/-- Comparisons write 0 for true, so that a jump on zero can follow them directly. -/
def ofBool (b : Bool) : Word := if b then 0 else 0xFFFFFFFF

def shiftLeft (a amount : Word) : Word := a <<< (amount % 32)

def shiftRight (a amount : Word) : Word := a >>> (amount % 32)

def shiftRightSigned (a amount : Word) : Word :=
  UInt32.ofBitVec (a.toBitVec.sshiftRight (amount % 32).toNat)

def lowestByte (a : Word) : UInt8 := a.toUInt8

/-- The four bytes of a word, most significant first, as memory holds them. -/
def bytes (a : Word) : List UInt8 :=
  [(a >>> 24).toUInt8, (a >>> 16).toUInt8, (a >>> 8).toUInt8, a.toUInt8]

def ofBytes (bytes : List UInt8) : Word :=
  bytes.foldl (fun word byte => word <<< 8 ||| byte.toUInt32) 0

/-- The two's complement reading, given only where it differs from the unsigned one. -/
def negative? (a : Word) : Option Int :=
  if a.toNat < 0x80000000 then none else some (a.toNat - 0x100000000)

def hex (a : Word) : String :=
  let digits := Text.hexDigitsPadded 8 a.toNat
  "0x" ++ String.ofList (digits.take 4) ++ "_" ++ String.ofList (digits.drop 4)

end Word

end ToyComputer
