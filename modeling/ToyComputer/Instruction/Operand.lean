import ToyComputer.Instruction.Addressing

/-!
Operands as they are written, and their kinds, from which the patterns of the instruction set are
made.
-/

namespace ToyComputer

inductive Operand where
  | register (register : Register)
  | immediate (value : Word)
  | address (address : Addressing)
  deriving DecidableEq, Repr

namespace Operand

inductive Kind where
  | register | value | address
  deriving DecidableEq, Repr

namespace Kind

def letter : Kind → Char
  | register => 'r'
  | value => 'v'
  | address => 'a'

/-- The bytes that an operand takes up in an encoded instruction: an address has room for two
registers and a word. -/
def size : Kind → Nat
  | register => 1
  | value => 4
  | address => 6

end Kind

def kind : Operand → Kind
  | register _ => .register
  | immediate _ => .value
  | address _ => .address

def register? : Operand → Option Register
  | register r => some r
  | _ => none

def value? : Operand → Option Word
  | immediate value => some value
  | _ => none

def address? : Operand → Option Addressing
  | address a => some a
  | _ => none

def text : Operand → String
  | register r => r.name
  | immediate value => toString value.toNat
  | address a => a.text

end Operand

def patternText (pattern : List Operand.Kind) : String :=
  String.ofList (pattern.map Operand.Kind.letter)

end ToyComputer
