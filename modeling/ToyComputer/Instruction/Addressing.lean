import ToyComputer.Instruction.Register
import ToyComputer.Text.Numeral
import ToyComputer.Word

/-!
Address expressions: the bracketed operands that name a place in memory.
-/

namespace ToyComputer

/-- The constant part of an address, which is a label's name until the label's address is known. -/
inductive Offset where
  | value (word : Word)
  | label (name : String)
  deriving DecidableEq, Repr

structure Addressing where
  base : Option Register := none
  index : Option Register := none
  offset : Option Offset := none
  deriving DecidableEq, Repr

def Offset.text : Offset → String
  | .value word => "0x" ++ String.ofList (Text.hexDigits word.toNat)
  | .label name => name

namespace Addressing

def parts (address : Addressing) : List String :=
  (address.base.map Register.name).toList ++ (address.index.map Register.name).toList ++
    (address.offset.map Offset.text).toList

def text (address : Addressing) : String := "[" ++ " ".intercalate address.parts ++ "]"

def label? (address : Addressing) : Option String :=
  match address.offset with
  | some (.label name) => some name
  | _ => none

def withOffset (address : Addressing) (value : Word) : Addressing :=
  { address with offset := some (.value value) }

end Addressing

end ToyComputer
