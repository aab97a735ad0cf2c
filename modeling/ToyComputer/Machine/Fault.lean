import ToyComputer.Word

/-!
Faults: why an instruction cannot be carried out.
-/

namespace ToyComputer

/-- Addresses are natural numbers here, because a word's bytes may run past the last address. -/
inductive Fault where
  | illegalAddress (address : Nat)
  | invalidByte (value : Word)
  | divisionByZero
  | unresolvedLabel (label : String)
  deriving DecidableEq, Repr

def Fault.message : Fault → String
  | illegalAddress address =>
    let shown :=
      if address < 0x100000000 then Word.hex (UInt32.ofNat address)
      else "0x" ++ String.ofList (Text.hexDigits address)
    "Address " ++ shown ++ " is invalid"
  | invalidByte value => "Byte value " ++ toString value.toNat ++ " is invalid"
  | divisionByZero => "Division by zero"
  | unresolvedLabel label => "Label " ++ label ++ " was never resolved"

end ToyComputer
