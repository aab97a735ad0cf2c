import ToyComputer.Program
import ToyComputer.Text.Column

/-!
Listings: an assembled program as a table for a reader, with a row for each instruction and, below
them, one for each label.
-/

namespace ToyComputer

def Instruction.listingRow (address : Word) (instruction : Instruction) : String :=
  let opcode := instruction.operation.opcode
  "  ".intercalate [address.hex, String.ofList (Text.hexDigitsPadded 2 opcode.code.toNat),
    toString opcode.size, Text.alignRight 4 (toString (instruction.line + 1)),
    instruction.operation.text]

namespace Program

def listingRows (program : Program) : List String :=
  program.toList.map fun (address, instruction) => instruction.listingRow address

def labelRows (program : Program) : List String :=
  program.labels.byAddress.map fun (name, address) => address.hex ++ "  " ++ name ++ ":"

/-- The rows of the instructions, and behind an empty row those of the labels if there are any. -/
def listing (program : Program) : List String :=
  program.listingRows ++ if program.labels.isEmpty then [] else "" :: program.labelRows

end Program

end ToyComputer
