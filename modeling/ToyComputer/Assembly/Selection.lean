import ToyComputer.Assembly.Error
import ToyComputer.Instruction.Mnemonics
import ToyComputer.Instruction.Operation

/-!
Selection: the encoding of a mnemonic that takes the operands which were written, and the operation
that it forms of them.
-/

namespace ToyComputer

/-- Operands that are handed out in their order. -/
abbrev Handing := StateT (List Operand) (Except SourceError)

namespace Handing

/-- The next operand, which has to be of the wanted kind. The error tells of the operands behind it
only. -/
def next {α : Type} (mnemonic : String) (wanted : Operand → Option α) : Handing α
  | [] => .error (.noMatchingPattern mnemonic [])
  | operand :: rest =>
    match wanted operand with
    | some content => .ok (content, rest)
    | none => .error (.noMatchingPattern mnemonic (rest.map Operand.kind))

def register (mnemonic : String) : Handing Register := next mnemonic Operand.register?

def value (mnemonic : String) : Handing Word := next mnemonic Operand.value?

def address (mnemonic : String) : Handing Addressing := next mnemonic Operand.address?

def source (mnemonic : String) : Form → Handing Source
  | .register => return .register (← register mnemonic)
  | .immediate => return .immediate (← value mnemonic)

end Handing

open Handing in
def Opcode.build (opcode : Opcode) : Handing Operation :=
  let name := opcode.mnemonic
  match opcode with
  | copy form => return .copy (← register name) (← source name form)
  | store width => return .store width (← address name) (← register name)
  | load width => return .load width (← register name) (← address name)
  | flexible op form => return .flexible op (← register name) (← register name) (← source name form)
  | registers op => return .registers op (← register name) (← register name) (← register name)
  | negate => return .negate (← register name)
  | flow => return .flow (← register name)
  | jump => return .jump (← address name)
  | jumpIfZero => return .jumpIfZero (← register name) (← address name)
  | call => return .call (← address name)
  | ret => return .ret

namespace Assembly

/-- The operation that a mnemonic forms with the given operands: by the first of its encodings that
takes them. -/
def resolve (mnemonic : String) (operands : List Operand) : Except SourceError Operation :=
  match encodings? mnemonic with
  | none => .error (.unknownMnemonic mnemonic)
  | some encodings =>
    match encodings.find? (·.takes operands) with
    | some encoding => encoding.opcode.build.run' operands
    | none => .error (.noMatchingPattern mnemonic (operands.map Operand.kind))

end Assembly

end ToyComputer
