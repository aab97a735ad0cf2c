import ToyComputer.Instruction.Operand
import ToyComputer.Text.Quoted

/-!
What can be wrong with a source text, and how it is reported.
-/

namespace ToyComputer

/-- Columns count the bytes before a place; messages count from one. -/
inductive SourceError where
  | unexpectedCharacter (character : Char) (column : Nat)
  | expectedDigits (column : Nat)
  | literalOutOfRange (literal : String)
  | expectedMnemonic
  | unexpectedComma
  | missingComma
  | missingOperandAfterComma
  | unexpectedToken
  | programCounterOperand
  | bareLabelOperand (label : String)
  | unterminatedAddress
  | unexpectedTokenInAddress
  | programCounterInAddress
  | multipleOffsets
  | tooManyRegisters
  | emptyAddress
  | unknownMnemonic (mnemonic : String)
  | noMatchingPattern (mnemonic : String) (found : List Operand.Kind)
  | labelRedefined (label : String)
  | undefinedLabel (label : String)
  | programTooLarge
  deriving DecidableEq, Repr

def SourceError.message : SourceError → String
  | unexpectedCharacter character column =>
    "Invalid character " ++ Text.quoteChar character ++ " in column " ++ toString (column + 1)
  | expectedDigits column => "Expected digits in column " ++ toString (column + 1)
  | literalOutOfRange literal =>
    "Number " ++ literal ++ " is outside of the range -2147483648 to 4294967295"
  | expectedMnemonic => "Expected mnemonic"
  | unexpectedComma => "Unexpected comma"
  | missingComma => "Missing comma between operands"
  | missingOperandAfterComma => "Missing operand after comma"
  | unexpectedToken => "Unexpected token"
  | programCounterOperand => "The pc register cannot be used as an operand"
  | bareLabelOperand label => "Label " ++ label ++ " can only be used inside of an address"
  | unterminatedAddress => "Address is missing closing ]"
  | unexpectedTokenInAddress => "Unexpected token in address"
  | programCounterInAddress => "Cannot use pc in an address"
  | multipleOffsets => "Address has more than one offset"
  | tooManyRegisters => "Address has more than two registers"
  | emptyAddress => "Address has no registers or offset"
  | unknownMnemonic mnemonic => "Unknown mnemonic: " ++ mnemonic
  | noMatchingPattern mnemonic found =>
    "Invalid operands for " ++ mnemonic ++ ": no encoding takes '" ++ patternText found ++ "'"
  | labelRedefined label => "Cannot define label " ++ label ++ " more than once"
  | undefinedLabel label => "Label " ++ label ++ " is not defined"
  | programTooLarge => "Program does not fit into the address space"

structure AssemblyError where
  line : Nat
  cause : SourceError
  deriving DecidableEq, Repr

namespace AssemblyError

def message (error : AssemblyError) : String :=
  "Line " ++ toString (error.line + 1) ++ ": " ++ error.cause.message

def sources (error : AssemblyError) : List String := [error.cause.message]

end AssemblyError

end ToyComputer
