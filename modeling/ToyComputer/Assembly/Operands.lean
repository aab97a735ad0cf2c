import ToyComputer.Assembly.Token

/-!
Operands: separated by single commas, with an address expression in brackets counting as one.
Spaces between tokens mean nothing.
-/

namespace ToyComputer.Assembly

inductive AddressPart where
  | register (register : Register)
  | offset (offset : Offset)
  deriving DecidableEq, Repr

namespace AddressPart

def register? : AddressPart → Option Register
  | register r => some r
  | offset _ => none

def offset? : AddressPart → Option Offset
  | register _ => none
  | offset o => some o

def ofName (name : String) : Except SourceError AddressPart :=
  if name = "pc" then .error .programCounterInAddress
  else
    match Register.ofName? name with
    | some r => .ok (register r)
    | none => .ok (offset (.label name))

end AddressPart

/-- The address with these parts, which may come in any order: at most one offset, at most two
registers, of which the first is the base, and not nothing at all. -/
def addressOfParts (parts : List AddressPart) : Except SourceError Addressing :=
  let registers := parts.filterMap AddressPart.register?
  let offsets := parts.filterMap AddressPart.offset?
  if 1 < offsets.length then .error .multipleOffsets
  else if 2 < registers.length then .error .tooManyRegisters
  else if parts.isEmpty then .error .emptyAddress
  else .ok ⟨registers[0]?, registers[1]?, offsets[0]?⟩

def operandOfName (name : String) : Except SourceError Operand :=
  if name = "pc" then .error .programCounterOperand
  else
    match Register.ofName? name with
    | some r => .ok (.register r)
    | none => .error (.bareLabelOperand name)

/-- What the tokens read so far allow next. -/
inductive Expected where
  /-- An operand, which has to come if a comma came before. -/
  | operand (afterComma : Bool)
  | comma
  /-- More of the address that began with the last opening bracket; `parts` has its parts, the
  latest first. -/
  | part (parts : List AddressPart)
  deriving DecidableEq, Repr

/-- Puts an operand before those that follow it. The error that comes first in the line counts. -/
def prependOperand :
    Except SourceError Operand → Except SourceError (List Operand) → Except SourceError (List Operand)
  | .error error, _ => .error error
  | .ok _, .error error => .error error
  | .ok operand, .ok operands => .ok (operand :: operands)

def operandsFrom (expected : Expected) : List Token → Except SourceError (List Operand)
  | [] =>
    match expected with
    | .operand true => .error .missingOperandAfterComma
    | .operand false | .comma => .ok []
    | .part _ => .error .unterminatedAddress
  | .space :: rest => operandsFrom expected rest
  | .comma :: rest =>
    match expected with
    | .operand _ => .error .unexpectedComma
    | .comma => operandsFrom (.operand true) rest
    | .part _ => .error .unexpectedTokenInAddress
  | .number word :: rest =>
    match expected with
    | .operand _ => prependOperand (.ok (.immediate word)) (operandsFrom .comma rest)
    | .comma => .error .missingComma
    | .part parts => operandsFrom (.part (.offset (.value word) :: parts)) rest
  | .identifier name :: rest =>
    match expected with
    | .operand _ => prependOperand (operandOfName name) (operandsFrom .comma rest)
    | .comma => .error .missingComma
    | .part parts =>
      match AddressPart.ofName name with
      | .ok part => operandsFrom (.part (part :: parts)) rest
      | .error error => .error error
  | .openBracket :: rest =>
    match expected with
    | .operand _ => operandsFrom (.part []) rest
    | .comma => .error .missingComma
    | .part _ => .error .unexpectedTokenInAddress
  | .closeBracket :: rest =>
    match expected with
    | .operand _ => .error .unexpectedToken
    | .comma => .error .missingComma
    | .part parts =>
      prependOperand ((addressOfParts parts.reverse).map .address) (operandsFrom .comma rest)
  | .colon :: _ =>
    match expected with
    | .operand _ => .error .unexpectedToken
    | .comma => .error .missingComma
    | .part _ => .error .unexpectedTokenInAddress

def operandsOfTokens (tokens : List Token) : Except SourceError (List Operand) :=
  operandsFrom (.operand false) tokens

end ToyComputer.Assembly
