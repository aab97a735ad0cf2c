import ToyComputer.Instruction.Operand

/-!
The instruction set: every encoding with its number, its mnemonic, the operands that it takes and
its size.
-/

namespace ToyComputer

inductive Width where
  | byte | word
  deriving DecidableEq, Repr

/-- Operations on two words whose second word may stand in the instruction itself. -/
inductive FlexibleOp where
  | add | and | or | xor | lshift | zrshift | rshift
  deriving DecidableEq, Repr

/-- Operations on two words that must both be in registers. -/
inductive RegisterOp where
  | sub | mul | div | mod | eq | neq | gt | lt | gte | lte
  deriving DecidableEq, Repr

inductive Form where
  | register | immediate
  deriving DecidableEq, Repr

inductive Opcode where
  | copy (form : Form)
  | store (width : Width)
  | load (width : Width)
  | flexible (op : FlexibleOp) (form : Form)
  | registers (op : RegisterOp)
  | negate
  | flow
  | jump
  | jumpIfZero
  | call
  | ret
  deriving DecidableEq, Repr

def FlexibleOp.all : List FlexibleOp := [add, and, or, xor, lshift, zrshift, rshift]

def RegisterOp.all : List RegisterOp := [sub, mul, div, mod, eq, neq, gt, lt, gte, lte]

def FlexibleOp.mnemonic : FlexibleOp → String
  | add => "add"
  | and => "and"
  | or => "or"
  | xor => "xor"
  | lshift => "lshift"
  | zrshift => "zrshift"
  | rshift => "rshift"

def RegisterOp.mnemonic : RegisterOp → String
  | sub => "sub"
  | mul => "mul"
  | div => "div"
  | mod => "mod"
  | eq => "eq"
  | neq => "neq"
  | gt => "gt"
  | lt => "lt"
  | gte => "gte"
  | lte => "lte"

/-- Shifts have their immediate form first, all others their register form. -/
def FlexibleOp.code : FlexibleOp → Form → UInt8
  | add, .register => 0x10
  | add, .immediate => 0x11
  | and, .register => 0x30
  | and, .immediate => 0x31
  | or, .register => 0x32
  | or, .immediate => 0x33
  | xor, .register => 0x34
  | xor, .immediate => 0x35
  | lshift, .immediate => 0x40
  | lshift, .register => 0x41
  | zrshift, .immediate => 0x42
  | zrshift, .register => 0x43
  | rshift, .immediate => 0x44
  | rshift, .register => 0x45

def RegisterOp.code : RegisterOp → UInt8
  | sub => 0x12
  | mul => 0x13
  | div => 0x14
  | mod => 0x15
  | eq => 0x20
  | neq => 0x21
  | gt => 0x22
  | lt => 0x23
  | gte => 0x24
  | lte => 0x25

def Form.kind : Form → Operand.Kind
  | register => .register
  | immediate => .value

namespace Opcode

def all : List Opcode :=
  [copy .register, copy .immediate, store .byte, load .byte, store .word, load .word] ++
    FlexibleOp.all.flatMap (fun op => [flexible op .register, flexible op .immediate]) ++
    RegisterOp.all.map registers ++ [negate, flow, jump, jumpIfZero, call, ret]

def code : Opcode → UInt8
  | copy .register => 0x00
  | copy .immediate => 0x01
  | store .byte => 0x02
  | load .byte => 0x03
  | store .word => 0x04
  | load .word => 0x05
  | flexible op form => op.code form
  | registers op => op.code
  | negate => 0x16
  | flow => 0x17
  | jump => 0x50
  | jumpIfZero => 0x51
  | call => 0x52
  | ret => 0x53

def mnemonic : Opcode → String
  | copy _ => "copy"
  | store .byte => "sb"
  | load .byte => "lb"
  | store .word => "sw"
  | load .word => "lw"
  | flexible op _ => op.mnemonic
  | registers op => op.mnemonic
  | negate => "neg"
  | flow => "flow"
  | jump => "jump"
  | jumpIfZero => "zjump"
  | call => "call"
  | ret => "return"

def pattern : Opcode → List Operand.Kind
  | copy form => [.register, form.kind]
  | store _ => [.address, .register]
  | load _ => [.register, .address]
  | flexible _ form => [.register, .register, form.kind]
  | registers _ => [.register, .register, .register]
  | negate | flow => [.register]
  | jump | call => [.address]
  | jumpIfZero => [.register, .address]
  | ret => []

/-- One byte for the opcode's number, and the operands behind it. -/
def size (opcode : Opcode) : Nat :=
  1 + opcode.pattern.foldr (fun kind bytes => kind.size + bytes) 0

theorem mem_all (opcode : Opcode) : opcode ∈ all := by
  cases opcode with
  | copy form => cases form <;> decide
  | store width => cases width <;> decide
  | load width => cases width <;> decide
  | flexible op form => cases op <;> cases form <;> decide
  | registers op => cases op <;> decide
  | _ => decide

end Opcode

end ToyComputer
