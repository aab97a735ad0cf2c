import ToyComputer.Instruction.Opcode

/-!
Operations: an opcode together with the operands that it takes, in the shape in which the machine
carries it out. `Operation.operands` lists them as they are written.
-/

namespace ToyComputer

inductive Source where
  | register (register : Register)
  | immediate (value : Word)
  deriving DecidableEq, Repr

inductive Operation where
  | copy (target : Register) (source : Source)
  | store (width : Width) (target : Addressing) (source : Register)
  | load (width : Width) (target : Register) (source : Addressing)
  | flexible (op : FlexibleOp) (target left : Register) (right : Source)
  | registers (op : RegisterOp) (target left right : Register)
  | negate (register : Register)
  | flow (target : Register)
  | jump (target : Addressing)
  | jumpIfZero (register : Register) (target : Addressing)
  | call (target : Addressing)
  | ret
  deriving DecidableEq, Repr

namespace Source

def form : Source → Form
  | register _ => .register
  | immediate _ => .immediate

def operand : Source → Operand
  | register r => .register r
  | immediate value => .immediate value

end Source

namespace Operation

def opcode : Operation → Opcode
  | copy _ source => .copy source.form
  | store width .. => .store width
  | load width .. => .load width
  | flexible op _ _ right => .flexible op right.form
  | registers op .. => .registers op
  | negate _ => .negate
  | flow _ => .flow
  | jump _ => .jump
  | jumpIfZero .. => .jumpIfZero
  | call _ => .call
  | ret => .ret

def size (operation : Operation) : Nat := operation.opcode.size

def operands : Operation → List Operand
  | copy target source => [.register target, source.operand]
  | store _ target source => [.address target, .register source]
  | load _ target source => [.register target, .address source]
  | flexible _ target left right => [.register target, .register left, right.operand]
  | registers _ target left right => [.register target, .register left, .register right]
  | negate register => [.register register]
  | flow target => [.register target]
  | jump target => [.address target]
  | jumpIfZero register target => [.register register, .address target]
  | call target => [.address target]
  | ret => []

def text (operation : Operation) : String :=
  match operation.operands with
  | [] => operation.opcode.mnemonic
  | operands => operation.opcode.mnemonic ++ " " ++ ", ".intercalate (operands.map Operand.text)

/-- The address that the operation names. No operation names two. -/
def address? : Operation → Option Addressing
  | store _ target _ => some target
  | load _ _ source => some source
  | jump target => some target
  | jumpIfZero _ target => some target
  | call target => some target
  | _ => none

def withAddress (address : Addressing) : Operation → Operation
  | store width _ source => store width address source
  | load width target _ => load width target address
  | jump _ => jump address
  | jumpIfZero register _ => jumpIfZero register address
  | call _ => call address
  | operation => operation

theorem size_pos (operation : Operation) : 0 < operation.size := by
  simp only [size, Opcode.size]
  omega

theorem opcode_withAddress (address : Addressing) (operation : Operation) :
    (operation.withAddress address).opcode = operation.opcode := by
  cases operation <;> rfl

end Operation

end ToyComputer
