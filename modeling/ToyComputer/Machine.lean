import ToyComputer.Machine.Memory
import ToyComputer.Machine.Registers
import ToyComputer.Program

/-!
The machine: registers, the overflow flag, memory and the program that it executes step by step.
-/

namespace ToyComputer

structure Machine where
  registers : Registers := Registers.initial
  overflow : Bool := false
  memory : Memory := {}
  program : Program := {}

inductive Status where
  | continuing | halted
  deriving DecidableEq, Repr

namespace Machine

def start (program : Program) : Machine := { program }

def empty : Machine := {}

instance : Inhabited Machine := ⟨empty⟩

def instruction? (machine : Machine) : Option Instruction :=
  machine.program.at? machine.registers.pc

def currentLine? (machine : Machine) : Option Nat := machine.instruction?.map Instruction.line

def isHalted (machine : Machine) : Bool := machine.instruction?.isNone

def pushKey (machine : Machine) (key : UInt8) : Bool × Machine :=
  let (accepted, memory) := machine.memory.pushKey key
  (accepted, { machine with memory })

def poke (machine : Machine) (address value : Word) : Except Fault Unit × Machine :=
  let (result, memory) := machine.memory.poke address.toNat value
  (result, { machine with memory })

/-- The wrapping sum of the parts of an address. -/
def effectiveAddress (machine : Machine) (address : Addressing) : Except Fault Word :=
  let register (part : Option Register) : Word := (part.map machine.registers.get).getD 0
  match address.offset with
  | some (.label label) => .error (.unresolvedLabel label)
  | some (.value offset) => .ok (offset + register address.base + register address.index)
  | none => .ok (register address.base + register address.index)

end Machine

end ToyComputer
