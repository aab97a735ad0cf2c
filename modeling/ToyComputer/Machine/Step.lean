import ToyComputer.Machine

/-!
Steps: what each operation does. An operation first does all that can fail, which leaves its traces
in memory only; registers, flag and program counter change when it has succeeded.
-/

namespace ToyComputer

/-- The word that an operation computes, and the overflow flag if it sets it. -/
structure Computed where
  value : Word
  overflow : Option Bool := none
  deriving DecidableEq, Repr

def Wrapped.computed (wrapped : Wrapped) : Computed := ⟨wrapped.value, some wrapped.overflow⟩

def FlexibleOp.eval (a b : Word) : FlexibleOp → Computed
  | add => (Word.add a b).computed
  | and => ⟨a &&& b, none⟩
  | or => ⟨a ||| b, none⟩
  | xor => ⟨a ^^^ b, none⟩
  | lshift => ⟨Word.shiftLeft a b, none⟩
  | zrshift => ⟨Word.shiftRight a b, none⟩
  | rshift => ⟨Word.shiftRightSigned a b, none⟩

/-- Comparisons and divisions take words as unsigned numbers. -/
def RegisterOp.eval (a b : Word) : RegisterOp → Except Fault Computed
  | sub => .ok (Word.sub a b).computed
  | mul => .ok (Word.mul a b).computed
  | div => if b = 0 then .error .divisionByZero else .ok ⟨a / b, none⟩
  | mod => if b = 0 then .error .divisionByZero else .ok ⟨a % b, none⟩
  | eq => .ok ⟨Word.ofBool (a == b), none⟩
  | neq => .ok ⟨Word.ofBool (a != b), none⟩
  | gt => .ok ⟨Word.ofBool (a > b), none⟩
  | lt => .ok ⟨Word.ofBool (a < b), none⟩
  | gte => .ok ⟨Word.ofBool (a ≥ b), none⟩
  | lte => .ok ⟨Word.ofBool (a ≤ b), none⟩

/-- What a successful operation changes besides memory: a register, the flag, and where execution
goes on if not behind the instruction. -/
structure Effect where
  result : Option (Register × Word) := none
  overflow : Option Bool := none
  target : Option Word := none
  deriving DecidableEq, Repr

def Computed.effect (computed : Computed) (target : Register) : Effect :=
  { result := some (target, computed.value), overflow := computed.overflow }

namespace Memory

def load (memory : Memory) (width : Width) (address : Word) : Except Fault Word × Memory :=
  match width with
  | .byte => memory.read address.toNat
  | .word => memory.readWord address.toNat

def store (memory : Memory) (width : Width) (address value : Word) : Except Fault Unit × Memory :=
  match width with
  | .byte => memory.write address.toNat value.lowestByte
  | .word => memory.writeWord address.toNat value

end Memory

namespace Machine

def source (machine : Machine) : Source → Word
  | .register r => machine.registers.get r
  | .immediate value => value

/-- Carries an operation out up to the changes of registers, flag and program counter. `next` is the
address behind the instruction. The stack holds return addresses; `sp` points behind the last. -/
def perform (machine : Machine) (next : Word) : Operation → Except Fault Effect × Memory
  | .copy target source =>
    (.ok { result := some (target, machine.source source) }, machine.memory)
  | .store width target source =>
    match machine.effectiveAddress target with
    | .error fault => (.error fault, machine.memory)
    | .ok address =>
      match machine.memory.store width address (machine.registers.get source) with
      | (.error fault, memory) => (.error fault, memory)
      | (.ok _, memory) => (.ok {}, memory)
  | .load width target source =>
    match machine.effectiveAddress source with
    | .error fault => (.error fault, machine.memory)
    | .ok address =>
      match machine.memory.load width address with
      | (.error fault, memory) => (.error fault, memory)
      | (.ok value, memory) => (.ok { result := some (target, value) }, memory)
  | .flexible op target left right =>
    (.ok ((op.eval (machine.registers.get left) (machine.source right)).effect target),
      machine.memory)
  | .registers op target left right =>
    ((op.eval (machine.registers.get left) (machine.registers.get right)).map (·.effect target),
      machine.memory)
  | .negate register =>
    (.ok { result := some (register, -machine.registers.get register) }, machine.memory)
  | .flow target =>
    (.ok { result := some (target, Word.ofBool machine.overflow) }, machine.memory)
  | .jump target =>
    ((machine.effectiveAddress target).map fun address => { target := some address },
      machine.memory)
  | .jumpIfZero register target =>
    if machine.registers.get register = 0 then
      ((machine.effectiveAddress target).map fun address => { target := some address },
        machine.memory)
    else
      (.ok {}, machine.memory)
  | .call target =>
    -- The target is told before anything is pushed.
    match machine.effectiveAddress target with
    | .error fault => (.error fault, machine.memory)
    | .ok address =>
      let sp := machine.registers.get .sp
      match machine.memory.writeWord sp.toNat next with
      | (.error fault, memory) => (.error fault, memory)
      | (.ok _, memory) => (.ok { result := some (.sp, sp + 4), target := some address }, memory)
  | .ret =>
    -- The pointer moves only once the address has been read.
    let sp := machine.registers.get .sp - 4
    match machine.memory.readWord sp.toNat with
    | (.error fault, memory) => (.error fault, memory)
    | (.ok address, memory) => (.ok { result := some (.sp, sp), target := some address }, memory)

def commit (machine : Machine) (effect : Effect) (next : Word) (memory : Memory) : Machine :=
  let registers :=
    match effect.result with
    | some (register, value) => machine.registers.set register value
    | none => machine.registers
  { machine with
    registers := { registers with pc := effect.target.getD next }
    overflow := effect.overflow.getD machine.overflow
    memory }

def step (machine : Machine) : Except Fault Status × Machine :=
  match machine.instruction? with
  | none => (.ok .halted, machine)
  | some instruction =>
    let next := machine.registers.pc + UInt32.ofNat instruction.operation.size
    match machine.perform next instruction.operation with
    | (.error fault, memory) => (.error fault, { machine with memory })
    | (.ok effect, memory) => (.ok .continuing, machine.commit effect next memory)

/-- Steps until `count` instructions were executed or a step does not execute one, and keeps a view of
the machine after each executed instruction. -/
def stepsFrom {α : Type} (view : Machine → α) (seen : Array α) :
    (count : Nat) → Machine → Array α × Except Fault Status × Machine
  | 0, machine => (seen, .ok .continuing, machine)
  | count + 1, machine =>
    match machine.step with
    | (.ok .continuing, machine) => stepsFrom view (seen.push (view machine)) count machine
    | (outcome, machine) => (seen, outcome, machine)

def steps {α : Type} (view : Machine → α) (count : Nat) (machine : Machine) :
    Array α × Except Fault Status × Machine :=
  stepsFrom view #[] count machine

end Machine

end ToyComputer
