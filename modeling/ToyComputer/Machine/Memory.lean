import Std.Data.TreeMap
import ToyComputer.Device.Display
import ToyComputer.Device.Keyboard
import ToyComputer.Machine.Fault

/-!
Memory: general memory in the upper three quarters of the address space, and below it the registers
of the devices. An access gives its answer together with the memory it leaves, also when it fails:
a word's bytes are moved one after the other, and those before the one that fails stay moved.
-/

namespace ToyComputer

inductive Location where
  | cell
  | keyboardStatus
  | keyboardData
  | displayStatus
  | displayData
  deriving DecidableEq, Repr

namespace Location

def memoryStart : Nat := 0x40000000

def memoryEnd : Nat := 0x100000000

def at? (address : Nat) : Option Location :=
  if memoryStart ≤ address ∧ address < memoryEnd then some cell
  else
    match address with
    | 0x20000000 => some keyboardStatus
    | 0x20000001 => some keyboardData
    | 0x20000002 => some displayStatus
    | 0x20000003 => some displayData
    | _ => none

end Location

/-- A cell that was never written holds zero. -/
structure Memory where
  cells : Std.TreeMap Nat UInt8 := ∅
  keyboard : Keyboard := {}
  display : Display := {}

namespace Memory

def empty : Memory := {}

instance : Inhabited Memory := ⟨empty⟩

def cell (memory : Memory) (address : Nat) : UInt8 := memory.cells.getD address 0

/-- The byte in general memory, seen from outside: no device notices. -/
def peek? (memory : Memory) (address : Nat) : Option UInt8 :=
  match Location.at? address with
  | some .cell => some (memory.cell address)
  | _ => none

def pushKey (memory : Memory) (key : UInt8) : Bool × Memory :=
  let (accepted, keyboard) := memory.keyboard.push key
  (accepted, { memory with keyboard })

/-- Reads one address. Reading a key takes it; a device's status is a whole word. -/
def read (memory : Memory) (address : Nat) : Except Fault Word × Memory :=
  match Location.at? address with
  | none => (.error (.illegalAddress address), memory)
  | some .cell => (.ok (memory.cell address).toUInt32, memory)
  | some .keyboardStatus => (.ok (if memory.keyboard.isEmpty then 0 else 0xFFFFFFFF), memory)
  | some .keyboardData =>
    let (key, keyboard) := memory.keyboard.pop
    (.ok (key.getD 0).toUInt32, { memory with keyboard })
  | some .displayStatus => (.ok 0xFFFFFFFF, memory)
  | some .displayData => (.ok 0, memory)

def write (memory : Memory) (address : Nat) (byte : UInt8) : Except Fault Unit × Memory :=
  match Location.at? address with
  | none => (.error (.illegalAddress address), memory)
  | some .cell => (.ok (), { memory with cells := memory.cells.insert address byte })
  | some .displayData => (.ok (), { memory with display := memory.display.push byte })
  -- Nothing is refused here, but nothing comes of it either.
  | some .keyboardStatus | some .keyboardData | some .displayStatus => (.ok (), memory)

/-- Reads consecutive addresses and keeps the lowest byte of each. -/
def readBytes (memory : Memory) (address : Nat) : Nat → Except Fault (List UInt8) × Memory
  | 0 => (.ok [], memory)
  | count + 1 =>
    match memory.read address with
    | (.error fault, memory) => (.error fault, memory)
    | (.ok word, memory) =>
      match memory.readBytes (address + 1) count with
      | (.error fault, memory) => (.error fault, memory)
      | (.ok bytes, memory) => (.ok (word.lowestByte :: bytes), memory)

def writeBytes (memory : Memory) (address : Nat) : List UInt8 → Except Fault Unit × Memory
  | [] => (.ok (), memory)
  | byte :: bytes =>
    match memory.write address byte with
    | (.error fault, memory) => (.error fault, memory)
    | (.ok _, memory) => memory.writeBytes (address + 1) bytes

def readWord (memory : Memory) (address : Nat) : Except Fault Word × Memory :=
  match memory.readBytes address 4 with
  | (.error fault, memory) => (.error fault, memory)
  | (.ok bytes, memory) => (.ok (Word.ofBytes bytes), memory)

def writeWord (memory : Memory) (address : Nat) (word : Word) : Except Fault Unit × Memory :=
  memory.writeBytes address word.bytes

/-- Writes a value from outside, which has yet to be checked to be a byte. -/
def poke (memory : Memory) (address : Nat) (value : Word) : Except Fault Unit × Memory :=
  if value < 256 then memory.write address value.lowestByte
  else (.error (.invalidByte value), memory)

end Memory

end ToyComputer
