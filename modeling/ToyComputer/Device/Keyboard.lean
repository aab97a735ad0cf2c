/-!
The keyboard: keys wait in a circular buffer of fixed size until the program reads them.
-/

namespace ToyComputer

def keyboardCapacity : Nat := 256

def firstSlot : Fin keyboardCapacity := ⟨0, by decide⟩

/-- The keys that were typed and not read yet: `size` of them, in consecutive slots from `head` on,
where the first slot follows the last. A slot that no pending key is in keeps what it held. -/
structure Keyboard where
  slots : Vector UInt8 keyboardCapacity := Vector.replicate keyboardCapacity 0
  head : Fin keyboardCapacity := firstSlot
  size : Nat := 0
  bounded : size ≤ keyboardCapacity := by exact Nat.zero_le keyboardCapacity
  deriving DecidableEq, Repr

namespace Keyboard

def slot (keyboard : Keyboard) (offset : Nat) : Fin keyboardCapacity :=
  ⟨(keyboard.head + offset) % keyboardCapacity, Nat.mod_lt _ (by decide)⟩

def keys (keyboard : Keyboard) : List UInt8 :=
  (List.range keyboard.size).map fun offset => keyboard.slots[keyboard.slot offset]

def isEmpty (keyboard : Keyboard) : Bool := keyboard.size == 0

/-- Queues a key. A full keyboard refuses it and stays as it is. -/
def push (keyboard : Keyboard) (key : UInt8) : Bool × Keyboard :=
  if room : keyboard.size < keyboardCapacity then
    (true, { keyboard with
      slots := keyboard.slots.set (keyboard.slot keyboard.size) key
      size := keyboard.size + 1
      bounded := room })
  else
    (false, keyboard)

def pop (keyboard : Keyboard) : Option UInt8 × Keyboard :=
  if keyboard.size = 0 then
    (none, keyboard)
  else
    (some keyboard.slots[keyboard.head], { keyboard with
      head := keyboard.slot 1
      size := keyboard.size - 1
      bounded := Nat.le_trans (Nat.sub_le _ _) keyboard.bounded })

def pushAll (keyboard : Keyboard) : List UInt8 → List Bool × Keyboard
  | [] => ([], keyboard)
  | key :: rest =>
    let (accepted, keyboard) := keyboard.push key
    let (more, keyboard) := keyboard.pushAll rest
    (accepted :: more, keyboard)

def popMany (keyboard : Keyboard) : Nat → List (Option UInt8) × Keyboard
  | 0 => ([], keyboard)
  | count + 1 =>
    let (key, keyboard) := keyboard.pop
    let (more, keyboard) := keyboard.popMany count
    (key :: more, keyboard)

end Keyboard

end ToyComputer
