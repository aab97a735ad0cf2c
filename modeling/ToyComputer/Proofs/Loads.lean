import ToyComputer.Proofs.Queue
import ToyComputer.Proofs.Stores

/-!
Loads: the addresses that a step reads, told by the instruction and the registers alone. Each time
the keyboard's data address is read, the oldest key goes.
-/

namespace ToyComputer

/-- Consecutive addresses, up to the first where nothing answers. -/
def answering (address : Nat) : (count : Nat) → List Nat
  | 0 => []
  | count + 1 =>
    match Location.at? address with
    | none => []
    | some _ => address :: answering (address + 1) count

theorem le_of_mem_answering (address count place : Nat) (member : place ∈ answering address count) :
    address ≤ place := by
  induction count generalizing address with
  | zero => cases member
  | succ count ih =>
      rw [answering] at member
      split at member
      · cases member
      · rcases List.mem_cons.mp member with rfl | later
        · exact Nat.le_refl _
        · exact Nat.le_of_succ_le (ih (address + 1) later)

def keyboardData : Nat := 0x20000001

theorem at?_eq_keyboardData (address : Nat) :
    Location.at? address = some .keyboardData ↔ address = keyboardData := by
  unfold Location.at? keyboardData Location.memoryStart Location.memoryEnd
  split
  · constructor
    · intro found; cases found
    · intro same; omega
  · split <;> simp_all

def Width.bytes : Width → Nat
  | .byte => 1
  | .word => 4

namespace Memory

theorem read_cases (memory : Memory) (address : Nat) :
    (Location.at? address = none ∧
      memory.read address = (.error (.illegalAddress address), memory)) ∨
    (∃ location word after, Location.at? address = some location ∧
      memory.read address = (.ok word, after) ∧
      after.keyboard = (memory.keyboard.popMany ([address].count keyboardData)).2) := by
  cases found : Location.at? address with
  | none => exact Or.inl ⟨rfl, by simp only [read, found]⟩
  | some location =>
      right
      by_cases here : address = keyboardData
      · rw [(at?_eq_keyboardData address).mpr here] at found
        cases found
        refine ⟨_, (memory.keyboard.pop.1.getD 0).toUInt32,
          { memory with keyboard := memory.keyboard.pop.2 }, rfl, ?_, ?_⟩
        · simp only [read, (at?_eq_keyboardData address).mpr here]
        · rw [here]
          rfl
      · have silent : [address].count keyboardData = 0 := by simp [here]
        rw [silent]
        cases location with
        | keyboardData => exact absurd ((at?_eq_keyboardData address).mp found) here
        | cell => exact ⟨_, _, _, rfl, by simp only [read, found]; rfl, rfl⟩
        | keyboardStatus => exact ⟨_, _, _, rfl, by simp only [read, found]; rfl, rfl⟩
        | displayStatus => exact ⟨_, _, _, rfl, by simp only [read, found]; rfl, rfl⟩
        | displayData => exact ⟨_, _, _, rfl, by simp only [read, found]; rfl, rfl⟩

theorem keyboard_read (memory : Memory) (address : Nat) :
    (memory.read address).2.keyboard =
      (memory.keyboard.popMany ((answering address 1).count keyboardData)).2 := by
  rcases read_cases memory address with ⟨none, refused⟩ |
    ⟨location, word, after, found, done, keyboard⟩
  · simp [refused, answering, none, Keyboard.popMany]
  · simp only [done, answering, found]
    exact keyboard

theorem keyboard_readBytes (memory : Memory) (address count : Nat) :
    (memory.readBytes address count).2.keyboard =
      (memory.keyboard.popMany ((answering address count).count keyboardData)).2 := by
  induction count generalizing memory address with
  | zero => rfl
  | succ count ih =>
      rcases read_cases memory address with ⟨none, refused⟩ |
        ⟨location, word, after, found, done, keyboard⟩
      · simp [readBytes, refused, answering, none, Keyboard.popMany]
      · have rest := ih after (address + 1)
        rw [keyboard, ← Keyboard.popMany_add, ← List.count_append, List.singleton_append] at rest
        simp only [readBytes, done, answering, found]
        split
        · next failed => rw [failed] at rest; exact rest
        · next read => rw [read] at rest; exact rest

theorem keyboard_readWord (memory : Memory) (address : Nat) :
    (memory.readWord address).2.keyboard =
      (memory.keyboard.popMany ((answering address 4).count keyboardData)).2 := by
  have bytes := keyboard_readBytes memory address 4
  unfold readWord
  split
  · next refused => rw [refused] at bytes; exact bytes
  · next done => rw [done] at bytes; exact bytes

theorem keyboard_load (memory : Memory) (width : Width) (address : Word) :
    (memory.load width address).2.keyboard = (memory.keyboard.popMany
      ((answering address.toNat width.bytes).count keyboardData)).2 := by
  cases width with
  | byte => exact keyboard_read memory address.toNat
  | word => exact keyboard_readWord memory address.toNat

theorem keyboard_write (memory : Memory) (address : Nat) (byte : UInt8) :
    (memory.write address byte).2.keyboard = memory.keyboard := by
  unfold write
  split <;> rfl

theorem keyboard_writeBytes (memory : Memory) (address : Nat) (bytes : List UInt8) :
    (memory.writeBytes address bytes).2.keyboard = memory.keyboard := by
  induction bytes generalizing memory address with
  | nil => rfl
  | cons byte bytes ih =>
      have first := keyboard_write memory address byte
      rw [writeBytes]
      split
      · next refused => rw [refused] at first; exact first
      · next done => rw [done] at first; exact (ih _ (address + 1)).trans first

end Memory

namespace Machine

def loadsOf (machine : Machine) : Operation → List Nat
  | .load width _ source =>
    match machine.effectiveAddress source with
    | .error _ => []
    | .ok address => answering address.toNat width.bytes
  | .ret => answering (machine.registers.get .sp - 4).toNat 4
  | _ => []

/-- The addresses that the next step reads, whether it fails or not. -/
def loads (machine : Machine) : List Nat :=
  match machine.instruction? with
  | none => []
  | some instruction => machine.loadsOf instruction.operation

/-- The keys that the next step takes from the keyboard: one for each time that it reads the
keyboard's data address, as long as there are any. -/
def keysTaken (machine : Machine) : List UInt8 :=
  machine.memory.keyboard.keys.take (machine.loads.count keyboardData)

theorem keyboard_memoryAfter (machine : Machine) (next : Word) (operation : Operation) :
    (machine.memoryAfter next operation).keyboard =
      (machine.memory.keyboard.popMany ((machine.loadsOf operation).count keyboardData)).2 := by
  cases operation with
  | copy target source | flexible op target left right | registers op target left right
  | negate register | flow target | jump target | jumpIfZero register target => rfl
  | store width target source =>
      simp only [memoryAfter, loadsOf]
      split
      · rfl
      · rw [Memory.store_eq, Memory.keyboard_writeBytes]
        rfl
  | load width target source =>
      simp only [memoryAfter, loadsOf]
      rcases machine.effectiveAddress source with fault | address
      · rfl
      · exact Memory.keyboard_load machine.memory width address
  | call target =>
      simp only [memoryAfter, loadsOf]
      split
      · rfl
      · rw [Memory.writeWord, Memory.keyboard_writeBytes]
        rfl
  | ret => exact Memory.keyboard_readWord _ _

theorem keyboard_step (machine : Machine) :
    machine.step.2.memory.keyboard =
      (machine.memory.keyboard.popMany (machine.loads.count keyboardData)).2 := by
  rw [memory_step, loads]
  cases machine.instruction? with
  | none => simp [Keyboard.popMany]
  | some instruction => exact machine.keyboard_memoryAfter _ _

/-- What a step does not take stays on the keyboard. -/
theorem keys_step (machine : Machine) :
    machine.keysTaken ++ machine.step.2.memory.keyboard.keys = machine.memory.keyboard.keys := by
  rw [keyboard_step, Keyboard.keys_popMany, keysTaken, List.take_append_drop]

end Machine

end ToyComputer
