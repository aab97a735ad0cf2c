import ToyComputer.Proofs.Steps

/-!
Stores: the bytes that a step puts into memory, told by the instruction and the registers alone.
What goes to the display's address is what the display is given.
-/

namespace ToyComputer

/-- Bytes with the consecutive addresses that they go to, up to the first where nothing answers. -/
def placed (address : Nat) : List UInt8 → List (Nat × UInt8)
  | [] => []
  | byte :: bytes =>
    match Location.at? address with
    | none => []
    | some _ => (address, byte) :: placed (address + 1) bytes

def displayData : Nat := 0x20000003

def shown (stores : List (Nat × UInt8)) : List UInt8 :=
  stores.filterMap fun (address, byte) => if address = displayData then some byte else none

theorem shown_here (byte : UInt8) (stores : List (Nat × UInt8)) :
    shown ((displayData, byte) :: stores) = byte :: shown stores := by
  simp [shown]

theorem shown_elsewhere (address : Nat) (byte : UInt8) (stores : List (Nat × UInt8))
    (other : address ≠ displayData) : shown ((address, byte) :: stores) = shown stores := by
  simp [shown, other]

theorem at?_eq_displayData (address : Nat) :
    Location.at? address = some .displayData ↔ address = displayData := by
  unfold Location.at? displayData Location.memoryStart Location.memoryEnd
  split
  · constructor
    · intro found; cases found
    · intro same; omega
  · split <;> simp_all

theorem shown_placed_above (address : Nat) (bytes : List UInt8) (above : displayData < address) :
    shown (placed address bytes) = [] := by
  induction bytes generalizing address with
  | nil => rfl
  | cons byte bytes ih =>
      rw [placed]
      split
      · rfl
      · rw [shown_elsewhere address byte _ (by omega)]
        exact ih (address + 1) (by omega)

theorem length_shown_placed (address : Nat) (bytes : List UInt8) :
    (shown (placed address bytes)).length ≤ 1 := by
  induction bytes generalizing address with
  | nil => exact Nat.zero_le 1
  | cons byte bytes ih =>
      rw [placed]
      split
      · exact Nat.zero_le 1
      · by_cases here : address = displayData
        · rw [here, shown_here, shown_placed_above _ bytes (Nat.lt_succ_self _)]
          exact Nat.le_refl 1
        · rw [shown_elsewhere address byte _ here]
          exact ih (address + 1)

namespace Memory

theorem write_cases (memory : Memory) (address : Nat) (byte : UInt8) :
    (Location.at? address = none ∧
      memory.write address byte = (.error (.illegalAddress address), memory)) ∨
    (∃ location after, Location.at? address = some location ∧
      memory.write address byte = (.ok (), after) ∧
      after.display = memory.display.pushAll (shown [(address, byte)])) := by
  cases found : Location.at? address with
  | none => exact Or.inl ⟨rfl, by simp only [write, found]⟩
  | some location =>
      right
      by_cases here : address = displayData
      · rw [(at?_eq_displayData address).mpr here] at found
        cases found
        refine ⟨_, { memory with display := memory.display.push byte }, rfl, ?_, ?_⟩
        · simp only [write, (at?_eq_displayData address).mpr here]
        · rw [here, shown_here]
          rfl
      · have silent : shown [(address, byte)] = [] := shown_elsewhere address byte [] here
        rw [silent]
        cases location with
        | displayData => exact absurd ((at?_eq_displayData address).mp found) here
        | cell =>
            exact ⟨_, { memory with cells := memory.cells.insert address byte }, rfl,
              by simp only [write, found], rfl⟩
        | keyboardStatus => exact ⟨_, _, rfl, by simp only [write, found], rfl⟩
        | keyboardData => exact ⟨_, _, rfl, by simp only [write, found], rfl⟩
        | displayStatus => exact ⟨_, _, rfl, by simp only [write, found], rfl⟩

theorem display_writeBytes (memory : Memory) (address : Nat) (bytes : List UInt8) :
    (memory.writeBytes address bytes).2.display =
      memory.display.pushAll (shown (placed address bytes)) := by
  induction bytes generalizing memory address with
  | nil => rfl
  | cons byte bytes ih =>
      rcases write_cases memory address byte with ⟨none, refused⟩ |
        ⟨location, after, found, done, display⟩
      · simp only [writeBytes, refused, placed, none]
        rfl
      · simp only [writeBytes, done, placed, found]
        rw [ih, display]
        by_cases here : address = displayData
        · rw [here, shown_here, shown_here]
          rfl
        · rw [shown_elsewhere _ _ _ here, shown_elsewhere _ _ _ here]
          rfl

section

variable {α : Type} (view : Memory → α)
  (kept : ∀ memory address, view (memory.read address).2 = view memory)

include kept

theorem view_readBytes (memory : Memory) (address count : Nat) :
    view (memory.readBytes address count).2 = view memory := by
  induction count generalizing memory address with
  | zero => rfl
  | succ count ih =>
      have first := kept memory address
      rw [readBytes]
      split
      · next refused => rw [refused] at first; exact first
      · next after done =>
          rw [done] at first
          have rest := ih after (address + 1)
          split
          · next refused => rw [refused] at rest; exact rest.trans first
          · next more => rw [more] at rest; exact rest.trans first

theorem view_readWord (memory : Memory) (address : Nat) :
    view (memory.readWord address).2 = view memory := by
  have bytes := view_readBytes view kept memory address 4
  unfold readWord
  split
  · next refused => rw [refused] at bytes; exact bytes
  · next done => rw [done] at bytes; exact bytes

theorem view_load (memory : Memory) (width : Width) (address : Word) :
    view (memory.load width address).2 = view memory := by
  cases width with
  | byte => exact kept memory address.toNat
  | word => exact view_readWord view kept memory address.toNat

end

theorem display_read (memory : Memory) (address : Nat) :
    (memory.read address).2.display = memory.display := by
  unfold read
  split <;> rfl

theorem store_eq (memory : Memory) (width : Width) (address value : Word) :
    memory.store width address value = memory.writeBytes address.toNat (match width with
      | .byte => [value.lowestByte]
      | .word => value.bytes) := by
  cases width with
  | byte =>
      simp only [store, writeBytes]
      rcases memory.write address.toNat value.lowestByte with ⟨fault | done, after⟩ <;> rfl
  | word => rfl

end Memory

namespace Machine

def storesOf (machine : Machine) (next : Word) : Operation → List (Nat × UInt8)
  | .store width target source =>
    match machine.effectiveAddress target with
    | .error _ => []
    | .ok address =>
      let value := machine.registers.get source
      placed address.toNat (match width with | .byte => [value.lowestByte] | .word => value.bytes)
  | .call target =>
    match machine.effectiveAddress target with
    | .error _ => []
    | .ok _ => placed (machine.registers.get .sp).toNat next.bytes
  | _ => []

/-- The bytes that the next step puts into memory, whether it fails or not. -/
def stores (machine : Machine) : List (Nat × UInt8) :=
  match machine.instruction? with
  | none => []
  | some instruction => machine.storesOf (machine.behind instruction) instruction.operation

/-- The bytes that the next step writes to the display. -/
def displayed (machine : Machine) : List UInt8 := shown machine.stores

theorem length_displayed (machine : Machine) : machine.displayed.length ≤ 1 := by
  unfold displayed stores
  split
  · exact Nat.zero_le 1
  · unfold storesOf
    split
    · split
      · exact Nat.zero_le 1
      · exact length_shown_placed _ _
    · split
      · exact Nat.zero_le 1
      · exact length_shown_placed _ _
    · exact Nat.zero_le 1

def memoryAfter (machine : Machine) (next : Word) : Operation → Memory
  | .store width target source =>
    match machine.effectiveAddress target with
    | .error _ => machine.memory
    | .ok address => (machine.memory.store width address (machine.registers.get source)).2
  | .load width _ source =>
    match machine.effectiveAddress source with
    | .error _ => machine.memory
    | .ok address => (machine.memory.load width address).2
  | .call target =>
    match machine.effectiveAddress target with
    | .error _ => machine.memory
    | .ok _ => (machine.memory.writeWord (machine.registers.get .sp).toNat next).2
  | .ret => (machine.memory.readWord (machine.registers.get .sp - 4).toNat).2
  | _ => machine.memory

theorem memory_perform (machine : Machine) (next : Word) (operation : Operation) :
    (machine.perform next operation).2 = machine.memoryAfter next operation := by
  cases operation with
  | copy target source | flexible op target left right | registers op target left right
  | negate register | flow target | jump target => rfl
  | jumpIfZero register target =>
      simp only [perform]
      split <;> rfl
  | store width target source | load width target source | call target =>
      simp only [perform, memoryAfter]
      rcases machine.effectiveAddress _ with fault | place
      · rfl
      · simp only
        split <;> simp only [*]
  | ret =>
      simp only [perform, memoryAfter]
      split <;> simp only [*]

/-- A step leaves the memory that its operation leaves, also when it fails. -/
theorem memory_step (machine : Machine) :
    machine.step.2.memory =
      match machine.instruction? with
      | none => machine.memory
      | some instruction =>
        machine.memoryAfter (machine.behind instruction) instruction.operation := by
  rcases step_cases machine with ⟨none, same⟩ |
    ⟨instruction, fault, memory, found, performed, same⟩ |
    ⟨instruction, effect, memory, found, performed, same⟩
  · rw [same, none]
  all_goals
    have leaves := machine.memory_perform (machine.behind instruction) instruction.operation
    rw [performed] at leaves
    rw [same, found]
    exact leaves

theorem display_memoryAfter (machine : Machine) (next : Word) (operation : Operation) :
    (machine.memoryAfter next operation).display =
      machine.memory.display.pushAll (shown (machine.storesOf next operation)) := by
  cases operation with
  | copy target source | flexible op target left right | registers op target left right
  | negate register | flow target | jump target | jumpIfZero register target => rfl
  | store width target source =>
      simp only [memoryAfter, storesOf]
      split
      · rfl
      · rw [Memory.store_eq]
        exact Memory.display_writeBytes _ _ _
  | load width target source =>
      simp only [memoryAfter, storesOf]
      split
      · rfl
      · exact Memory.view_load Memory.display Memory.display_read _ _ _
  | call target =>
      simp only [memoryAfter, storesOf]
      split
      · rfl
      · exact Memory.display_writeBytes _ _ _
  | ret => exact Memory.view_readWord Memory.display Memory.display_read _ _

theorem display_step (machine : Machine) :
    machine.step.2.memory.display = machine.memory.display.pushAll machine.displayed := by
  rw [memory_step, displayed, stores]
  cases machine.instruction? with
  | none => simp [shown, Display.pushAll]
  | some instruction => exact machine.display_memoryAfter _ _

end Machine

end ToyComputer
