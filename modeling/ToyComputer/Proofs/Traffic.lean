import ToyComputer.Proofs.Faults
import ToyComputer.Proofs.WordAccess

/-!
Traffic: what one step exchanges with the devices and with general memory, whether it fails or not.
The bytes that an operation moves have consecutive addresses and all go the same way, so no device
is met twice.
-/

namespace ToyComputer

theorem nodup_answering (address count : Nat) : (answering address count).Nodup := by
  induction count generalizing address with
  | zero => exact List.nodup_nil
  | succ count ih =>
      rw [answering]
      split
      · exact List.nodup_nil
      · refine List.nodup_cons.mpr ⟨fun again => ?_, ih (address + 1)⟩
        exact absurd (le_of_mem_answering _ _ _ again) (Nat.not_succ_le_self address)

theorem Location.bounds_of_cell (address : Nat) (found : at? address = some cell) :
    0x40000000 ≤ address ∧ address < 0x100000000 := by
  unfold at? at found
  split at found
  · next inside => exact inside
  · split at found <;> cases found

namespace Memory

/-- Only a write to general memory changes a cell, which is the one at its address. -/
theorem cells_access (memory : Memory) (access : Access) (place : Nat)
    (changed : (memory.access access).cells[place]? ≠ memory.cells[place]?) :
    access.address = place ∧ Location.at? place = some .cell := by
  cases access with
  | read address => exact absurd (by rw [Memory.access, cells_read]) changed
  | write address byte =>
      by_cases here : address = place
      · refine ⟨here, ?_⟩
        subst here
        simp only [Memory.access, write] at changed
        split at changed
        · exact absurd rfl changed
        · assumption
        all_goals exact absurd rfl changed
      · exact absurd (memory.cells_write_of_ne address place byte here) changed

theorem cells_accessAll (memory : Memory) (accesses : List Access) (place : Nat)
    (changed : (memory.accessAll accesses).cells[place]? ≠ memory.cells[place]?) :
    place ∈ accesses.map Access.address ∧ Location.at? place = some .cell := by
  induction accesses generalizing memory with
  | nil => exact absurd rfl changed
  | cons access accesses ih =>
      rw [List.map_cons, List.mem_cons]
      by_cases first : (memory.access access).cells[place]? = memory.cells[place]?
      · obtain ⟨later, cell⟩ := ih (memory.access access) (first ▸ changed)
        exact ⟨Or.inr later, cell⟩
      · obtain ⟨here, cell⟩ := cells_access memory access place first
        exact ⟨Or.inl here.symm, cell⟩

end Memory

def storingMnemonics : List String := ["sb", "sw", "call"]

def loadingMnemonics : List String := ["lb", "lw", "return"]

namespace Machine

def mnemonic? (machine : Machine) : Option String :=
  machine.instruction?.map fun instruction => instruction.operation.opcode.mnemonic

/-- What the memory after a step has got or lost: bytes written to the display, the keys that were
pending first, and cells at four consecutive addresses at the most. -/
structure Traffic (machine : Machine) (after : Memory) (written taken : List UInt8) (start : Nat) :
    Prop where
  display : after.display = machine.memory.display.pushAll written
  keyboard : taken ++ after.keyboard.keys = machine.memory.keyboard.keys
  cells : ∀ place, after.cells[place]? ≠ machine.memory.cells[place]? →
    start ≤ place ∧ place < start + 4 ∧ 0x40000000 ≤ place ∧ place < 0x100000000
  writes : written ≠ [] → ∃ name ∈ storingMnemonics, machine.mnemonic? = some name
  reads : taken ≠ [] → ∃ name ∈ loadingMnemonics, machine.mnemonic? = some name

theorem storesOf_cases (machine : Machine) (next : Word) (operation : Operation) :
    operation.opcode.mnemonic ∈ storingMnemonics ∨ machine.storesOf next operation = [] := by
  cases operation with
  | store width =>
      cases width with
      | byte => exact Or.inl (show "sb" ∈ storingMnemonics by decide)
      | word => exact Or.inl (show "sw" ∈ storingMnemonics by decide)
  | call => exact Or.inl (show "call" ∈ storingMnemonics by decide)
  | _ => exact Or.inr rfl

theorem loadsOf_cases (machine : Machine) (operation : Operation) :
    operation.opcode.mnemonic ∈ loadingMnemonics ∨ machine.loadsOf operation = [] := by
  cases operation with
  | load width =>
      cases width with
      | byte => exact Or.inl (show "lb" ∈ loadingMnemonics by decide)
      | word => exact Or.inl (show "lw" ∈ loadingMnemonics by decide)
  | ret => exact Or.inl (show "return" ∈ loadingMnemonics by decide)
  | _ => exact Or.inr rfl

theorem displayed_cases (machine : Machine) :
    machine.displayed = [] ∨ ∃ name ∈ storingMnemonics, machine.mnemonic? = some name := by
  unfold displayed stores mnemonic?
  cases machine.instruction? with
  | none => exact Or.inl rfl
  | some instruction =>
      rcases machine.storesOf_cases (machine.behind instruction) instruction.operation with
        writer | none
      · exact Or.inr ⟨_, writer, rfl⟩
      · exact Or.inl (by simp only [none]; rfl)

theorem keysTaken_cases (machine : Machine) :
    machine.keysTaken = [] ∨ ∃ name ∈ loadingMnemonics, machine.mnemonic? = some name := by
  unfold keysTaken loads mnemonic?
  cases machine.instruction? with
  | none => exact Or.inl rfl
  | some instruction =>
      rcases machine.loadsOf_cases instruction.operation with reader | none
      · exact Or.inr ⟨_, reader, rfl⟩
      · exact Or.inl (by simp only [none]; rfl)

theorem nodup_loads (machine : Machine) : machine.loads.Nodup := by
  unfold loads loadsOf
  split
  · exact List.nodup_nil
  · split
    · split
      · exact List.nodup_nil
      · exact nodup_answering _ _
    · exact nodup_answering _ _
    · exact List.nodup_nil

theorem length_keysTaken (machine : Machine) : machine.keysTaken.length ≤ 1 :=
  Nat.le_trans (List.length_take_le _ _) (List.nodup_iff_count.mp machine.nodup_loads keyboardData)

theorem displayed_or_taken (machine : Machine) :
    machine.displayed = [] ∨ machine.keysTaken = [] := by
  rcases machine.displayed_cases with none | ⟨name, writes, named⟩
  · exact Or.inl none
  · rcases machine.keysTaken_cases with none | ⟨other, reads, again⟩
    · exact Or.inr none
    · have apart : ∀ name ∈ storingMnemonics, name ∉ loadingMnemonics := by decide
      obtain rfl := Option.some.inj (named.symm.trans again)
      exact absurd reads (apart name writes)

theorem cells_step (machine : Machine) : ∃ start, ∀ place,
    machine.step.2.memory.cells[place]? ≠ machine.memory.cells[place]? →
      start ≤ place ∧ place < start + 4 ∧ 0x40000000 ≤ place ∧ place < 0x100000000 := by
  rw [memory_step]
  cases machine.instruction? with
  | none => exact ⟨0, fun place changed => absurd rfl changed⟩
  | some instruction =>
      obtain ⟨start, count, few, consecutive⟩ :=
        machine.accessesOf_consecutive (machine.behind instruction) instruction.operation
      refine ⟨start, fun place changed => ?_⟩
      simp only [memoryAfter_eq] at changed
      obtain ⟨member, cell⟩ := Memory.cells_accessAll _ _ place changed
      -- Some of the accesses may not have been carried out.
      have listed := (List.takeWhile_sublist _).map Access.address |>.subset member
      rw [consecutive, List.mem_range'_1] at listed
      obtain ⟨high, inside⟩ := Location.bounds_of_cell place cell
      exact ⟨listed.1, by omega, high, inside⟩

/-- A step, whether it fails or not, writes one byte to the display at the most and takes one key
from the keyboard at the most, and never does both. The cells that it changes have four consecutive
addresses of general memory. Only stores and calls write to the display, and only loads and returns
take a key. -/
theorem step_traffic_bounded (machine : Machine) :
    ∃ written taken start, machine.Traffic machine.step.2.memory written taken start ∧
      written.length ≤ 1 ∧ taken.length ≤ 1 ∧ (written = [] ∨ taken = []) := by
  obtain ⟨start, cells⟩ := machine.cells_step
  refine ⟨machine.displayed, machine.keysTaken, start, ⟨?_, ?_, cells, ?_, ?_⟩,
    machine.length_displayed, machine.length_keysTaken, machine.displayed_or_taken⟩
  · exact machine.display_step
  · exact machine.keys_step
  · exact machine.displayed_cases.resolve_left
  · exact machine.keysTaken_cases.resolve_left

def loadsAtKeyboard : Machine :=
  let load : Operation := .load .word .r0 { offset := some (.value 0x20000001) }
  { start (Program.ofList [(0, ⟨load, 0⟩)] {}) with
    memory := ((Memory.empty.pushKey 7).2.pushKey 8).2 }

theorem loadsAtKeyboard_takes_one :
    loadsAtKeyboard.step.1 = .error (.illegalAddress 0x20000004) ∧
      ∃ start, loadsAtKeyboard.Traffic loadsAtKeyboard.step.2.memory [] [7] start := by
  obtain ⟨written, taken, start, traffic, _, _, either⟩ := step_traffic_bounded loadsAtKeyboard
  have before : loadsAtKeyboard.memory.keyboard.keys = [7] ++ [8] := by decide +kernel
  have after : loadsAtKeyboard.step.2.memory.keyboard.keys = [8] := by decide +kernel
  have moved := traffic.keyboard
  rw [before, after] at moved
  obtain rfl := List.append_cancel_right moved
  obtain rfl := either.resolve_right (by decide)
  exact ⟨rfl, start, traffic⟩

end Machine

end ToyComputer
