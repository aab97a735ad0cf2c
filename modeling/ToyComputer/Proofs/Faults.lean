import ToyComputer.Proofs.Accesses

/-!
Faults: why an operation fails is told by the instruction and the registers alone. A step that fails
leaves all but memory as it was, and of memory only the bytes count that were moved before.
-/

namespace ToyComputer

def Fault.of? {α : Type} : Except Fault α → Option Fault
  | .error fault => some fault
  | .ok _ => none

namespace Machine

/-- The address that an operation has to tell: a jump on zero that does not happen tells none. -/
def evaluated? (machine : Machine) : Operation → Option Addressing
  | .jumpIfZero register target => if machine.registers.get register = 0 then some target else none
  | operation => operation.address?

def dividesByZero (machine : Machine) : Operation → Bool
  | .registers .div _ _ right | .registers .mod _ _ right => machine.registers.get right == 0
  | _ => false

/-- The fault that an operation ends in, told by the registers alone. -/
def fault? (machine : Machine) (next : Word) (operation : Operation) : Option Fault :=
  match (machine.evaluated? operation).bind Addressing.label? with
  | some label => some (.unresolvedLabel label)
  | none =>
    if machine.dividesByZero operation then some .divisionByZero
    else
      (Access.refused? (machine.accessesOf next operation)).map fun refused =>
        .illegalAddress refused.address

theorem effectiveAddress_cases (machine : Machine) (address : Addressing) :
    (∃ label, address.label? = some label ∧
      machine.effectiveAddress address = .error (.unresolvedLabel label)) ∨
    (address.label? = none ∧ ∃ place, machine.effectiveAddress address = .ok place) := by
  unfold Addressing.label? effectiveAddress
  rcases address with ⟨base, index, _ | (value | label)⟩
  · exact Or.inr ⟨rfl, _, rfl⟩
  · exact Or.inr ⟨rfl, _, rfl⟩
  · exact Or.inl ⟨label, rfl, rfl⟩

theorem fault_registers (machine : Machine) (next : Word) (op : RegisterOp)
    (target left right : Register) :
    Fault.of? (machine.perform next (.registers op target left right)).1 =
      machine.fault? next (.registers op target left right) := by
  have byZero : ∀ quotient : Word,
      Fault.of? (Except.map (fun computed : Computed => computed.effect target)
        (if machine.registers.get right = 0 then .error .divisionByZero else .ok ⟨quotient, none⟩)) =
      if machine.registers.get right == 0 then some .divisionByZero else none := by
    intro quotient
    by_cases zero : machine.registers.get right = 0
    · simp [zero, Except.map, Fault.of?]
    · simp [zero, Except.map, Fault.of?]
  cases op with
  | div => exact byZero (machine.registers.get left / machine.registers.get right)
  | mod => exact byZero (machine.registers.get left % machine.registers.get right)
  | _ => rfl

theorem fault_jump (machine : Machine) (address : Addressing) :
    Fault.of? ((machine.effectiveAddress address).map fun place =>
        ({ target := some place } : Effect)) =
      (address.label?).map Fault.unresolvedLabel := by
  rcases machine.effectiveAddress_cases address with ⟨label, waits, failed⟩ | ⟨ready, place, told⟩
  · rw [waits, failed]; rfl
  · rw [ready, told]; rfl

theorem fault_perform (machine : Machine) (next : Word) (operation : Operation) :
    Fault.of? (machine.perform next operation).1 = machine.fault? next operation := by
  cases operation with
  | copy target source | flexible op target left right | negate register | flow target => rfl
  | registers op target left right => exact machine.fault_registers next op target left right
  | jump target =>
      have jumped := machine.fault_jump target
      simp only [perform, jumped, fault?, evaluated?, Operation.address?, Option.bind_some]
      cases target.label? <;> rfl
  | jumpIfZero register target =>
      have jumped := machine.fault_jump target
      simp only [perform, fault?, evaluated?]
      by_cases zero : machine.registers.get register = 0
      · simp only [if_pos zero, jumped, Option.bind_some]
        cases target.label? <;> rfl
      · simp only [if_neg zero]
        rfl
  | store width target source =>
      simp only [perform, fault?, evaluated?, Operation.address?, Option.bind_some, accessesOf]
      rcases machine.effectiveAddress_cases target with ⟨label, waits, failed⟩ | ⟨ready, place, told⟩
      · simp only [waits, failed]
        rfl
      · simp only [ready, told, Memory.store_eq, Memory.writeBytes_eq, Access.result, dividesByZero]
        cases Access.refused? (Access.writes place.toNat _) <;> rfl
  | load width target source =>
      simp only [perform, fault?, evaluated?, Operation.address?, Option.bind_some, accessesOf]
      rcases machine.effectiveAddress_cases source with ⟨label, waits, failed⟩ | ⟨ready, place, told⟩
      · simp only [waits, failed]
        rfl
      · obtain ⟨word, loaded⟩ := machine.memory.load_eq width place
        simp only [ready, told, loaded, Access.result, dividesByZero]
        cases Access.refused? (Access.reads place.toNat width.bytes) <;> rfl
  | call target =>
      simp only [perform, fault?, evaluated?, Operation.address?, Option.bind_some, accessesOf]
      rcases machine.effectiveAddress_cases target with ⟨label, waits, failed⟩ | ⟨ready, place, told⟩
      · simp only [waits, failed]
        rfl
      · simp only [ready, told, Memory.writeWord, Memory.writeBytes_eq, Access.result, dividesByZero]
        cases Access.refused? (Access.writes _ next.bytes) <;> rfl
  | ret =>
      obtain ⟨word, loaded⟩ := machine.memory.readWord_eq (machine.registers.get .sp - 4).toNat
      simp only [perform, loaded, fault?, evaluated?, Operation.address?, Option.bind_none,
        accessesOf, Access.result, dividesByZero]
      cases Access.refused? (Access.reads (machine.registers.get .sp - 4).toNat 4) <;> rfl

theorem fault?_cases (machine : Machine) (next : Word) (operation : Operation) (fault : Fault)
    (faults : machine.fault? next operation = some fault) :
    (∃ label, (machine.evaluated? operation).bind Addressing.label? = some label ∧
      fault = .unresolvedLabel label) ∨
    (machine.dividesByZero operation = true ∧ fault = .divisionByZero) ∨
    (∃ refused, Access.refused? (machine.accessesOf next operation) = some refused ∧
      fault = .illegalAddress refused.address) := by
  unfold fault? at faults
  split at faults
  · next label waits =>
      cases faults
      exact Or.inl ⟨label, waits, rfl⟩
  · split at faults
    · next zero =>
        cases faults
        exact Or.inr (Or.inl ⟨zero, rfl⟩)
    · obtain ⟨refused, found, same⟩ := Option.map_eq_some_iff.mp faults
      exact Or.inr (Or.inr ⟨refused, found, same.symm⟩)

theorem accessesOf_of_label (machine : Machine) (next : Word) (operation : Operation)
    (label : String) (waits : (machine.evaluated? operation).bind Addressing.label? = some label) :
    machine.accessesOf next operation = [] := by
  cases operation with
  | copy target source | flexible op target left right | registers op target left right
  | negate register | flow target | jump target | jumpIfZero register target => rfl
  | ret => cases waits
  | store width target source | load width target source | call target =>
      rename Addressing => address
      rcases machine.effectiveAddress_cases address with ⟨_, _, failed⟩ | ⟨ready, _⟩
      · simp only [accessesOf, failed]
      · simp only [evaluated?, Operation.address?, Option.bind_some, ready] at waits
        cases waits

theorem accessesOf_of_division (machine : Machine) (next : Word) (operation : Operation)
    (zero : machine.dividesByZero operation = true) : machine.accessesOf next operation = [] := by
  cases operation with
  | registers op target left right => rfl
  | _ => cases zero

end Machine

namespace Operation

def storesWord : Operation → Bool
  | store .word .. | call _ => true
  | _ => false

def loadsWord : Operation → Bool
  | load .word .. | ret => true
  | _ => false

def movesWord (operation : Operation) : Bool := operation.storesWord || operation.loadsWord

end Operation

namespace Machine

theorem accessesOf_cases (machine : Machine) (next : Word) (operation : Operation) :
    machine.accessesOf next operation = [] ∨
    (operation.movesWord = false ∧ ∃ access, machine.accessesOf next operation = [access]) ∨
    (operation.storesWord = true ∧ ∃ start, ∃ word : Word,
      machine.accessesOf next operation = Access.writes start word.bytes) ∨
    (operation.loadsWord = true ∧ ∃ start,
      machine.accessesOf next operation = Access.reads start 4) := by
  cases operation with
  | copy target source | flexible op target left right | registers op target left right
  | negate register | flow target | jump target | jumpIfZero register target => exact Or.inl rfl
  | ret => exact Or.inr (Or.inr (Or.inr ⟨rfl, _, rfl⟩))
  | store width target source =>
      simp only [accessesOf]
      rcases machine.effectiveAddress target with fault | address
      · exact Or.inl rfl
      · cases width with
        | byte => exact Or.inr (Or.inl ⟨rfl, _, rfl⟩)
        | word => exact Or.inr (Or.inr (Or.inl ⟨rfl, _, _, rfl⟩))
  | load width target source =>
      simp only [accessesOf]
      rcases machine.effectiveAddress source with fault | address
      · exact Or.inl rfl
      · cases width with
        | byte => exact Or.inr (Or.inl ⟨rfl, _, rfl⟩)
        | word => exact Or.inr (Or.inr (Or.inr ⟨rfl, _, rfl⟩))
  | call target =>
      simp only [accessesOf]
      rcases machine.effectiveAddress target with fault | address
      · exact Or.inl rfl
      · exact Or.inr (Or.inr (Or.inl ⟨rfl, _, _, rfl⟩))

theorem accessesOf_consecutive (machine : Machine) (next : Word) (operation : Operation) :
    ∃ start count, count ≤ 4 ∧
      (machine.accessesOf next operation).map Access.address = List.range' start count := by
  rcases machine.accessesOf_cases next operation with
    none | ⟨_, access, one⟩ | ⟨_, start, word, written⟩ | ⟨_, start, read⟩
  · exact ⟨0, 0, by decide, by rw [none]; rfl⟩
  · exact ⟨access.address, 1, by decide, by rw [one]; rfl⟩
  · exact ⟨start, 4, Nat.le_refl 4, by rw [written, Access.address_writes]; rfl⟩
  · exact ⟨start, 4, Nat.le_refl 4, by rw [read, Access.address_reads]⟩

theorem accessesOf_ascending (machine : Machine) (next : Word) (operation : Operation) :
    (machine.accessesOf next operation).Pairwise fun earlier later =>
      earlier.address < later.address := by
  obtain ⟨start, count, _, consecutive⟩ := machine.accessesOf_consecutive next operation
  exact Access.ascending_of_consecutive _ start count consecutive

theorem served_of_refused (machine : Machine) (next : Word) (operation : Operation)
    (refused : Access) (single : operation.movesWord = false)
    (found : Access.refused? (machine.accessesOf next operation) = some refused) :
    Access.served (machine.accessesOf next operation) = [] := by
  rcases machine.accessesOf_cases next operation with
    none | ⟨_, access, one⟩ | ⟨stores, _⟩ | ⟨loads, _⟩
  · rw [none]
    rfl
  · obtain ⟨_, _, rest, split⟩ := Access.split_of_refused refused _ found
    have length := congrArg List.length split
    rw [one, List.length_singleton, List.length_append, List.length_cons, ← one] at length
    exact List.eq_nil_of_length_eq_zero (by omega)
  · rw [Operation.movesWord, stores] at single
    cases single
  · rw [Operation.movesWord, loads, Bool.or_true] at single
    cases single

theorem step_error (machine after : Machine) (fault : Fault)
    (failed : machine.step = (.error fault, after)) :
    ∃ instruction, machine.instruction? = some instruction ∧
      machine.fault? (machine.behind instruction) instruction.operation = some fault ∧
      after = { machine with
        memory := machine.memoryAfter (machine.behind instruction) instruction.operation } := by
  rcases step_cases machine with ⟨_, same⟩ |
    ⟨instruction, other, memory, found, performed, same⟩ | ⟨_, _, _, _, _, same⟩
  · rw [same] at failed
    cases failed
  · rw [same] at failed
    cases failed
    have fails := machine.fault_perform (machine.behind instruction) instruction.operation
    have leaves := machine.memory_perform (machine.behind instruction) instruction.operation
    rw [performed] at fails leaves
    exact ⟨instruction, found, fails.symm, by rw [← leaves]⟩
  · rw [same] at failed
    cases failed

theorem step_of_fault? (machine : Machine) (instruction : Instruction) (fault : Fault)
    (found : machine.instruction? = some instruction)
    (fails : machine.fault? (machine.behind instruction) instruction.operation = some fault) :
    ∃ after, machine.step = (.error fault, after) := by
  rw [← fault_perform] at fails
  rcases performed : machine.perform (machine.behind instruction) instruction.operation
    with ⟨other | effect, memory⟩
  · rw [performed] at fails
    cases fails
    exact ⟨_, step_of_fault machine instruction memory found fault performed⟩
  · rw [performed] at fails
    cases fails

theorem memory_of_fault (machine : Machine) (next : Word) (operation : Operation) (fault : Fault)
    (fails : machine.fault? next operation = some fault)
    (other : operation.movesWord = false ∨ ∀ address, fault ≠ .illegalAddress address) :
    machine.memoryAfter next operation = machine.memory := by
  have untouched (none : Access.served (machine.accessesOf next operation) = []) :
      machine.memoryAfter next operation = machine.memory := by
    rw [memoryAfter_eq, none]
    rfl
  rcases fault?_cases machine next operation fault fails with
    ⟨label, waits, _⟩ | ⟨zero, _⟩ | ⟨refused, found, illegal⟩
  · exact untouched (by rw [accessesOf_of_label machine next operation label waits]; rfl)
  · exact untouched (by rw [accessesOf_of_division machine next operation zero]; rfl)
  · rcases other with single | legal
    · exact untouched (machine.served_of_refused next operation refused single found)
    · exact absurd illegal (legal refused.address)

/-- Where the byte of a word is refused, the bytes before it have been moved. -/
theorem memory_of_illegal (machine : Machine) (next : Word) (operation : Operation) (address : Nat)
    (fails : machine.fault? next operation = some (.illegalAddress address)) :
    ∃ done refused rest, machine.accessesOf next operation = done ++ refused :: rest ∧
      refused.address = address ∧ refused.answered = false ∧
      (∀ access ∈ done, access.answered = true ∧ access.address < address) ∧
      machine.memoryAfter next operation = machine.memory.accessAll done := by
  rcases fault?_cases machine next operation _ fails with
    ⟨_, _, other⟩ | ⟨_, other⟩ | ⟨refused, found, same⟩
  · cases other
  · cases other
  · obtain rfl : address = refused.address := Fault.illegalAddress.inj same
    obtain ⟨silent, answered, rest, split⟩ := Access.split_of_refused refused _ found
    have ascending := machine.accessesOf_ascending next operation
    rw [split, List.pairwise_append] at ascending
    refine ⟨_, refused, rest, split, rfl, silent, ?_, machine.memoryAfter_eq next operation⟩
    intro access member
    exact ⟨answered access member, ascending.2.2 access member refused List.mem_cons_self⟩

/-- A step that fails leaves registers, flag and program alone and would fail again. It leaves memory
alone too, unless a byte of a word is refused: then the bytes before it are moved and no others. -/
theorem failing_step_keeps (machine after : Machine) (fault : Fault)
    (failed : machine.step = (.error fault, after)) :
    after.registers = machine.registers ∧ after.overflow = machine.overflow ∧
    after.program = machine.program ∧ (∃ again, after.step = (.error fault, again)) ∧
    ∃ instruction accesses, machine.instruction? = some instruction ∧
      machine.accessesOf (machine.behind instruction) instruction.operation = accesses ∧
      (instruction.operation.movesWord = false ∨ (∀ address, fault ≠ .illegalAddress address) →
        after.memory = machine.memory) ∧
      (instruction.operation.movesWord = true → ∀ address, fault = .illegalAddress address →
        ((instruction.operation.storesWord = true ∧
            ∃ start, ∃ word : Word, accesses = Access.writes start word.bytes) ∨
          (instruction.operation.loadsWord = true ∧ ∃ start, accesses = Access.reads start 4)) ∧
        ∃ done refused rest, accesses = done ++ refused :: rest ∧ refused.address = address ∧
          refused.answered = false ∧
          (∀ access ∈ done, access.answered = true ∧ access.address < address) ∧
          after.memory = machine.memory.accessAll done) := by
  obtain ⟨instruction, found, fails, rfl⟩ := step_error machine after fault failed
  -- The fault depends on nothing that the failed step has changed.
  have again := step_of_fault? { machine with
    memory := machine.memoryAfter (machine.behind instruction) instruction.operation }
    instruction fault found fails
  refine ⟨rfl, rfl, rfl, again, instruction, _, found, rfl,
    memory_of_fault machine _ _ fault fails, ?_⟩
  rintro moves address rfl
  obtain ⟨done, refused, rest, split, moved⟩ := memory_of_illegal machine _ _ address fails
  refine ⟨?_, done, refused, rest, split, moved⟩
  rcases machine.accessesOf_cases (machine.behind instruction) instruction.operation with
    none | ⟨single, _⟩ | word
  · rw [none] at split
    cases List.append_eq_nil_iff.mp split.symm |>.2
  · rw [moves] at single
    cases single
  · exact word

def storesAtDisplay : Machine :=
  start (Program.ofList [(0, ⟨.store .word { offset := some (.value 0x20000003) } .sp, 0⟩)] {})

theorem storesAtDisplay_fails : ∃ after,
    storesAtDisplay.step = (.error (.illegalAddress 0x20000004), after) ∧
    after.registers = Registers.initial ∧ after.memory.display.bytes = #[0xF0] ∧
    ∃ again, after.step = (.error (.illegalAddress 0x20000004), again) := by
  have failed : storesAtDisplay.step =
      (.error (.illegalAddress 0x20000004), storesAtDisplay.step.2) :=
    Prod.ext rfl rfl
  obtain ⟨registers, _, _, again, _⟩ := failing_step_keeps _ _ _ failed
  exact ⟨_, failed, registers, by decide +kernel, again⟩

end Machine

end ToyComputer
