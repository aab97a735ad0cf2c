import ToyComputer.Machine.Step

/-!
What a step can do: nothing, leave traces in memory, or put an effect into force. The program stays
as it is, and only a jump, a call or a return goes on elsewhere than behind the instruction.
-/

namespace ToyComputer.Machine

def behind (machine : Machine) (instruction : Instruction) : Word :=
  machine.registers.pc + UInt32.ofNat instruction.operation.size

section

variable (machine : Machine) (instruction : Instruction) (memory : Memory)
  (found : machine.instruction? = some instruction)

include found

theorem step_of_fault (fault : Fault)
    (performed : machine.perform (machine.behind instruction) instruction.operation =
      (.error fault, memory)) :
    machine.step = (.error fault, { machine with memory }) := by
  simp only [behind] at performed
  simp only [step, found, performed]

theorem step_of_effect (effect : Effect)
    (performed : machine.perform (machine.behind instruction) instruction.operation =
      (.ok effect, memory)) :
    machine.step = (.ok .continuing, machine.commit effect (machine.behind instruction) memory) := by
  simp only [behind] at performed ⊢
  simp only [step, found, performed]

end

/-- The ways in which a step ends. -/
theorem step_cases (machine : Machine) :
    (machine.instruction? = none ∧ machine.step = (.ok .halted, machine)) ∨
    (∃ instruction fault memory, machine.instruction? = some instruction ∧
      machine.perform (machine.behind instruction) instruction.operation = (.error fault, memory) ∧
      machine.step = (.error fault, { machine with memory })) ∨
    (∃ instruction effect memory, machine.instruction? = some instruction ∧
      machine.perform (machine.behind instruction) instruction.operation = (.ok effect, memory) ∧
      machine.step = (.ok .continuing,
        machine.commit effect (machine.behind instruction) memory)) := by
  cases found : machine.instruction? with
  | none => exact Or.inl ⟨rfl, by simp only [step, found]⟩
  | some instruction =>
      right
      rcases performed : machine.perform (machine.behind instruction) instruction.operation
        with ⟨fault | effect, memory⟩
      · exact Or.inl ⟨instruction, fault, memory, rfl, performed,
          step_of_fault machine instruction memory found fault performed⟩
      · exact Or.inr ⟨instruction, effect, memory, rfl, performed,
          step_of_effect machine instruction memory found effect performed⟩

theorem step_halted (machine after : Machine) (stepped : machine.step = (.ok .halted, after)) :
    machine.instruction? = none ∧ after = machine := by
  rcases step_cases machine with ⟨none, same⟩ | ⟨_, _, _, _, _, same⟩ | ⟨_, _, _, _, _, same⟩
  · rw [same] at stepped
    cases stepped
    exact ⟨none, rfl⟩
  · rw [same] at stepped; cases stepped
  · rw [same] at stepped; cases stepped

theorem step_continuing (machine after : Machine)
    (stepped : machine.step = (.ok .continuing, after)) :
    ∃ instruction effect memory, machine.instruction? = some instruction ∧
      machine.perform (machine.behind instruction) instruction.operation = (.ok effect, memory) ∧
      after = machine.commit effect (machine.behind instruction) memory := by
  rcases step_cases machine with ⟨_, same⟩ | ⟨_, _, _, _, _, same⟩ |
    ⟨instruction, effect, memory, found, performed, same⟩
  · rw [same] at stepped; cases stepped
  · rw [same] at stepped; cases stepped
  · rw [same] at stepped
    cases stepped
    exact ⟨instruction, effect, memory, found, performed, rfl⟩

@[simp] theorem pc_commit (machine : Machine) (effect : Effect) (next : Word) (memory : Memory) :
    (machine.commit effect next memory).registers.pc = effect.target.getD next := rfl

@[simp] theorem program_commit (machine : Machine) (effect : Effect) (next : Word)
    (memory : Memory) : (machine.commit effect next memory).program = machine.program := rfl

theorem program_step (machine : Machine) : machine.step.2.program = machine.program := by
  rcases step_cases machine with ⟨_, same⟩ | ⟨_, _, _, _, _, same⟩ | ⟨_, _, _, _, _, same⟩
  · rw [same]
  · rw [same]
  · rw [same, program_commit]

/-- Whether an operation is a jump that happens, a call or a return. -/
def transfers (machine : Machine) : Operation → Bool
  | .jump _ | .call _ | .ret => true
  | .jumpIfZero register _ => machine.registers.get register == 0
  | _ => false

theorem target_of_stays (machine : Machine) (next : Word) (operation : Operation) (effect : Effect)
    (memory : Memory) (performed : machine.perform next operation = (.ok effect, memory))
    (stays : machine.transfers operation = false) : effect.target = none := by
  cases operation with
  | copy target source | flexible op target left right | negate register | flow target =>
      cases performed
      rfl
  | registers op target left right =>
      obtain ⟨evaluated, _⟩ := Prod.mk.inj performed
      cases result : op.eval (machine.registers.get left) (machine.registers.get right) with
      | error fault => rw [result] at evaluated; cases evaluated
      | ok computed =>
          rw [result] at evaluated
          cases evaluated
          rfl
  | store width target source =>
      simp only [perform] at performed
      split at performed
      · cases performed
      · split at performed <;> cases performed
        rfl
  | load width target source =>
      simp only [perform] at performed
      split at performed
      · cases performed
      · split at performed <;> cases performed
        rfl
  | jumpIfZero register target =>
      simp only [transfers, beq_eq_false_iff_ne] at stays
      simp only [perform, if_neg stays] at performed
      cases performed
      rfl
  | jump target | call target | ret => cases stays

theorem effect_of_jump (machine : Machine) (address : Addressing) (effect : Effect)
    (jumped : ((machine.effectiveAddress address).map fun place =>
      ({ target := some place } : Effect)) = .ok effect) :
    ∃ place, machine.effectiveAddress address = .ok place ∧ effect = { target := some place } := by
  cases evaluated : machine.effectiveAddress address with
  | error fault => rw [evaluated] at jumped; cases jumped
  | ok place => rw [evaluated] at jumped; cases jumped; exact ⟨place, rfl, rfl⟩

theorem target_of_transfers (machine : Machine) (next : Word) (operation : Operation)
    (effect : Effect) (memory : Memory) (address : Addressing)
    (performed : machine.perform next operation = (.ok effect, memory))
    (moves : machine.transfers operation = true) (named : operation.address? = some address) :
    ∃ target, machine.effectiveAddress address = .ok target ∧ effect.target = some target := by
  cases operation with
  | jump target =>
      cases named
      simp only [perform, Prod.mk.injEq] at performed
      obtain ⟨place, evaluated, rfl⟩ := effect_of_jump machine address effect performed.1
      exact ⟨place, evaluated, rfl⟩
  | jumpIfZero register target =>
      cases named
      simp only [transfers, beq_iff_eq] at moves
      simp only [perform, if_pos moves, Prod.mk.injEq] at performed
      obtain ⟨place, evaluated, rfl⟩ := effect_of_jump machine address effect performed.1
      exact ⟨place, evaluated, rfl⟩
  | call target =>
      cases named
      simp only [perform] at performed
      cases evaluated : machine.effectiveAddress address with
      | error fault => rw [evaluated] at performed; cases performed
      | ok place =>
          simp only [evaluated] at performed
          split at performed <;> cases performed
          exact ⟨place, rfl, rfl⟩
  | ret => cases named
  | copy target source | flexible op target left right | registers op target left right
  | negate register | flow target | store width target source | load width target source =>
      cases moves

end ToyComputer.Machine
