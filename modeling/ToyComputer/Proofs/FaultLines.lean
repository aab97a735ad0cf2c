import ToyComputer.Proofs.Calls
import ToyComputer.Proofs.Faults
import ToyComputer.Proofs.ProgramLayout

/-!
Fault lines: when a session reports that a step failed, it names the line of the source that the
failing instruction was written on. The programs of a session come from the assembler, so none of
their instructions waits for a label.
-/

namespace ToyComputer

/-- An operation as it stands in the program, its label's address in the place of the label. -/
def Program.resolved (program : Program) (operation : Operation) : Operation :=
  match operation.label?.bind program.labels.lookup with
  | none => operation
  | some target => operation.withTarget target

def Operation.accessesMemory : Operation → Bool
  | store .. | load .. | call _ | ret => true
  | _ => false

namespace Assembly

variable {lines : List Line} {program : Program}

theorem LaidOut.lookup (laid : LaidOut lines program) (label : String) :
    program.labels.lookup label =
      (definingPlace? lines label).map fun place => UInt32.ofNat place.address := by
  have once := labels_distinct program.labels lines laid.labels
  cases found : program.labels.lookup label with
  | some address =>
      obtain ⟨place, member, named, here⟩ := (laid.lookup_eq_some label address).mp found
      rw [(definingPlace?_eq_some lines once label place).mpr ⟨member, named⟩, Option.map_some,
        ← here, UInt32.ofNat_toNat]
  | none =>
      cases defined : definingPlace? lines label with
      | none => rfl
      | some place =>
          obtain ⟨member, named⟩ := (definingPlace?_eq_some lines once label place).mp defined
          have small := laid.fits place member (Or.inl (by rw [named]; rfl))
          have present := (laid.lookup_eq_some label (UInt32.ofNat place.address)).mpr
            ⟨place, member, named, UInt32.toNat_ofNat_of_lt' small⟩
          rw [present] at found
          cases found

theorem LaidOut.resolved (laid : LaidOut lines program) (operation : Operation) :
    linked lines operation = program.resolved operation := by
  unfold linked Program.resolved
  cases operation.label? with
  | none => rfl
  | some label =>
      rw [Option.bind_some, Option.bind_some, laid.lookup label]
      cases definingPlace? lines label <;> rfl

theorem written_on_line (text : String) (program : Program) (address : Word)
    (instruction : Instruction) (assembled : assemble text = .ok program)
    (found : program.at? address = some instruction) :
    instruction.operation.label? = none ∧
    ∃ written line operation, (Text.lines text)[instruction.line]? = some written ∧
      Line.ofString written = .ok line ∧ line.operation = some operation ∧
      instruction.operation = program.resolved operation := by
  obtain ⟨lines, reads, laid⟩ := assemble_laidOut text program assembled
  obtain ⟨line, operation, there, present, _, same⟩ :=
    (laid.at?_eq_some address instruction).mp found
  refine ⟨laid.ready _ ((Program.mem_toList program _ _).mpr found), ?_⟩
  obtain ⟨written, here, read⟩ := text_of_line _ lines instruction.line line reads there
  exact ⟨written, line, operation, here, read, present, same.trans (laid.resolved operation)⟩

end Assembly

namespace Machine

theorem accessesOf_of_silent (machine : Machine) (next : Word) (operation : Operation)
    (silent : operation.accessesMemory = false) : machine.accessesOf next operation = [] := by
  cases operation with
  | store width target source | load width target source | call target | ret => cases silent
  | _ => rfl

theorem divides_of_dividesByZero (machine : Machine) (operation : Operation)
    (zero : machine.dividesByZero operation = true) :
    ∃ op target left right, operation = .registers op target left right ∧
      (op = .div ∨ op = .mod) ∧ machine.registers.get right = 0 := by
  cases operation with
  | registers op target left right =>
      cases op with
      | div => exact ⟨_, _, _, _, rfl, Or.inl rfl, beq_iff_eq.mp zero⟩
      | mod => exact ⟨_, _, _, _, rfl, Or.inr rfl, beq_iff_eq.mp zero⟩
      | _ => cases zero
  | _ => cases zero

theorem label?_of_evaluated? (machine : Machine) (operation : Operation) (label : String)
    (waits : (machine.evaluated? operation).bind Addressing.label? = some label) :
    operation.label? = some label := by
  cases operation with
  | jumpIfZero register target =>
      simp only [evaluated?] at waits
      split at waits
      · exact waits
      · cases waits
  | _ => exact waits

/-- What an instruction that waits for no label can fail in. -/
theorem fault?_of_ready (machine : Machine) (next : Word) (operation : Operation) (fault : Fault)
    (ready : operation.label? = none)
    (fails : machine.fault? next operation = some fault) :
    (fault = .divisionByZero ∧
      ∃ op target left right, operation = .registers op target left right ∧
        (op = .div ∨ op = .mod) ∧ machine.registers.get right = 0) ∨
    (∃ address, fault = .illegalAddress address ∧ operation.accessesMemory = true) := by
  rcases fault?_cases machine next operation fault fails with
    ⟨label, waits, _⟩ | ⟨zero, same⟩ | ⟨refused, found, same⟩
  · rw [machine.label?_of_evaluated? operation label waits] at ready
    cases ready
  · exact Or.inl ⟨same, machine.divides_of_dividesByZero operation zero⟩
  · refine Or.inr ⟨refused.address, same, ?_⟩
    by_contra silent
    rw [machine.accessesOf_of_silent next operation (eq_false_of_ne_true silent)] at found
    cases found

end Machine

/-- When a call returns the error of a step, the last machine that took one has failed. The error has
its program counter, and the line of the source that its instruction was written on. The session is
unloaded. What failed is a division by zero or an access to memory. -/
theorem execution_error_points_at_line {source : Option String} {session after : Session}
    {call : Call} {machines : List Machine} {pc : Word} {line : Option Nat} {fault : Fault}
    (reached : Session.Reached source session)
    (returned : call.Returns session machines (.error (.execution pc line fault)) after) :
    after.loaded = false ∧
    ∃ text program, (call.loading? session <|> source) = some text ∧
      Assembly.assemble text = .ok program ∧
    ∃ earlier machine, machines = earlier ++ [machine] ∧ machine.program = program ∧
      machine.step = (.error fault, after.machine) ∧ pc = machine.registers.pc ∧
    ∃ instruction written parsed operation, program.at? pc = some instruction ∧
      line = some instruction.line ∧ (Text.lines text)[instruction.line]? = some written ∧
      Assembly.Line.ofString written = .ok parsed ∧ parsed.operation = some operation ∧
      instruction.operation = program.resolved operation ∧ instruction.operation.label? = none ∧
      ((fault = .divisionByZero ∧
        ∃ op target left right, instruction.operation = .registers op target left right ∧
          (op = .div ∨ op = .mod) ∧ machine.registers.get right = 0) ∨
      (∃ address, fault = .illegalAddress address ∧
        instruction.operation.accessesMemory = true)) := by
  obtain ⟨unloaded, earlier, machine, rfl, failed, rfl, rfl⟩ := returned.failsAt
  obtain ⟨begun, holds, proceeds, loaded⟩ := returned.proceeds reached.holds
  have same : machine.program = begun.machine.program :=
    proceeds.stepping machine (List.mem_append_right _ (List.mem_singleton_self machine))
  obtain ⟨text, given, assembled⟩ := holds (loaded (by simp))
  obtain ⟨instruction, found, fails, _⟩ := Machine.step_error machine after.machine fault failed
  have present : begun.machine.program.at? machine.registers.pc = some instruction :=
    same ▸ found
  obtain ⟨ready, written, parsed, operation, here, read, operated, resolved⟩ :=
    Assembly.written_on_line text _ _ instruction assembled present
  refine ⟨unloaded, text, _, given, assembled, earlier, machine, rfl, same, failed, rfl,
    instruction, written, parsed, operation, present, ?_, here, read, operated, resolved, ready,
    machine.fault?_of_ready _ _ fault ready fails⟩
  rw [Machine.currentLine?, found]
  rfl

def dividesByNothing : String := "copy r0, 5\nloop: div r1, r0, r2\njump [loop]"

theorem dividesByNothing_points_at_line : ∃ machines after,
    (Call.resume 9).Returns (Session.fresh.load dividesByNothing).2 machines
      (.error (.execution 6 (some 1) .divisionByZero)) after ∧ after.loaded = false ∧
    ∃ earlier machine, machines = earlier ++ [machine] ∧ machine.registers.pc = 6 ∧
      machine.step = (.error .divisionByZero, after.machine) := by
  have reached := Session.Reached.call .fresh (.load dividesByNothing)
  have returned : (Call.resume 9).Returns (Session.fresh.load dividesByNothing).2 _ _ _ := .resume 9
  have failed : ((Session.fresh.load dividesByNothing).2.resume 9).1.map Reply.summary =
      .error (.execution 6 (some 1) .divisionByZero) := by decide +kernel
  rw [failed] at returned
  obtain ⟨unloaded, _, _, _, _, earlier, machine, last, _, fails, here, _⟩ :=
    execution_error_points_at_line reached returned
  exact ⟨_, _, returned, unloaded, earlier, machine, last, here.symm, fails⟩

end ToyComputer
