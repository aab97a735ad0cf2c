import ToyComputer.Proofs.ProgramLayout
import ToyComputer.Proofs.Steps

/-!
Execution line by line: in a program that ends below the end of the address space, the machine goes
on at the next line that has an instruction, or at the first one from the line of the label that it
jumps to.
-/

namespace ToyComputer

open Assembly

/-- Goes on elsewhere than behind itself only at labels. -/
def Operation.FlowsByLabel : Operation → Prop
  | .jump target | .jumpIfZero _ target | .call target =>
    ∃ label, target = { offset := some (.label label) }
  | .ret => False
  | _ => True

namespace Machine

theorem label_of_flows (machine : Machine) (operation : Operation)
    (flows : operation.FlowsByLabel) (moves : machine.transfers operation = true) :
    ∃ label, operation.address? = some { offset := some (.label label) } := by
  cases operation with
  | jump target | call target | jumpIfZero register target =>
      obtain ⟨label, rfl⟩ := flows
      exact ⟨label, rfl⟩
  | ret => exact flows.elim
  | copy target source | flexible op target left right | registers op target left right
  | negate register | flow target | store width target source | load width target source =>
      cases moves

/-- What a freshly loaded machine becomes by steps, whatever their outcome, and keys. -/
inductive Reached (program : Program) : Machine → Prop where
  | start : Reached program (Machine.start program)
  | step (machine : Machine) (before : Reached program machine) : Reached program machine.step.2
  | pushKey (machine : Machine) (key : UInt8) (before : Reached program machine) :
    Reached program (machine.pushKey key).2

theorem Reached.program_eq {program : Program} {machine : Machine}
    (reached : Reached program machine) : machine.program = program := by
  induction reached with
  | start => rfl
  | step machine _ ih => rw [program_step, ih]
  | pushKey machine key _ ih => exact ih

theorem transfers_linked (machine : Machine) (lines : List Line) (operation : Operation) :
    machine.transfers (linked lines operation) = machine.transfers operation := by
  unfold linked
  split
  · rfl
  · cases operation <;> rfl

theorem effectiveAddress_value (machine : Machine) (target : Word) :
    machine.effectiveAddress { offset := some (.value target) } = .ok target := by
  simp [effectiveAddress]

theorem isHalted_eq (machine : Machine) : machine.isHalted = machine.currentLine?.isNone := by
  simp [isHalted, currentLine?]

section

variable {lines : List Line} {program : Program}

theorem currentLine?_at (laid : LaidOut lines program) (machine : Machine)
    (loaded : machine.program = program) (index : Nat)
    (here : machine.registers.pc.toNat = addressOf lines index) :
    machine.currentLine? = nextInstruction? lines index := by
  rw [currentLine?, instruction?, loaded]
  cases follows : nextInstruction? lines index with
  | none =>
      have past : totalSize lines ≤ machine.registers.pc.toNat :=
        Nat.le_of_eq (by rw [here, addressOf_noInstruction lines index follows])
      rw [laid.at?_of_end _ past, Option.map_none]
  | some next =>
      obtain ⟨instruction, held, same⟩ := laid.at?_of_next _ index next here follows
      rw [held, Option.map_some, same]

/-- A step moves the program counter to the beginning of a line: the one behind, or the one that
defines the label jumped to. -/
theorem pc_step (laid : LaidOut lines program) (small : totalSize lines < 0x100000000)
    (machine after : Machine) (loaded : machine.program = program) (index : Nat) (line : Line)
    (operation : Operation) (found : lines[index]? = some line)
    (present : line.operation = some operation)
    (here : machine.registers.pc.toNat = addressOf lines index)
    (stepped : machine.step = (.ok .continuing, after)) :
    (machine.transfers operation = false →
      after.registers.pc.toNat = addressOf lines (index + 1)) ∧
    (∀ label, machine.transfers operation = true →
      operation.address? = some { offset := some (.label label) } →
        ∃ place ∈ places lines, place.line.label = some label ∧
          after.registers.pc.toNat = place.address) := by
  obtain ⟨instruction, effect, memory, held, performed, rfl⟩ :=
    step_continuing machine after stepped
  have same : instruction = ⟨linked lines operation, index⟩ := by
    obtain ⟨address, there, listed⟩ := laid.at?_of_line index line operation found present
    rw [instruction?, loaded, UInt32.toNat_inj.mp (here.trans there.symm), listed] at held
    exact (Option.some.inj held).symm
  subst same
  constructor
  · intro stays
    rw [← transfers_linked machine lines] at stays
    have size : (linked lines operation).size = line.size := by
      rw [size_linked, Line.size, present, Option.map_some, Option.getD_some]
    have next := addressOf_succ lines index line found
    have bound := addressOf_le_totalSize lines (index + 1)
    calc (machine.commit effect _ memory).registers.pc.toNat
        = (machine.behind ⟨linked lines operation, index⟩).toNat := by
          rw [pc_commit, target_of_stays machine _ _ effect memory performed stays,
            Option.getD_none]
      _ = addressOf lines index + line.size := by
          rw [behind, UInt32.toNat_add, UInt32.toNat_ofNat', here, size]
          omega
      _ = addressOf lines (index + 1) := next.symm
  · intro label moves named
    rw [← transfers_linked machine lines] at moves
    obtain ⟨place, member, target, defines, there, address⟩ :=
      laid.linked_ofLabel index line operation label found present named
    obtain ⟨goal, evaluated, went⟩ :=
      target_of_transfers machine _ _ effect memory _ performed moves address
    rw [effectiveAddress_value] at evaluated
    cases evaluated
    refine ⟨place, member, defines, ?_⟩
    rw [pc_commit, went, Option.getD_some, there]

/-- If all jumps and calls go to labels, the machine is always at the beginning of a line or behind
the last one. -/
theorem pc_reached (laid : LaidOut lines program) (small : totalSize lines < 0x100000000)
    (byLabel : ∀ line ∈ lines, ∀ operation, line.operation = some operation →
      operation.FlowsByLabel)
    (machine : Machine) (reached : Reached program machine) :
    ∃ index, machine.registers.pc.toNat = addressOf lines index := by
  induction reached with
  | start => exact ⟨0, rfl⟩
  | pushKey machine key _ ih => exact ih
  | step machine before ih =>
      rcases step_cases machine with ⟨_, same⟩ | ⟨_, _, _, _, _, same⟩ |
        ⟨instruction, _, _, held, _, same⟩
      · rw [same]; exact ih
      · rw [same]; exact ih
      · rw [instruction?, before.program_eq] at held
        obtain ⟨line, operation, found, present, here, _⟩ :=
          (laid.at?_eq_some machine.registers.pc instruction).mp held
        obtain ⟨behind, elsewhere⟩ := pc_step laid small machine machine.step.2 before.program_eq
          instruction.line line operation found present here (by rw [same])
        cases moves : machine.transfers operation with
        | false => exact ⟨instruction.line + 1, behind moves⟩
        | true =>
            have flows := byLabel line (List.mem_of_getElem? found) operation present
            obtain ⟨label, named⟩ := label_of_flows machine operation flows moves
            obtain ⟨place, member, _, there⟩ := elsewhere label moves named
            exact ⟨place.index, by rw [there, ((mem_places lines place).mp member).2]⟩

/-- From an instruction a step goes on at the next one, or at the first from the label jumped to. -/
theorem currentLine?_step (laid : LaidOut lines program) (small : totalSize lines < 0x100000000)
    (machine after : Machine) (count index : Nat) (line : Line) (operation : Operation)
    (loaded : machine.program = program) (counted : (instructionLines lines)[count]? = some index)
    (found : lines[index]? = some line) (present : line.operation = some operation)
    (here : machine.registers.pc.toNat = addressOf lines index)
    (stepped : machine.step = (.ok .continuing, after)) :
    (machine.transfers operation = false →
      after.currentLine? = (instructionLines lines)[count + 1]? ∧
        after.isHalted = (instructionLines lines)[count + 1]?.isNone) ∧
    (∀ label, machine.transfers operation = true →
      operation.address? = some { offset := some (.label label) } →
        ∃ definition,
          (∀ index, lines[index]?.bind Line.label = some label ↔ index = definition) ∧
          after.currentLine? = nextInstruction? lines definition) := by
  have kept : after.program = program := by
    rw [← loaded, ← program_step machine, stepped]
  obtain ⟨behind, elsewhere⟩ :=
    pc_step laid small machine after loaded index line operation found present here stepped
  constructor
  · intro stays
    have current := currentLine?_at laid after kept (index + 1) (behind stays)
    rw [nextInstruction?_succ lines count index counted] at current
    exact ⟨current, by rw [isHalted_eq, current]⟩
  · intro label moves named
    obtain ⟨place, member, defines, there⟩ := elsewhere label moves named
    obtain ⟨placed, located⟩ := (mem_places lines place).mp member
    have defined : lines[place.index]?.bind Line.label = some label := by
      rw [placed, Option.bind_some, defines]
    have once := labels_distinct program.labels lines laid.labels
    refine ⟨place.index, fun other => ⟨fun otherDefines => ?_, ?_⟩,
      currentLine?_at laid after kept place.index (by rw [there, located])⟩
    · exact definition_unique lines once label other place.index otherDefines defined
    · intro same
      subst same
      exact defined

theorem halts_at_end (laid : LaidOut lines program) (machine : Machine)
    (loaded : machine.program = program) (index : Nat)
    (here : machine.registers.pc.toNat = addressOf lines index) :
    ((program.at? machine.registers.pc).isSome ∨
      machine.registers.pc.toNat = totalSize lines) ∧
    (machine.step.1 = .ok .halted → machine.registers.pc.toNat = totalSize lines) := by
  cases follows : nextInstruction? lines index with
  | none =>
      have last : machine.registers.pc.toNat = totalSize lines := by
        rw [here, addressOf_noInstruction lines index follows]
      exact ⟨Or.inr last, fun _ => last⟩
  | some next =>
      obtain ⟨instruction, held, _⟩ := laid.at?_of_next _ index next here follows
      refine ⟨Or.inl (by rw [held]; rfl), fun stopped => ?_⟩
      have none := (step_halted machine machine.step.2 (by rw [← stopped])).1
      rw [instruction?, loaded, held] at none
      cases none

end

/-- The machine executes a source line by line. A step that does not jump, call or return goes on at
the next line with an instruction; one that jumps to a label goes on at the first such line from the
one that defines the label. If all jumps and calls go to labels and nothing returns, the machine
only ever stops behind the last line. -/
theorem step_follows_lines (source : String) (program : Program)
    (assembled : assemble source = .ok program) :
    ∃ lines, Reads source lines ∧ (totalSize lines < 0x100000000 →
      (∀ (machine after : Machine) (count index : Nat) (line : Line) (operation : Operation),
        machine.program = program →
        (instructionLines lines)[count]? = some index →
        lines[index]? = some line → line.operation = some operation →
        machine.registers.pc.toNat = addressOf lines index →
        machine.step = (.ok .continuing, after) →
        (machine.transfers operation = false →
          after.currentLine? = (instructionLines lines)[count + 1]? ∧
            after.isHalted = (instructionLines lines)[count + 1]?.isNone) ∧
        (∀ label, machine.transfers operation = true →
          operation.address? = some { offset := some (.label label) } →
            ∃ definition,
              (∀ index, lines[index]?.bind Line.label = some label ↔ index = definition) ∧
              after.currentLine? = nextInstruction? lines definition)) ∧
      ((∀ line ∈ lines, ∀ operation, line.operation = some operation →
          operation.FlowsByLabel) →
        ∀ machine, Reached program machine →
          ((program.at? machine.registers.pc).isSome ∨
            machine.registers.pc.toNat = totalSize lines) ∧
          (machine.step.1 = .ok .halted → machine.registers.pc.toNat = totalSize lines))) := by
  obtain ⟨lines, read, laid⟩ := assemble_laidOut source program assembled
  refine ⟨lines, read, fun small => ⟨currentLine?_step laid small, ?_⟩⟩
  intro byLabel machine reached
  obtain ⟨index, here⟩ := pc_reached laid small byLabel machine reached
  exact halts_at_end laid machine reached.program_eq index here

theorem countdown_flows : ∀ line ∈ countdownLines, ∀ operation, line.operation = some operation →
    operation.FlowsByLabel := by
  intro line member operation present
  simp only [countdownLines, List.mem_cons, List.not_mem_nil, or_false] at member
  rcases member with rfl | rfl | rfl | rfl
  · cases present; exact ⟨_, rfl⟩
  · cases present; trivial
  · cases present; exact ⟨_, rfl⟩
  · cases present

theorem countdown_starts (program : Program) (assembled : assemble countdown = .ok program) :
    (Machine.start program).step = (.ok .continuing,
      (Machine.start program).commit { target := some 22 } 8 {}) := by
  obtain ⟨address, there, held⟩ := (laidOut_countdown program assembled).at?_of_line 0 _ _ rfl rfl
  have first : (Machine.start program).instruction? =
      some ⟨.jumpIfZero .r0 { offset := some (.value 22) }, 0⟩ := by
    have zero : address = 0 := UInt32.toNat_inj.mp there
    rw [zero] at held
    exact held.trans (by decide +kernel)
  simp only [step, first]
  rfl

theorem countdown_follows_lines : ∃ program, assemble countdown = .ok program ∧
    (∃ after, (Machine.start program).step = (.ok .continuing, after) ∧
      after.currentLine? = none) ∧
    ∀ machine, Reached program machine →
      (program.at? machine.registers.pc).isSome ∨ machine.registers.pc.toNat = 22 := by
  obtain ⟨program, assembled⟩ := assembles_countdown
  obtain ⟨lines, read, follow⟩ := step_follows_lines countdown program assembled
  obtain rfl := reads_unique countdown lines countdownLines read reads_countdown
  obtain ⟨steps, reached⟩ := follow (by decide +kernel)
  have stepped := countdown_starts program assembled
  refine ⟨program, assembled, ⟨_, stepped, ?_⟩,
    fun machine reachable => (reached countdown_flows machine reachable).1⟩
  obtain ⟨definition, defines, current⟩ :=
    (steps _ _ 0 0 _ _ rfl (by decide +kernel) rfl rfl rfl stepped).2 "end" rfl rfl
  obtain rfl : 3 = definition := (defines 3).mp rfl
  exact current.trans (by decide +kernel)

end Machine

end ToyComputer
