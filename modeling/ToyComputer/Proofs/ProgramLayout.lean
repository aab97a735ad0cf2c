import ToyComputer.Proofs.Linking

/-!
The layout of an assembled program: what its addresses, its labels and its line numbers have to do
with the lines of the source.
-/

namespace ToyComputer.Assembly

namespace LaidOut

variable {lines : List Line} {program : Program}

theorem mem_numbered (program : Program) (address : Word) (instruction : Instruction) :
    (address.toNat, instruction) ∈ program.toList.map numbered ↔
      program.at? address = some instruction := by
  rw [← Program.mem_toList, List.mem_map]
  constructor
  · intro given
    rcases given with ⟨⟨other, found⟩, member, equal⟩
    obtain ⟨same, rfl⟩ := Prod.mk.inj equal
    rw [← UInt32.toNat_inj.mp same]
    exact member
  · intro member
    exact ⟨(address, instruction), member, rfl⟩

theorem at?_eq_some (laid : LaidOut lines program) (address : Word) (instruction : Instruction) :
    program.at? address = some instruction ↔
      ∃ line operation, lines[instruction.line]? = some line ∧ line.operation = some operation ∧
        address.toNat = addressOf lines instruction.line ∧
        instruction.operation = linked lines operation := by
  rw [← mem_numbered, laid.instructions, List.mem_map]
  constructor
  · intro given
    rcases given with ⟨entry, member, equal⟩
    obtain ⟨place, placed, placedHere⟩ := List.mem_filterMap.mp member
    obtain ⟨operation, present, rfl⟩ := Option.map_eq_some_iff.mp placedHere
    obtain ⟨located, rfl⟩ := Prod.mk.inj equal
    obtain ⟨found, here⟩ := (mem_places lines place).mp placed
    exact ⟨place.line, operation, found, present, by rw [← located, here], rfl⟩
  · intro given
    rcases given with ⟨line, operation, found, present, located, same⟩
    refine ⟨(address.toNat, ⟨operation, instruction.line⟩), List.mem_filterMap.mpr ?_, ?_⟩
    · refine ⟨⟨addressOf lines instruction.line, instruction.line, line⟩,
        (mem_places lines _).mpr ⟨found, rfl⟩, ?_⟩
      simp [Place.instruction?, present, located]
    · simp only [linkedEntry, ← same]

/-- Every line with an instruction has its address in the program. -/
theorem at?_of_line (laid : LaidOut lines program) (index : Nat) (line : Line)
    (operation : Operation) (found : lines[index]? = some line)
    (present : line.operation = some operation) :
    ∃ address : Word, address.toNat = addressOf lines index ∧
      program.at? address = some ⟨linked lines operation, index⟩ := by
  have placed : (⟨addressOf lines index, index, line⟩ : Place) ∈ places lines :=
    (mem_places lines _).mpr ⟨found, rfl⟩
  have listed : (addressOf lines index, (⟨linked lines operation, index⟩ : Instruction)) ∈
      program.toList.map numbered := by
    rw [laid.instructions, List.mem_map]
    refine ⟨(addressOf lines index, ⟨operation, index⟩),
      List.mem_filterMap.mpr ⟨_, placed, ?_⟩, rfl⟩
    simp [Place.instruction?, present]
  obtain ⟨⟨address, instruction⟩, member, equal⟩ := List.mem_map.mp listed
  obtain ⟨here, rfl⟩ := Prod.mk.inj equal
  exact ⟨address, here, (Program.mem_toList program _ _).mp member⟩

theorem lookup_eq_some (laid : LaidOut lines program) (label : String) (address : Word) :
    program.labels.lookup label = some address ↔
      ∃ place ∈ places lines, place.line.label = some label ∧ address.toNat = place.address :=
  lookup_of_definitions program.labels lines laid.labels label address

theorem fits (laid : LaidOut lines program) : Fits lines := by
  intro place member present
  obtain ⟨found, here⟩ := (mem_places lines place).mp member
  rcases present with labelled | operated
  · obtain ⟨label, labelled⟩ := Option.isSome_iff_exists.mp labelled
    have listed : (label, place.address) ∈ definitions program.labels := by
      rw [laid.labels]
      exact List.mem_filterMap.mpr ⟨place, member, by simp [Place.definition?, labelled]⟩
    obtain ⟨entry, _, equal⟩ := List.mem_map.mp listed
    have same : entry.2.toNat = place.address := congrArg Prod.snd equal
    rw [← same]
    exact UInt32.toNat_lt entry.2
  · obtain ⟨operation, operated⟩ := Option.isSome_iff_exists.mp operated
    obtain ⟨address, there, _⟩ := laid.at?_of_line place.index place.line operation found operated
    rw [here, ← there]
    exact UInt32.toNat_lt address

theorem linked_ofLabel (laid : LaidOut lines program) (index : Nat) (line : Line)
    (operation : Operation) (label : String) (found : lines[index]? = some line)
    (present : line.operation = some operation)
    (named : operation.address? = some { offset := some (.label label) }) :
    ∃ place ∈ places lines, ∃ target : Word, place.line.label = some label ∧
      target.toNat = place.address ∧
      (linked lines operation).address? = some { offset := some (.value target) } := by
  have waits : operation.label? = some label := by
    rw [Operation.label?, named]
    rfl
  obtain ⟨address, _, held⟩ := laid.at?_of_line index line operation found present
  have ready := laid.ready _ ((Program.mem_toList program _ _).mpr held)
  cases defined : definingPlace? lines label with
  | none =>
      simp only [linked, waits, Option.bind_some, defined] at ready
      cases ready
  | some place =>
      obtain ⟨member, defines⟩ := (definingPlace?_eq_some lines
        (labels_distinct program.labels lines laid.labels) label place).mp defined
      have small := laid.fits place member (Or.inl (by rw [defines]; rfl))
      refine ⟨place, member, UInt32.ofNat place.address, defines,
        UInt32.toNat_ofNat_of_lt' small, ?_⟩
      simp only [linked, waits, Option.bind_some, defined, Operation.address?_withTarget, named,
        Option.map_some]
      rfl

theorem ordered (laid : LaidOut lines program) :
    program.toList.Pairwise fun earlier later =>
      earlier.1.toNat + earlier.2.operation.size ≤ later.1.toNat ∧
        earlier.2.line < later.2.line :=
  entries_ordered lines program.toList laid.instructions

/-- The instructions of a program lie one behind the other without a gap, from zero on. -/
theorem chained (laid : LaidOut lines program) :
    program.toList.IsChain (fun entry next =>
      entry.1.toNat + entry.2.operation.size = next.1.toNat) ∧
    ∀ entry ∈ program.toList.head?, entry.1 = 0 := by
  obtain ⟨chained, first, _⟩ := instructions_chained lines
  constructor
  · have numbers : (program.toList.map numbered).IsChain fun entry next =>
        entry.1 + entry.2.operation.size = next.1 := by
      rw [laid.instructions, List.isChain_map]
      apply chained.imp
      intro entry next follows
      simpa only [linkedEntry, size_linked] using follows
    exact (List.isChain_map _).mp numbers
  · intro entry isFirst
    have listed : numbered entry ∈ (program.toList.map numbered).head? := by
      rw [List.head?_map, isFirst]
      rfl
    rw [laid.instructions, List.head?_map] at listed
    obtain ⟨placed, begins, same⟩ := Option.map_eq_some_iff.mp listed
    have zero : entry.1.toNat = 0 := (congrArg Prod.fst same).symm.trans (first placed begins)
    exact UInt32.toNat_inj.mp zero

theorem instructionLines (laid : LaidOut lines program) :
    program.toList.map (fun entry => entry.2.line) = instructionLines lines := by
  have listed := congrArg (List.map fun entry => entry.2.line) laid.instructions
  rw [List.map_map, List.map_map, List.map_filterMap] at listed
  refine listed.trans ?_
  rw [Assembly.instructionLines, ← List.filterMap_eq_map, ← List.filterMap_eq_filter,
    List.filterMap_filterMap]
  congr 1
  funext place
  cases present : place.line.operation <;>
    simp [Place.instruction?, linkedEntry, present, Option.guard]

theorem covered (laid : LaidOut lines program) (position : Nat) :
    position < totalSize lines ↔
      ∃ entry ∈ program.toList,
        entry.1.toNat ≤ position ∧ position < entry.1.toNat + entry.2.operation.size := by
  rw [places_cover]
  constructor
  · intro given
    rcases given with ⟨place, member, above, below⟩
    obtain ⟨found, located⟩ := (mem_places lines place).mp member
    cases present : place.line.operation with
    | none =>
        simp only [Line.size, present, Option.map_none, Option.getD_none] at below
        omega
    | some operation =>
        simp only [Line.size, present, Option.map_some, Option.getD_some] at below
        obtain ⟨address, here, held⟩ :=
          laid.at?_of_line place.index place.line operation found present
        refine ⟨(address, _), (Program.mem_toList program _ _).mpr held, ?_, ?_⟩
        · rwa [here, ← located]
        · rwa [here, ← located, size_linked]
  · intro given
    rcases given with ⟨⟨address, instruction⟩, member, above, below⟩
    obtain ⟨line, operation, found, present, located, same⟩ :=
      (laid.at?_eq_some address instruction).mp ((Program.mem_toList program _ _).mp member)
    refine ⟨⟨addressOf lines instruction.line, instruction.line, line⟩,
      (mem_places lines _).mpr ⟨found, rfl⟩, ?_, ?_⟩
    · rwa [← located]
    · simp only [Line.size, present, Option.map_some, Option.getD_some]
      rwa [← located, ← size_linked lines operation, ← same]

theorem at?_of_next (laid : LaidOut lines program) (address : Word) (index next : Nat)
    (here : address.toNat = addressOf lines index)
    (follows : nextInstruction? lines index = some next) :
    ∃ instruction, program.at? address = some instruction ∧ instruction.line = next := by
  have member := ((nextInstruction?_eq_some lines index next).mp follows).1
  obtain ⟨line, operation, found, present⟩ := (mem_instructionLines lines next).mp member
  obtain ⟨other, there, held⟩ := laid.at?_of_line next line operation found present
  have same : other = address := by
    rw [← UInt32.toNat_inj, there, here, addressOf_nextInstruction lines index next follows]
  exact ⟨_, same ▸ held, rfl⟩

theorem at?_of_end (laid : LaidOut lines program) (address : Word)
    (past : totalSize lines ≤ address.toNat) : program.at? address = none := by
  cases held : program.at? address with
  | none => rfl
  | some instruction =>
      have inside := (laid.covered address.toNat).mpr
        ⟨(address, instruction), (Program.mem_toList program _ _).mpr held, Nat.le_refl _,
          Nat.lt_add_of_pos_right instruction.operation.size_pos⟩
      omega

theorem label_target (laid : LaidOut lines program) (label : String) (address : Word)
    (found : program.labels.lookup label = some address) :
    (program.at? address).isSome ∨ address.toNat = totalSize lines := by
  obtain ⟨place, member, _, here⟩ := (laid.lookup_eq_some label address).mp found
  rw [((mem_places lines place).mp member).2] at here
  cases follows : nextInstruction? lines place.index with
  | some next =>
      obtain ⟨instruction, held, _⟩ := laid.at?_of_next address place.index next here follows
      exact Or.inl (by rw [held]; rfl)
  | none => exact Or.inr (by rw [here, addressOf_noInstruction lines place.index follows])

end LaidOut

/-- Assembling gives each line with an instruction one entry, at the sum of the sizes before it, and
each label the place of its line. The entries lie one behind the other without a gap, labels lie
between them or at the end, and no entry waits for a label. -/
theorem assemble_lays_out_lines (source : String) (program : Program)
    (assembled : assemble source = .ok program) :
    ∃ lines, Reads source lines ∧
      program.toList.map numbered =
        (places lines).filterMap (fun place => place.line.operation.map fun operation =>
          (place.address, ⟨linked lines operation, place.index⟩)) ∧
      (labelsOf lines).Nodup ∧
      (∀ label address, program.labels.lookup label = some address ↔
        ∃ place ∈ places lines, place.line.label = some label ∧ address.toNat = place.address) ∧
      program.toList.Pairwise (fun earlier later =>
        earlier.1.toNat + earlier.2.operation.size ≤ later.1.toNat ∧
          earlier.2.line < later.2.line) ∧
      (∀ position, position < totalSize lines ↔
        ∃ entry ∈ program.toList,
          entry.1.toNat ≤ position ∧ position < entry.1.toNat + entry.2.operation.size) ∧
      (∀ label address, program.labels.lookup label = some address →
        (program.at? address).isSome ∨ address.toNat = totalSize lines) ∧
      (∀ entry ∈ program.toList, entry.2.operation.label? = none) ∧
      ∀ place ∈ places lines, place.line.label.isSome → place.address < 0x100000000 := by
  obtain ⟨lines, read, laid⟩ := assemble_laidOut source program assembled
  refine ⟨lines, read, ?_, labels_distinct program.labels lines laid.labels,
    laid.lookup_eq_some, laid.ordered, laid.covered, laid.label_target, laid.ready,
    fun place member labelled => laid.fits place member (Or.inl labelled)⟩
  rw [laid.instructions, List.map_filterMap]
  congr 1
  funext place
  cases present : place.line.operation <;> simp [Place.instruction?, linkedEntry, present]

def countdown : String := "loop: zjump r0, [end]\n add r0, r0, -1\n jump [loop]\nend:"

def countdownLines : List Line :=
  [⟨some "loop", some (.jumpIfZero .r0 { offset := some (.label "end") })⟩,
    ⟨none, some (.flexible .add .r0 .r0 (.immediate 0xFFFFFFFF))⟩,
    ⟨none, some (.jump { offset := some (.label "loop") })⟩,
    ⟨some "end", none⟩]

theorem reads_countdown : Reads countdown countdownLines :=
  reads_of_toOption countdown countdownLines (by decide +kernel)

theorem assembles_countdown : ∃ program, assemble countdown = .ok program :=
  ⟨_, assembles countdown (by decide +kernel)⟩

theorem laidOut_countdown (program : Program) (assembled : assemble countdown = .ok program) :
    LaidOut countdownLines program := by
  obtain ⟨lines, read, laid⟩ := assemble_laidOut countdown program assembled
  rwa [reads_unique countdown countdownLines lines reads_countdown read]

theorem countdown_laid_out : ∃ program, assemble countdown = .ok program ∧
    program.toList.map numbered =
      [(0, ⟨.jumpIfZero .r0 { offset := some (.value 22) }, 0⟩),
        (8, ⟨.flexible .add .r0 .r0 (.immediate 0xFFFFFFFF), 1⟩),
        (15, ⟨.jump { offset := some (.value 0) }, 2⟩)] := by
  obtain ⟨program, assembled⟩ := assembles_countdown
  obtain ⟨lines, read, listed, _⟩ := assemble_lays_out_lines countdown program assembled
  obtain rfl := reads_unique countdown lines countdownLines read reads_countdown
  exact ⟨program, assembled, listed.trans (by decide +kernel)⟩

end ToyComputer.Assembly
