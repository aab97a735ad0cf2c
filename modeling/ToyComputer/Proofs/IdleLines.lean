import ToyComputer.Proofs.Events
import ToyComputer.Proofs.LineEnds

/-!
Idle lines: lines with nothing but blanks and a comment may stand anywhere in a source. The program
that it becomes only names other lines, and the lines that its instructions come from are never looked
at while it runs.
-/

namespace ToyComputer

section

variable (place : Nat → Nat)

def Instruction.move (instruction : Instruction) : Instruction :=
  { instruction with line := place instruction.line }

def AssemblyError.move (error : AssemblyError) : AssemblyError :=
  { error with line := place error.line }

def moveEntry (entry : Word × Instruction) : Word × Instruction := (entry.1, entry.2.move place)

namespace Program

def move (program : Program) : Program :=
  ofList (program.toList.map (moveEntry place)) program.labels

theorem toList_ascending (program : Program) :
    program.toList.Pairwise fun earlier later => earlier.1 < later.1 :=
  (Std.TreeMap.ordered_keys_toList (t := program.instructions)).imp Std.compare_eq_lt.mp

theorem toList_move (program : Program) :
    (program.move place).toList = program.toList.map (moveEntry place) :=
  toList_ofList _ _ (List.pairwise_map.mpr program.toList_ascending)

theorem at?_move (program : Program) (address : Word) :
    (program.move place).at? address = (program.at? address).map (Instruction.move place) := by
  ext instruction
  rw [Option.map_eq_some_iff, ← mem_toList, toList_move, List.mem_map]
  constructor
  · rintro ⟨⟨there, found⟩, member, same⟩
    cases same
    exact ⟨found, (mem_toList program _ _).mp member, rfl⟩
  · rintro ⟨found, held, rfl⟩
    exact ⟨(address, found), (mem_toList program _ _).mpr held, rfl⟩

theorem move_ofList (entries : List (Word × Instruction)) (labels : LabelTable)
    (ascending : entries.Pairwise fun earlier later => earlier.1 < later.1) :
    (ofList entries labels).move place = ofList (entries.map (moveEntry place)) labels := by
  rw [move, toList_ofList entries labels ascending]
  rfl

end Program

namespace Machine

variable (machine : Machine)

def move : Machine := { machine with program := machine.program.move place }

theorem instruction?_move :
    (machine.move place).instruction? = machine.instruction?.map (Instruction.move place) :=
  machine.program.at?_move place machine.registers.pc

theorem perform_move (next : Word) (operation : Operation) :
    (machine.move place).perform next operation = machine.perform next operation := by
  cases operation <;> rfl

theorem step_move :
    (machine.move place).step = (machine.step.1, machine.step.2.move place) := by
  have found := machine.instruction?_move place
  rcases machine.step_cases with ⟨none, same⟩ |
    ⟨instruction, fault, memory, present, performed, same⟩ |
    ⟨instruction, effect, memory, present, performed, same⟩
  · rw [none, Option.map_none] at found
    rw [same]
    simp only [step, found]
  · rw [present, Option.map_some] at found
    rw [same]
    exact step_of_fault _ _ memory found fault ((machine.perform_move place _ _).trans performed)
  · rw [present, Option.map_some] at found
    rw [same]
    exact step_of_effect _ _ memory found effect ((machine.perform_move place _ _).trans performed)

theorem react_move (event : Event) :
    (machine.move place).react event =
      ((machine.react event).1, (machine.react event).2.move place) := by
  cases event with
  | key key => rfl
  | step => simp only [react, step_move]

end Machine

namespace Assembly

variable (layout : Layout) (text : String) (index : Nat)

def Layout.move : Layout := { layout with placed := layout.placed.map (moveEntry place) }

def moveResult {α : Type} (change : α → α) (result : Except AssemblyError α) :
    Except AssemblyError α :=
  (result.map change).mapError (AssemblyError.move place)

theorem addLabel_move (label : Option String) :
    (layout.move place).addLabel label = (layout.addLabel label).map (Layout.move place) := by
  cases label with
  | none => rfl
  | some label =>
      simp only [Layout.addLabel, Layout.move]
      cases placement layout.next with
      | error error => rfl
      | ok address => simp only; cases layout.labels.define label address <;> rfl

theorem addOperation_move (operation : Option Operation) :
    (layout.move place).addOperation (place index) operation =
      (layout.addOperation index operation).map (Layout.move place) := by
  cases operation with
  | none => rfl
  | some operation =>
      simp only [Layout.addOperation, Layout.move]
      cases placement layout.next with
      | error error => rfl
      | ok address =>
          simp only [Except.map, Layout.move, Array.map_push]
          rfl

theorem addLine_move :
    (layout.move place).addLine text (place index) =
      (layout.addLine text index).map (Layout.move place) := by
  unfold Layout.addLine
  cases Line.ofString text with
  | error error => rfl
  | ok line =>
      simp only [addLabel_move]
      cases layout.addLabel line.label with
      | error error => rfl
      | ok labelled => exact addOperation_move place labelled index line.operation

theorem link_move (labels : LabelTable) (instruction : Instruction) :
    link labels (instruction.move place) =
      moveResult place (Instruction.move place) (link labels instruction) := by
  rw [link_eq, link_eq]
  have same : (instruction.move place).operation = instruction.operation := rfl
  rw [same]
  cases instruction.operation.label? with
  | none => rfl
  | some label => simp only; cases labels.lookup label <;> rfl

theorem linkAll_move (labels : LabelTable) (placed : List (Word × Instruction)) :
    linkAll labels (placed.map (moveEntry place)) =
      moveResult place (List.map (moveEntry place)) (linkAll labels placed) := by
  induction placed with
  | nil => rfl
  | cons entry rest ih =>
      obtain ⟨address, instruction⟩ := entry
      rw [List.map_cons, moveEntry, linkAll_cons, linkAll_cons, link_move, ih]
      cases link labels instruction with
      | error error => rfl
      | ok linked => cases linkAll labels rest <;> rfl

end Assembly

end

namespace Assembly

open Text

/-- The lines of the rows, each behind the lines that are put before it. -/
def spread (rows : List (List String × String)) : List String :=
  rows.flatMap fun row => row.1 ++ [row.2]

/-- Where a line of the rows is, behind all the lines that are put before it. -/
def spreadIndex (rows : List (List String × String)) (index : Nat) : Nat :=
  index + ((rows.take (index + 1)).flatMap Prod.fst).length

variable (rows : List (List String × String)) (row : List String × String)

theorem spread_append : spread (rows ++ [row]) = spread rows ++ row.1 ++ [row.2] := by
  simp [spread]

theorem length_spread : (spread rows).length = rows.length + (rows.flatMap Prod.fst).length := by
  induction rows using List.reverseRecOn with
  | nil => rfl
  | append_singleton rows row ih =>
      simp only [spread_append, List.length_append, ih, List.flatMap_append, List.length_singleton,
        List.flatMap_singleton]
      omega

theorem spreadIndex_append (index : Nat) (inside : index < rows.length) :
    spreadIndex (rows ++ [row]) index = spreadIndex rows index := by
  rw [spreadIndex, List.take_append_of_le_length inside, spreadIndex]

theorem spreadIndex_last :
    spreadIndex (rows ++ [row]) rows.length = (spread rows ++ row.1).length := by
  have whole : (rows ++ [row]).take (rows.length + 1) = rows ++ [row] :=
    List.take_of_length_le (by simp)
  rw [spreadIndex, whole, List.flatMap_append, List.flatMap_singleton, List.length_append,
    List.length_append, length_spread]
  omega

theorem spreadIndex_lt (index : Nat) (inside : index < rows.length) :
    spreadIndex rows index < (spread rows).length := by
  have split : rows.flatMap Prod.fst =
      (rows.take (index + 1)).flatMap Prod.fst ++ (rows.drop (index + 1)).flatMap Prod.fst := by
    rw [← List.flatMap_append, List.take_append_drop]
  rw [spreadIndex, length_spread, split, List.length_append]
  omega

theorem getElem?_spread (index : Nat) (inside : index < rows.length) :
    (spread rows)[spreadIndex rows index]? = (rows.map Prod.snd)[index]? := by
  induction rows using List.reverseRecOn with
  | nil => exact absurd inside (Nat.not_lt_zero index)
  | append_singleton rows row ih =>
      rw [spread_append, List.map_append]
      rcases Nat.lt_or_ge index rows.length with early | late
      · rw [spreadIndex_append rows row index early, List.append_assoc,
          List.getElem?_append_left (spreadIndex_lt rows index early), ih early,
          List.getElem?_append_left (by rwa [List.length_map])]
      · obtain rfl : index = rows.length := by
          rw [List.length_append, List.length_singleton] at inside
          omega
        have last : (rows.map Prod.snd ++ [row.2])[rows.length]? = some row.2 := by
          simp
        rw [spreadIndex_last, List.getElem?_concat_length]
        exact last.symm

theorem ofLines_append_idles (lines gap : List String) (idle : ∀ text ∈ gap, Idle text) :
    Layout.ofLines (lines ++ gap) = Layout.ofLines lines := by
  induction gap using List.reverseRecOn with
  | nil => rw [List.append_nil]
  | append_singleton gap text ih =>
      rw [← List.append_assoc,
        ofLines_append_idle _ text (idle text (List.mem_append_right _ (List.mem_singleton_self _))),
        ih fun other member => idle other (List.mem_append_left _ member)]

/-- Laying out the spread lines is laying out the lines, except for their numbers. The numbers are given
by `place`, which stays the same while rows are added. -/
theorem ofLines_spread (place : Nat → Nat) (idle : ∀ row ∈ rows, ∀ text ∈ row.1, Idle text)
    (agrees : ∀ index < rows.length, place index = spreadIndex rows index) :
    Layout.ofLines (spread rows) =
      moveResult place (Layout.move place) (Layout.ofLines (rows.map Prod.snd)) := by
  induction rows using List.reverseRecOn with
  | nil =>
      change Except.ok _ = Except.ok (Layout.move place {})
      rw [Layout.move, Array.map_empty]
  | append_singleton rows row ih =>
      have earlier := ih (fun other member => idle other (List.mem_append_left _ member))
        fun index inside => by
          rw [agrees index (by rw [List.length_append]; omega),
            spreadIndex_append rows row index inside]
      have here : place rows.length = (spread rows ++ row.1).length := by
        rw [agrees rows.length (by simp), spreadIndex_last]
      have blank := idle row (List.mem_append_right _ (List.mem_singleton_self row))
      rw [spread_append, List.map_append, List.map_singleton, ofLines_append, ofLines_append,
        ofLines_append_idles _ _ blank, earlier, ← here, List.length_map]
      cases Layout.ofLines (rows.map Prod.snd) with
      | error error => rfl
      | ok layout =>
          -- Both lines are added to the same layout, each under its own number.
          have added := addLine_move place layout row.2 rows.length
          simp only [moveResult, Except.map, Except.mapError, added]
          cases layout.addLine row.2 rows.length <;> rfl

theorem entries_ascend (lines : List String) (layout : Layout)
    (entries : List (Word × Instruction)) (laid : Layout.ofLines lines = .ok layout)
    (done : linkAll layout.labels layout.placed.toList = .ok entries) :
    entries.Pairwise fun earlier later => earlier.1 < later.1 := by
  obtain ⟨read, _, follows⟩ := ofLines_follows lines layout laid
  exact entries_ascending read entries (linkAll_entries layout read follows entries done)

theorem assembleLines_spread (last : List String)
    (idle : ∀ row ∈ rows, ∀ text ∈ row.1, Idle text) (idleLast : ∀ text ∈ last, Idle text) :
    assembleLines (spread rows ++ last) =
      moveResult (spreadIndex rows) (Program.move (spreadIndex rows))
        (assembleLines (rows.map Prod.snd)) := by
  rw [assembleLines, assembleLines, ofLines_append_idles _ last idleLast,
    ofLines_spread rows (spreadIndex rows) idle fun _ _ => rfl]
  cases laid : Layout.ofLines (rows.map Prod.snd) with
  | error error => rfl
  | ok layout =>
      have linked := linkAll_move (spreadIndex rows) layout.labels layout.placed.toList
      rw [← Array.toList_map] at linked
      simp only [moveResult, Except.map, Except.mapError, Layout.move, linked]
      cases done : linkAll layout.labels layout.placed.toList with
      | error error => rfl
      | ok entries =>
          have moved := Program.move_ofList (spreadIndex rows) entries layout.labels
            (entries_ascend _ layout entries laid done)
          simp only [moved]

theorem line_inside (lines : List String) (source : String) (program : Program)
    (written : Written lines source) (assembled : assemble source = .ok program)
    (entry : Word × Instruction) (member : entry ∈ program.toList) :
    entry.2.line < lines.length := by
  obtain ⟨read, reads, laid⟩ := assemble_laidOut source program assembled
  obtain ⟨_, _, there, _⟩ :=
    (laid.at?_eq_some _ _).mp ((Program.mem_toList program entry.1 entry.2).mp member)
  obtain ⟨inside, _⟩ := List.getElem?_eq_some_iff.mp there
  have length : (Text.lines source).length = read.length := by
    simpa using congrArg List.length reads
  have short := length_lines_le lines source written
  omega

/-- Lines with nothing on them may be put anywhere into a source. What it assembles to has the same
operations at the same addresses and the same labels, and each operation comes from the same line,
where that is now. It takes the same steps, whatever keys are typed in between. -/
theorem idle_lines_inert (last : List String) (source extended : String) (program : Program)
    (idle : ∀ row ∈ rows, ∀ text ∈ row.1, Trails text.toList)
    (idleLast : ∀ text ∈ last, Trails text.toList) (one : Written (rows.map Prod.snd) source)
    (other : Written (spread rows ++ last) extended) (assembled : assemble source = .ok program) :
    ∃ moved, assemble extended = .ok moved ∧ moved.labels = program.labels ∧
      moved.toList = program.toList.map (fun entry =>
        (entry.1, ⟨entry.2.operation, spreadIndex rows entry.2.line⟩)) ∧
      (∀ entry ∈ program.toList, entry.2.line < rows.length) ∧
      (∀ index < rows.length,
        (spread rows ++ last)[spreadIndex rows index]? = (rows.map Prod.snd)[index]?) ∧
      ∀ events : List Event,
        let ran := callAll Machine.react (Machine.start program) events
        let again := callAll Machine.react (Machine.start moved) events
        again.1 = ran.1 ∧ again.2.registers = ran.2.registers ∧
          again.2.overflow = ran.2.overflow ∧ again.2.memory = ran.2.memory := by
  have lines : assembleLines (rows.map Prod.snd) = .ok program := by
    rw [← assemble_written _ _ one, assembled]
  refine ⟨program.move (spreadIndex rows), ?_, rfl, program.toList_move _, ?_, ?_, ?_⟩
  · rw [assemble_written _ _ other, assembleLines_spread rows last
      (fun row member text given => idle_of_trails text (idle row member text given))
      (fun text given => idle_of_trails text (idleLast text given)), lines]
    rfl
  · intro entry member
    simpa using line_inside (rows.map Prod.snd) source program one assembled entry member
  · intro index inside
    rw [List.getElem?_append_left (spreadIndex_lt rows index inside),
      getElem?_spread rows index inside]
  · intro events ran again
    have same := callAll_view Machine.react (Machine.move (spreadIndex rows)) Machine.react
      (fun machine event => machine.react_move _ event) (Machine.start program) events
    have moved : again = (ran.1, ran.2.move (spreadIndex rows)) := same
    rw [moved]
    exact ⟨rfl, rfl, rfl, rfl⟩

theorem idle_lines_between : ∃ moved,
    assemble "# start\n\na: copy r0, 1\n  # on\njump [a]\n\t" = .ok moved ∧
      moved.toList = [(0, ⟨.copy .r0 (.immediate 1), 2⟩),
        (6, ⟨.jump { offset := some (.value 0) }, 4⟩)] ∧
      (callAll Machine.react (Machine.start moved) [.step, .key 7, .step]).2.registers.get .r0 = 1 := by
  have one : Written ["a: copy r0, 1", "jump [a]"] "a: copy r0, 1\njump [a]" :=
    .line _ .feed (by decide) (.last _ (by decide))
  have other : Written ["# start", "", "a: copy r0, 1", "  # on", "jump [a]", "\t"]
      "# start\n\na: copy r0, 1\n  # on\njump [a]\n\t" :=
    .line _ .feed (by decide) (.line _ .feed (by decide) (.line _ .feed (by decide)
      (.line _ .feed (by decide) (.line _ .feed (by decide) (.last _ (by decide))))))
  have assembled := assembles "a: copy r0, 1\njump [a]" (by decide +kernel)
  have idle : ∀ row ∈ [(["# start", ""], "a: copy r0, 1"), (["  # on"], "jump [a]")],
      ∀ text ∈ row.1, Trails text.toList := by
    simp only [List.forall_mem_cons, List.not_mem_nil, false_imp_iff, implies_true, and_true]
    exact ⟨⟨.comment _, .nil⟩, .blank ' ' _ rfl (.blank ' ' _ rfl (.comment _))⟩
  have idleLast : ∀ text ∈ ["\t"], Trails text.toList := by
    simp only [List.forall_mem_cons, List.not_mem_nil, false_imp_iff, implies_true, and_true]
    exact .blank '\t' _ rfl .nil
  obtain ⟨moved, again, _, listed, _, _, runs⟩ :=
    idle_lines_inert _ _ _ _ _ idle idleLast one other assembled
  obtain ⟨_, registers, _⟩ := runs [.step, .key 7, .step]
  refine ⟨moved, again, ?_, ?_⟩
  · rw [listed]
    decide +kernel
  · rw [registers]
    decide +kernel

end Assembly

end ToyComputer
