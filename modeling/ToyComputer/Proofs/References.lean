import ToyComputer.Proofs.Disassembly
import ToyComputer.Proofs.Mistakes
import ToyComputer.Proofs.Trailing

/-!
References: a jump written behind a source finds the labels of the source. Brackets read the names of
registers first and refuse the program counter, so a label of such a name is out of reach.
-/

namespace ToyComputer

namespace Text

theorem linesFrom_newline (line text more : List Char) :
    linesFrom line (text ++ '\n' :: more) = linesFrom line (text ++ ['\n']) ++ linesFrom [] more := by
  induction text generalizing line with
  | nil => simp [linesFrom]
  | cons c text ih =>
      simp only [List.cons_append, linesFrom]
      split
      · rw [ih, List.cons_append]
      · exact ih (c :: line)

end Text

namespace Assembly

open Text

theorem ofString_dropCarriageReturn (line : List Char) :
    Line.ofString (String.ofList (dropCarriageReturn line).reverse) =
      Line.ofString (String.ofList line.reverse) := by
  unfold dropCarriageReturn
  split
  · next line =>
      rw [List.reverse_cons, ofString_trailing _ _ (.blank '\r' [] rfl .nil)]
  · rfl

theorem read_newline (line text : List Char) :
    ∃ blanks : List Line, (∀ blank ∈ blanks, blank = ⟨none, none⟩) ∧
      (linesFrom line (text ++ ['\n'])).map (Line.ofString ∘ String.ofList) =
        (linesFrom line text).map (Line.ofString ∘ String.ofList) ++ blanks.map .ok := by
  induction text generalizing line with
  | nil =>
      have ended : linesFrom line ([] ++ ['\n']) = [(dropCarriageReturn line).reverse] := rfl
      rw [ended, linesFrom, List.map_singleton, Function.comp_apply,
        ofString_dropCarriageReturn line]
      cases line with
      | nil => exact ⟨[⟨none, none⟩], by simp, by decide +kernel⟩
      | cons c line => exact ⟨[], by simp, rfl⟩
  | cons c text ih =>
      simp only [List.cons_append, linesFrom]
      split
      · obtain ⟨blanks, blank, same⟩ := ih []
        exact ⟨blanks, blank, by rw [List.map_cons, same]; rfl⟩
      · exact ih (c :: line)

theorem reads_append (source text : String) (lines : List Line) (line : Line)
    (reads : Reads source lines) (alone : Text.lines text = [text])
    (read : Line.ofString text = .ok line) :
    ∃ blanks : List Line, (∀ blank ∈ blanks, blank = ⟨none, none⟩) ∧
      Reads (source ++ "\n" ++ text) (lines ++ blanks ++ [line]) := by
  obtain ⟨blanks, blank, ended⟩ := read_newline [] source.toList
  refine ⟨blanks, blank, ?_⟩
  have split : (source ++ "\n" ++ text).toList = source.toList ++ '\n' :: text.toList := by
    simp [String.toList_append]
  have last : (linesFrom [] text.toList).map String.ofList = [text] := alone
  unfold Reads Text.lines at reads ⊢
  rw [split, linesFrom_newline, List.map_append, last, List.map_append, List.map_map, ended,
    ← List.map_map, reads, List.map_singleton, read, List.map_append, List.map_append,
    List.map_singleton]

theorem LaidOut.defined {lines : List Line} {program : Program} (laid : LaidOut lines program) :
    Defined lines := by
  intro line member operation present label waits
  obtain ⟨index, found⟩ := List.mem_iff_getElem?.mp member
  obtain ⟨address, _, held⟩ := laid.at?_of_line index line operation found present
  have ready : (linked lines operation).label? = none :=
    laid.ready _ ((Program.mem_toList program _ _).mpr held)
  cases defined : definingPlace? lines label with
  | none =>
      rw [linked, waits, Option.bind_some, defined, waits] at ready
      cases ready
  | some place =>
      have listed := List.mem_of_find?_eq_some defined
      have named : place.line.label = some label := by simpa using List.find?_some defined
      have there := List.mem_of_getElem? ((mem_places lines place).mp listed).1
      exact List.mem_filterMap.mpr ⟨place.line, there, named⟩

/-- What an operation refers to may be defined on any line before it. -/
theorem assembles_append (source : String) (front : List Line) (operation : Operation)
    (once : (labelsOf front).Nodup) (defined : Defined front)
    (small : totalSize front < 0x100000000)
    (refers : ∀ label, operation.label? = some label → label ∈ labelsOf front)
    (reads : Reads source (front ++ [⟨none, some operation⟩])) :
    ∃ program, assemble source = .ok program ∧
      LaidOut (front ++ [⟨none, some operation⟩]) program := by
  have labels : labelsOf (front ++ [⟨none, some operation⟩]) = labelsOf front := by
    simp [labelsOf, List.filterMap_append]
  have fits : Fits (front ++ [⟨none, some operation⟩]) := by
    intro place member _
    rw [places_append_singleton, List.mem_append, List.mem_singleton] at member
    rcases member with early | rfl
    · have := address_le_totalSize front place early
      omega
    · exact small
  have complete : Defined (front ++ [⟨none, some operation⟩]) := by
    intro line member other present label waits
    rw [labels]
    rcases List.mem_append.mp member with early | last
    · exact defined line early other present label waits
    · obtain rfl := List.mem_singleton.mp last
      cases present
      exact refers label waits
  obtain ⟨program, assembled⟩ := assemble_succeeds source _ reads fits (labels ▸ once) complete
  obtain ⟨others, readAgain, laid⟩ := assemble_laidOut source program assembled
  obtain rfl := reads_unique source others _ readAgain reads
  exact ⟨program, assembled, laid⟩

theorem LaidOut.getLast? {front : List Line} {operation : Operation} {program : Program}
    (laid : LaidOut (front ++ [⟨none, some operation⟩]) program) :
    ∃ address, program.toList.getLast? =
      some (address, ⟨linked (front ++ [⟨none, some operation⟩]) operation, front.length⟩) := by
  have last := congrArg List.getLast? laid.instructions
  rw [filterMap_places_append, List.map_append, List.getLast?_map] at last
  simp only [Place.instruction?, Option.map_some, Option.toList_some, List.map_singleton,
    List.getLast?_append, List.getLast?_singleton, Option.some_or, Option.map_eq_some_iff] at last
  obtain ⟨⟨address, instruction⟩, found, same⟩ := last
  refine ⟨address, ?_⟩
  rw [found, show instruction = _ from congrArg Prod.snd same]
  rfl

section

variable (lines blanks : List Line) (blank : ∀ line ∈ blanks, line = ⟨none, none⟩)

include blank

theorem labelsOf_append_blanks : labelsOf (lines ++ blanks) = labelsOf lines := by
  have none : blanks.filterMap Line.label = [] :=
    List.filterMap_eq_nil_iff.mpr fun line member => by rw [blank line member]
  rw [labelsOf, List.filterMap_append, none, List.append_nil, labelsOf]

theorem totalSize_append_blanks : totalSize (lines ++ blanks) = totalSize lines := by
  have none : totalSize blanks = 0 := by
    induction blanks with
    | nil => rfl
    | cons line blanks ih =>
        rw [totalSize_cons, blank line List.mem_cons_self,
          ih fun line member => blank line (List.mem_cons_of_mem _ member)]
        rfl
  rw [totalSize_append, none, Nat.add_zero]

theorem defined_append_blanks (defined : Defined lines) : Defined (lines ++ blanks) := by
  intro line member operation present label waits
  rw [labelsOf_append_blanks lines blanks blank]
  rcases List.mem_append.mp member with early | late
  · exact defined line early operation present label waits
  · rw [blank line late] at present
    cases present

end

/-- A jump to the label, written behind the source, ends up as a jump to the address. -/
def Referable (source label : String) (target : Word) : Prop :=
  ∃ program address line, assemble (source ++ "\n" ++ ("jump [" ++ label ++ "]")) = .ok program ∧
    program.toList.getLast? = some (address, ⟨.jump { offset := some (.value target) }, line⟩)

theorem reads_jump (label : String) (legal : IsLabel label) :
    Text.lines ("jump [" ++ label ++ "]") = ["jump [" ++ label ++ "]"] ∧
      Line.ofString ("jump [" ++ label ++ "]") =
        .ok ⟨none, some (.jump { offset := some (.label label) })⟩ := by
  have written : (Operation.jump { offset := some (.label label) }).text =
      "jump [" ++ label ++ "]" := by
    rw [← String.toList_inj]
    simp [Operation.text, Operation.operands, Operation.opcode, Opcode.mnemonic, Operand.text,
      Addressing.text, Addressing.parts, Offset.text]
  have writable : (Operation.jump { offset := some (.label label) }).Writable := by
    intro address named
    cases named
    constructor
    · exact Or.inr (Or.inr rfl)
    · intro second
      cases second
    · intro other waits
      cases waits
      exact legal
  have read := ofString_text _ writable
  have spelled := spells_operation _ writable
  rw [written] at read spelled
  refine ⟨?_, read⟩
  have whole : "\n".intercalate ["jump [" ++ label ++ "]"] = "jump [" ++ label ++ "]" := by
    rw [← String.toList_inj, String.toList_intercalate]
    simp [List.intercalate_singleton]
  rw [← whole, Text.lines_intercalate, whole]
  · simp
  · intro text member
    rw [List.mem_singleton.mp member]
    exact spelled.inline

/-- Every label of a source that assembles can be referred to behind it, unless brackets take its name
for a register or for the program counter. -/
theorem defined_label_is_referable (source label : String) (program : Program) (target : Word)
    (assembled : assemble source = .ok program)
    (small : totalSize (readable (Text.lines source)) ≤ 0x100000000 - 7)
    (found : program.labels.lookup label = some target) (noCounter : label ≠ "pc")
    (noRegister : Register.ofName? label = none) : Referable source label target := by
  obtain ⟨lines, reads, laid⟩ := assemble_laidOut source program assembled
  rw [readable_eq _ lines reads] at small
  obtain ⟨place, member, named, here⟩ := (laid.lookup_eq_some label target).mp found
  have defines : label ∈ labelsOf lines :=
    List.mem_filterMap.mpr ⟨place.line, List.mem_of_getElem? ((mem_places _ _).mp member).1, named⟩
  have legal : IsLabel label := by
    obtain ⟨text, _, line, parsed, definesIt⟩ := (defines_iff _ lines reads label).mpr defines
    exact ⟨isName_of_label text line label parsed definesIt, noCounter, noRegister⟩
  obtain ⟨alone, read⟩ := reads_jump label legal
  obtain ⟨blanks, blank, readsMore⟩ := reads_append source _ lines _ reads alone read
  have labels := labelsOf_append_blanks lines blanks blank
  have once : (labelsOf (lines ++ blanks)).Nodup := by
    rw [labels]
    exact labels_distinct program.labels lines laid.labels
  have fits : totalSize (lines ++ blanks) < 0x100000000 := by
    rw [totalSize_append_blanks lines blanks blank]
    omega
  have refers : ∀ name, (Operation.jump { offset := some (.label label) }).label? = some name →
      name ∈ labelsOf (lines ++ blanks) := by
    intro name waits
    cases waits
    rw [labels]
    exact defines
  obtain ⟨extended, assembledMore, laidMore⟩ := assembles_append _ (lines ++ blanks) _ once
    (defined_append_blanks lines blanks blank laid.defined) fits refers readsMore
  obtain ⟨address, last⟩ := laidMore.getLast?
  have earlier := mem_places_append lines blanks place member
  have distinct := labels_distinct extended.labels _ laidMore.labels
  refine ⟨extended, address, (lines ++ blanks).length, assembledMore, last.trans ?_⟩
  rw [linked_of_label _ distinct _ label place rfl (mem_places_append _ _ place earlier) named,
    ← here, UInt32.ofNat_toNat]
  rfl

def namesRegisters : String := "r0: return\npc: return\nlast:"

theorem namesRegisters_last_referable : Referable namesRegisters "last" 2 := by
  have assembled := assembles namesRegisters (by decide +kernel)
  exact defined_label_is_referable namesRegisters "last" _ 2 assembled (by decide +kernel)
    (by decide +kernel) (by decide) (by decide +kernel)

/-- A jump to `r0` goes where the register points, and one to `pc` is an error. -/
theorem register_names_are_not_referable :
    ∃ program, assemble namesRegisters = .ok program ∧
      totalSize (readable (Text.lines namesRegisters)) ≤ 0x100000000 - 7 ∧
      (program.labels.lookup "r0" = some 0 ∧ ¬ Referable namesRegisters "r0" 0) ∧
      (program.labels.lookup "pc" = some 1 ∧ ¬ Referable namesRegisters "pc" 1) := by
  refine ⟨_, assembles namesRegisters (by decide +kernel), by decide +kernel,
    ⟨by decide +kernel, ?_⟩, by decide +kernel, ?_⟩
  · rintro ⟨program, address, line, assembled, last⟩
    have read : ((assemble (namesRegisters ++ "\n" ++ ("jump [" ++ "r0" ++ "]"))).toOption.bind
        fun program => program.toList.getLast?.map fun entry => entry.2.operation) =
        some (.jump { base := some .r0 }) := by decide +kernel
    rw [assembled] at read
    simp only [Except.toOption, Option.bind_some, last, Option.map_some] at read
    cases read
  · rintro ⟨program, address, line, assembled, last⟩
    have failed : (assemble (namesRegisters ++ "\n" ++ ("jump [" ++ "pc" ++ "]"))).isOk = false := by
      decide +kernel
    rw [assembled] at failed
    cases failed

end Assembly

end ToyComputer
