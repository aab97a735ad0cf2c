import Mathlib.Data.List.Basic
import ToyComputer.Proofs.ProgramLayout
import ToyComputer.Proofs.Tables
import ToyComputer.Proofs.Writing

/-!
Disassembly: the instructions of a program, written one to a line, assemble to the same machine
code.
-/

namespace ToyComputer

def Program.code (program : Program) : List (Word × Operation) :=
  program.toList.map fun entry => (entry.1, entry.2.operation)

/-- The instructions of a program as a source. -/
def Program.disassembly (program : Program) : String :=
  "\n".intercalate (program.toList.map fun entry => entry.2.operation.text)

namespace Assembly

def codeLines (program : Program) : List Line :=
  program.code.map fun entry => ⟨none, some entry.2⟩

end Assembly

namespace Assembly

/-- The instructions of the lines, each on a line of its own, changed in a way that keeps its size.
-/
def compact (change : Operation → Operation) (lines : List Line) : List Line :=
  (lines.filterMap Line.operation).map fun operation => ⟨none, some (change operation)⟩

theorem compact_append (change : Operation → Operation) (lines : List Line) (line : Line) :
    compact change (lines ++ [line]) =
      compact change lines ++
        (line.operation.map fun operation => (⟨none, some (change operation)⟩ : Line)).toList := by
  cases present : line.operation <;> simp [compact, present]

section

variable (change : Operation → Operation)
  (keeps : ∀ operation, (change operation).size = operation.size)

include keeps

theorem totalSize_compact (lines : List Line) :
    totalSize (compact change lines) = totalSize lines := by
  induction lines using List.reverseRecOn with
  | nil => rfl
  | append_singleton lines line ih =>
      rw [compact_append, totalSize_append, totalSize_append, ih]
      cases present : line.operation <;> simp [totalSize, Line.size, present, keeps]

theorem places_compact (lines : List Line) :
    (places (compact change lines)).map (fun place => (place.address, place.line)) =
      (places lines).filterMap fun place => place.line.operation.map fun operation =>
        (place.address, (⟨none, some (change operation)⟩ : Line)) := by
  induction lines using List.reverseRecOn with
  | nil => rfl
  | append_singleton lines line ih =>
      rw [filterMap_places_append, ← ih, compact_append]
      cases present : line.operation with
      | none => simp
      | some operation =>
          simp [places_append_singleton, totalSize_compact change keeps]

end

theorem lines_of_places (lines : List Line) : (places lines).map Place.line = lines := by
  rw [places, List.map_map]
  exact List.zipIdx_map_fst 0 lines

theorem compact_eq_self (change : Operation → Operation) (lines : List Line)
    (alone : ∀ line ∈ lines, ∃ operation, line = ⟨none, some operation⟩ ∧
      change operation = operation) : compact change lines = lines := by
  have same : lines.filterMap (fun line => line.operation.map fun operation =>
      (⟨none, some (change operation)⟩ : Line)) = lines.filterMap some := by
    apply List.filterMap_congr
    intro line member
    obtain ⟨operation, rfl, unchanged⟩ := alone line member
    simp [unchanged]
  rw [compact, List.map_filterMap, same, List.filterMap_some]

theorem writable_withTarget (operation : Operation) (target : Word)
    (writable : operation.Writable) : (operation.withTarget target).Writable := by
  intro address named
  rw [Operation.address?_withTarget] at named
  obtain ⟨before, namedBefore, rfl⟩ := Option.map_eq_some_iff.mp named
  exact ⟨Or.inr (Or.inr rfl), (writable before namedBefore).ordered, nofun⟩

theorem writable_linked (lines : List Line) (operation : Operation)
    (writable : operation.Writable) : (linked lines operation).Writable := by
  unfold linked
  split
  · exact writable
  · exact writable_withTarget operation _ writable

namespace LaidOut

variable {lines : List Line} {program : Program}

theorem places_compact (laid : LaidOut lines program) :
    (places (compact (linked lines) lines)).map (fun place => (place.address, place.line)) =
      program.code.map fun entry => (entry.1.toNat, ⟨none, some entry.2⟩) := by
  have listed := congrArg
    (List.map fun entry => (entry.1, (⟨none, some entry.2.operation⟩ : Line))) laid.instructions
  rw [List.map_map, List.map_map, List.map_filterMap] at listed
  rw [Assembly.places_compact _ (size_linked lines), Program.code, List.map_map]
  refine Eq.trans ?_ listed.symm
  congr 1
  funext place
  cases present : place.line.operation <;> simp [Place.instruction?, present, linkedEntry]

theorem compact_eq (laid : LaidOut lines program) :
    compact (linked lines) lines = codeLines program := by
  have listed := congrArg (List.map Prod.snd) laid.places_compact
  rw [List.map_map, List.map_map] at listed
  calc compact (linked lines) lines
      = (places (compact (linked lines) lines)).map Place.line := (lines_of_places _).symm
    _ = codeLines program := listed

/-- On its own, the code keeps its addresses: its instructions stand without a gap already. -/
theorem places_codeLines (laid : LaidOut lines program) :
    (places (codeLines program)).map (fun place => (place.address, place.line)) =
      program.code.map fun entry => (entry.1.toNat, ⟨none, some entry.2⟩) := by
  rw [← laid.compact_eq]
  exact laid.places_compact

theorem mem_codeLines (laid : LaidOut lines program) (line : Line)
    (member : line ∈ codeLines program) :
    ∃ operation, line = ⟨none, some operation⟩ ∧ operation.label? = none := by
  obtain ⟨_, listed, rfl⟩ := List.mem_map.mp member
  obtain ⟨entry, present, rfl⟩ := List.mem_map.mp listed
  exact ⟨_, rfl, laid.ready entry present⟩

theorem writable (laid : LaidOut lines program) (source : String) (read : Reads source lines) :
    ∀ entry ∈ program.toList, entry.2.operation.Writable := by
  intro entry member
  obtain ⟨line, operation, found, present, _, same⟩ :=
    (laid.at?_eq_some entry.1 entry.2).mp ((Program.mem_toList program _ _).mp member)
  obtain ⟨text, _, readLine⟩ := text_of_line _ lines entry.2.line line read found
  rw [same]
  exact writable_linked lines operation (writable_of_ofString text line operation readLine present)

theorem reads_disassembly (laid : LaidOut lines program) (source : String)
    (read : Reads source lines) : Reads program.disassembly (codeLines program) := by
  have spelled : ∀ entry ∈ program.toList,
      Spells entry.2.operation.text.toList (lineTokens entry.2.operation) := fun entry member =>
    spells_operation _ (laid.writable source read entry member)
  have texts : Text.lines program.disassembly =
      program.toList.map fun entry => entry.2.operation.text := by
    apply Text.lines_intercalate
    · intro member
      obtain ⟨entry, listed, none⟩ := List.mem_map.mp member
      obtain ⟨first, more, letters, _⟩ := (spelled entry listed).begins
      rw [none] at letters
      cases letters
    · intro text member
      obtain ⟨entry, listed, rfl⟩ := List.mem_map.mp member
      exact (spelled entry listed).inline
  rw [Reads, texts, codeLines, Program.code, List.map_map, List.map_map, List.map_map]
  apply List.map_congr_left
  intro entry member
  exact ofString_text _ (laid.writable source read entry member)

theorem fits_codeLines (laid : LaidOut lines program) : Fits (codeLines program) := by
  intro place member _
  have listed := List.mem_map_of_mem (f := fun place => (place.address, place.line)) member
  rw [laid.places_codeLines] at listed
  obtain ⟨entry, _, same⟩ := List.mem_map.mp listed
  obtain ⟨address, _⟩ := Prod.mk.inj same
  rw [← address]
  exact entry.1.toNat_lt

theorem labelsOf_codeLines (laid : LaidOut lines program) : labelsOf (codeLines program) = [] := by
  rw [labelsOf, List.filterMap_eq_nil_iff]
  intro line member
  obtain ⟨operation, rfl, _⟩ := laid.mem_codeLines line member
  rfl

theorem defined_codeLines (laid : LaidOut lines program) : Defined (codeLines program) := by
  intro line member operation present label waits
  obtain ⟨other, rfl, ready⟩ := laid.mem_codeLines line member
  cases present
  rw [ready] at waits
  cases waits

theorem code_eq (laid : LaidOut lines program) (again : Program)
    (laidAgain : LaidOut (codeLines program) again) : again.code = program.code := by
  have alone : compact (linked (codeLines program)) (codeLines program) = codeLines program := by
    apply compact_eq_self
    intro line member
    obtain ⟨operation, same, ready⟩ := laid.mem_codeLines line member
    exact ⟨operation, same, linked_of_no_label _ operation ready⟩
  have same := laidAgain.places_compact
  rw [alone, laid.places_codeLines] at same
  have injective : ∀ one other : Word × Operation,
      (one.1.toNat, (⟨none, some one.2⟩ : Line)) = (other.1.toNat, ⟨none, some other.2⟩) →
        one = other := by
    intro first second equal
    rcases first with ⟨one, operation⟩
    rcases second with ⟨other, _⟩
    obtain ⟨address, line⟩ := Prod.mk.inj equal
    cases line
    obtain rfl : one = other := UInt32.toNat_inj.mp address
    rfl
  exact ((List.map_inj_right injective).mp same).symm

end LaidOut

/-- Disassembling a program and assembling the text again gives the same machine code, without
labels. -/
theorem disassembly_assembles (source : String) (program : Program)
    (assembled : assemble source = .ok program) :
    ∃ again, assemble program.disassembly = .ok again ∧ again.labels.entries = [] ∧
      again.code = program.code := by
  obtain ⟨lines, read, laid⟩ := assemble_laidOut source program assembled
  have readAgain := laid.reads_disassembly source read
  have once : (labelsOf (codeLines program)).Nodup := by
    rw [laid.labelsOf_codeLines]
    exact List.nodup_nil
  obtain ⟨again, assembledAgain⟩ := assemble_succeeds program.disassembly _ readAgain
    laid.fits_codeLines once laid.defined_codeLines
  obtain ⟨others, readOthers, laidAgain⟩ :=
    assemble_laidOut program.disassembly again assembledAgain
  obtain rfl := reads_unique program.disassembly others _ readOthers readAgain
  refine ⟨again, assembledAgain, ?_, laid.code_eq again laidAgain⟩
  have none := names_of_definitions again.labels _ laidAgain.labels
  rw [laid.labelsOf_codeLines, List.reverse_eq_nil_iff] at none
  exact List.map_eq_nil_iff.mp none

theorem countdown_disassembles : ∃ program again, assemble countdown = .ok program ∧
    assemble program.disassembly = .ok again ∧
    again.code.map (fun entry => (entry.1.toNat, entry.2)) =
      [(0, .jumpIfZero .r0 { offset := some (.value 22) }),
        (8, .flexible .add .r0 .r0 (.immediate 0xFFFFFFFF)),
        (15, .jump { offset := some (.value 0) })] := by
  obtain ⟨program, assembled⟩ := assembles_countdown
  obtain ⟨again, assembledAgain, _, same⟩ := disassembly_assembles countdown program assembled
  have laid := laidOut_countdown program assembled
  have listed := congrArg (List.map fun entry => (entry.1, entry.2.operation)) laid.instructions
  rw [List.map_map, List.map_map] at listed
  refine ⟨program, again, assembled, assembledAgain, ?_⟩
  rw [same, Program.code, List.map_map]
  exact listed.trans (by decide +kernel)

end Assembly

end ToyComputer
