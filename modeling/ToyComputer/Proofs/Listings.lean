import ToyComputer.Proofs.Disassembly
import ToyComputer.Proofs.Streaming

/-!
Listings: a listing has a row for each instruction and for each label, in an order that only the
program decides.
-/

namespace ToyComputer

open Assembly Text

namespace Text

theorem namePart_ascii (c : Char) (part : isNamePart c = true) : c.val ≤ 127 := by
  rcases Bool.or_eq_true_iff.mp part with alphanumeric | underscore
  · rcases Bool.or_eq_true_iff.mp alphanumeric with letter | digit
    · rcases Bool.or_eq_true_iff.mp letter with upper | lower
      · exact UInt32.le_trans (of_decide_eq_true upper).2 (by decide)
      · exact UInt32.le_trans (of_decide_eq_true (Bool.and_eq_true_iff.mp lower).2) (by decide)
    · exact UInt32.le_trans (of_decide_eq_true (Bool.and_eq_true_iff.mp digit).2) (by decide)
  · rw [beq_iff_eq.mp underscore]
    decide

def bytes (text : String) : List UInt8 := text.toUTF8.data.toList

theorem bytes_ascii (letters : List Char) (ascii : ∀ c ∈ letters, c.val ≤ 127) :
    bytes (String.ofList letters) = letters.map fun c => c.val.toUInt8 := by
  rw [bytes, String.toUTF8_eq_toByteArray, String.toByteArray_ofList]
  induction letters with
  | nil => rfl
  | cons c letters ih =>
      obtain ⟨small, others⟩ := List.forall_mem_cons.mp ascii
      rw [List.utf8Encode_cons, List.utf8Encode_singleton,
        String.utf8EncodeChar_eq_singleton (Char.utf8Size_eq_one_iff.mpr small),
        ByteArray.data_append, Array.toList_append, ih others]
      rfl

theorem map_byte_lt (front back : List Char) (ascii : ∀ c ∈ front ++ back, c.val ≤ 127)
    (less : front < back) :
    (front.map fun c => c.val.toUInt8) < back.map fun c => c.val.toUInt8 := by
  induction front generalizing back with
  | nil =>
      cases back with
      | nil => exact absurd less (List.lt_irrefl [])
      | cons c back => exact List.nil_lt_cons _ _
  | cons c front ih =>
      cases back with
      | nil => cases less
      | cons d back =>
          rw [List.map_cons, List.map_cons, List.cons_lt_cons_iff]
          rcases List.cons_lt_cons_iff.mp less with first | ⟨rfl, later⟩
          · left
            -- Below 128 nothing is cut off by taking the byte.
            have small := ascii d (by simp)
            rw [Char.lt_def, UInt32.lt_iff_toNat_lt] at first
            rw [UInt32.le_iff_toNat_le] at small
            rw [UInt8.lt_iff_toNat_lt, UInt32.toNat_toUInt8, UInt32.toNat_toUInt8]
            change d.val.toNat ≤ 127 at small
            omega
          · right
            refine ⟨rfl, ih back (fun e member => ascii e ?_) later⟩
            rcases List.mem_append.mp member with early | late
            · simp [early]
            · simp [late]

theorem bytes_lt (a b : String) (namedA : isName a = true) (namedB : isName b = true)
    (less : a < b) : bytes a < bytes b := by
  have ascii (name : String) (named : isName name = true) :
      ∀ c ∈ name.toList, c.val ≤ 127 := by
    obtain ⟨first, more, letters, _, each⟩ := (isName_iff name).mp named
    rw [letters]
    exact fun c member => namePart_ascii c (each c member)
  have ordered := map_byte_lt a.toList b.toList
    (List.forall_mem_append.mpr ⟨ascii a namedA, ascii b namedB⟩) (String.lt_iff.mp less)
  rwa [← bytes_ascii _ (ascii a namedA), ← bytes_ascii _ (ascii b namedB), String.ofList_toList,
    String.ofList_toList] at ordered

end Text

namespace LabelTable

theorem precedes_iff (a b : String × Word) :
    precedes a b = true ↔ a.2 < b.2 ∨ a.2 = b.2 ∧ a.1 ≤ b.1 := by
  simp [precedes]

theorem precedes_trans (a b c : String × Word) (first : precedes a b = true)
    (second : precedes b c = true) : precedes a c = true := by
  rw [precedes_iff] at first second ⊢
  rcases first with less | ⟨same, before⟩
  · rcases second with more | ⟨same, _⟩
    · exact Or.inl (UInt32.lt_trans less more)
    · exact Or.inl (same ▸ less)
  · rcases second with more | ⟨equal, after⟩
    · exact Or.inl (same ▸ more)
    · exact Or.inr ⟨same.trans equal, String.le_trans before after⟩

theorem precedes_total (a b : String × Word) : (precedes a b || precedes b a) = true := by
  rw [Bool.or_eq_true, precedes_iff, precedes_iff]
  rcases Nat.lt_trichotomy a.2.toNat b.2.toNat with less | same | more
  · exact Or.inl (Or.inl (UInt32.lt_iff_toNat_lt.mpr less))
  · have same := UInt32.toNat_inj.mp same
    rcases String.le_total a.1 b.1 with before | after
    · exact Or.inl (Or.inr ⟨same, before⟩)
    · exact Or.inr (Or.inr ⟨same.symm, after⟩)
  · exact Or.inr (Or.inl (UInt32.lt_iff_toNat_lt.mpr more))

theorem precedes_antisymm (a b : String × Word) (first : precedes a b = true)
    (second : precedes b a = true) : a = b := by
  rw [precedes_iff] at first second
  rcases first with less | ⟨same, before⟩
  · rcases second with more | ⟨same, _⟩
    · exact absurd more (UInt32.lt_asymm less)
    · exact absurd (same ▸ less) (UInt32.lt_irrefl _)
  · rcases second with more | ⟨_, after⟩
    · exact absurd (same ▸ more) (UInt32.lt_irrefl _)
    · exact Prod.ext (String.le_antisymm before after) same

theorem byAddress_perm (table : LabelTable) : table.byAddress.Perm table.entries :=
  List.mergeSort_perm table.entries precedes

theorem byAddress_sorted (table : LabelTable) :
    table.byAddress.Pairwise fun a b => precedes a b = true :=
  List.pairwise_mergeSort precedes_trans precedes_total table.entries

/-- The entries can be sorted in one way only, so it does not matter how they were listed. -/
theorem byAddress_unique (table : LabelTable) (sorted : List (String × Word))
    (same : sorted.Perm table.entries)
    (ascending : sorted.Pairwise fun a b => precedes a b = true) :
    table.byAddress = sorted :=
  List.Perm.eq_of_pairwise (fun a b _ _ => precedes_antisymm a b) table.byAddress_sorted ascending
    (table.byAddress_perm.trans same.symm)

theorem byAddress_strict (table : LabelTable) :
    table.byAddress.Pairwise fun a b => a.2 < b.2 ∨ a.2 = b.2 ∧ a.1 < b.1 := by
  have distinct : (table.byAddress.map Prod.fst).Nodup :=
    (table.byAddress_perm.map Prod.fst).nodup_iff.mpr table.distinct
  refine table.byAddress_sorted.imp₂ (fun a b before other => ?_) (List.pairwise_map.mp distinct)
  rcases (precedes_iff a b).mp before with less | ⟨same, before⟩
  · exact Or.inl less
  · refine Or.inr ⟨same, String.not_le.mp fun after => ?_⟩
    exact other (String.le_antisymm before after)

end LabelTable

/-- What a row shows of an instruction: address, opcode, size, line counted from one, and the
operation. -/
def ShowsInstruction (row : String) (entry : Word × Instruction) : Prop :=
  fields row = [entry.1.hex,
    String.ofList (hexDigitsPadded 2 entry.2.operation.opcode.code.toNat),
    toString entry.2.operation.size, toString (entry.2.line + 1)] ++ fields entry.2.operation.text

def ShowsLabel (row : String) (entry : String × Word) : Prop :=
  fields row = [entry.2.hex, entry.1]

theorem gap_columns : Gap "  " := ⟨by decide, by decide⟩

theorem shows_listingRow (entry : Word × Instruction) :
    ShowsInstruction (entry.2.listingRow entry.1) entry := by
  have code := solid_hexDigitsPadded 2 entry.2.operation.opcode.code.toNat
  simp only [Instruction.listingRow, String.intercalate_cons_cons, String.intercalate_singleton,
    fields_append gap_columns, (isLiteral_hex entry.1).solid.fields, code.fields,
    (solid_decimal _).fields, fields_alignRight, ShowsInstruction]
  rfl

theorem staysInLine_listingRow (entry : Word × Instruction)
    (writable : entry.2.operation.Writable) :
    StaysInLine (entry.2.listingRow entry.1) := by
  have code := solid_hexDigitsPadded 2 entry.2.operation.opcode.code.toNat
  have text : StaysInLine entry.2.operation.text := (spells_operation _ writable).inline
  simp only [Instruction.listingRow, String.intercalate_cons_cons, String.intercalate_singleton,
    staysInLine_append, gap_columns.staysInLine, (isLiteral_hex entry.1).solid.staysInLine,
    code.staysInLine, (solid_decimal _).staysInLine, staysInLine_alignRight, text, and_self]

theorem labelRow_eq (entry : String × Word) (named : isName entry.1 = true) :
    ShowsLabel (entry.2.hex ++ "  " ++ entry.1 ++ ":") entry ∧
      StaysInLine (entry.2.hex ++ "  " ++ entry.1 ++ ":") := by
  have hex := (isLiteral_hex entry.2).solid
  have name := Solid.of_isName named
  have colon : Gap ":" := ⟨by decide, by decide⟩
  constructor
  · rw [ShowsLabel, fields_closed colon, fields_append gap_columns, hex.fields, name.fields]
    rfl
  · simp only [staysInLine_append]
    exact ⟨⟨⟨hex.staysInLine, gap_columns.staysInLine⟩, name.staysInLine⟩, colon.staysInLine⟩

/-- These rows are those of the instructions of a source, each of which has one. They come by
address and by line, and each address is the one before it plus the size there. -/
structure ListsInstructions (lines : List Line) (rows : List String)
    (entries : List (Word × Instruction)) : Prop where
  shows : List.Forall₂ ShowsInstruction rows entries
  complete : entries.map (fun entry => entry.2.line) = instructionLines lines
  ascending : entries.Pairwise fun earlier later =>
    earlier.1 < later.1 ∧ earlier.2.line < later.2.line
  chained : entries.IsChain fun entry next =>
    entry.1.toNat + entry.2.operation.size = next.1.toNat
  start : ∀ entry ∈ entries.head?, entry.1 = 0

/-- These rows are those of the labels of a source, each of which has one. They come by address, and
where addresses are equal by the bytes of the names. -/
structure ListsLabels (lines : List Line) (rows : List String) (entries : List (String × Word)) :
    Prop where
  shows : List.Forall₂ ShowsLabel rows entries
  complete : (entries.map fun entry => (entry.1, entry.2.toNat)).Perm
    ((places lines).filterMap Place.definition?)
  once : (entries.map Prod.fst).Nodup
  ascending : entries.Pairwise fun earlier later =>
    earlier.2 < later.2 ∨ earlier.2 = later.2 ∧ bytes earlier.1 < bytes later.1

namespace Program

def listingText (program : Program) : String :=
  String.join (program.listing.map fun row => row ++ "\n")

theorem listing_of_perm (program : Program) (table : LabelTable)
    (same : table.entries.Perm program.labels.entries) :
    ({ program with labels := table } : Program).listing = program.listing := by
  have sorted : table.byAddress = program.labels.byAddress :=
    table.byAddress_unique _ (program.labels.byAddress_perm.trans same.symm)
      program.labels.byAddress_sorted
  have empty : table.isEmpty = program.labels.isEmpty := by
    rw [Bool.eq_iff_iff, LabelTable.isEmpty, LabelTable.isEmpty, List.isEmpty_iff,
      List.isEmpty_iff, ← List.length_eq_zero_iff, ← List.length_eq_zero_iff, same.length_eq]
  simp only [listing, labelRows, sorted, empty]
  rfl

end Program

namespace Assembly.LaidOut

variable {lines : List Line} {program : Program}

theorem listsInstructions (laid : LaidOut lines program) :
    ListsInstructions lines program.listingRows program.toList where
  shows := by
    rw [Program.listingRows, List.forall₂_map_left_iff, List.forall₂_same]
    exact fun entry _ => shows_listingRow entry
  complete := laid.instructionLines
  ascending := (entries_ascending lines program.toList laid.instructions).and
    (laid.ordered.imp And.right)
  chained := laid.chained.1
  start := laid.chained.2

variable (laid : LaidOut lines program) {source : String} (read : Reads source lines)

include laid read

theorem isName_of_entry :
    ∀ entry ∈ program.labels.byAddress, isName entry.1 = true := by
  intro entry member
  have entered := program.labels.byAddress_perm.mem_iff.mp member
  obtain ⟨place, placed, defines, _⟩ := (laid.lookup_eq_some entry.1 entry.2).mp
    ((LabelTable.lookup_eq_some program.labels _ _).mpr entered)
  obtain ⟨text, _, parsed⟩ :=
    text_of_line _ lines place.index place.line read ((mem_places lines place).mp placed).1
  exact isName_of_label text place.line entry.1 parsed defines

theorem listsLabels :
    ListsLabels lines program.labelRows program.labels.byAddress where
  shows := by
    rw [Program.labelRows, List.forall₂_map_left_iff, List.forall₂_same]
    exact fun entry member => (labelRow_eq entry (laid.isName_of_entry read entry member)).1
  complete := by
    rw [← laid.labels, definitions]
    exact (program.labels.byAddress_perm.trans (List.reverse_perm _).symm).map _
  once := (program.labels.byAddress_perm.map Prod.fst).nodup_iff.mpr program.labels.distinct
  ascending := by
    refine program.labels.byAddress_strict.imp_of_mem fun {a b} first second before => ?_
    have named := laid.isName_of_entry read
    exact before.imp_right (And.imp_right (bytes_lt a.1 b.1 (named a first) (named b second)))

theorem staysInLine_listing : ∀ row ∈ program.listing, StaysInLine row := by
  intro row member
  rcases List.mem_append.mp member with instruction | label
  · obtain ⟨entry, listed, rfl⟩ := List.mem_map.mp instruction
    exact staysInLine_listingRow entry (laid.writable source read entry listed)
  · split at label
    · cases label
    · rcases List.mem_cons.mp label with rfl | label
      · exact nofun
      · obtain ⟨entry, listed, rfl⟩ := List.mem_map.mp label
        exact (labelRow_eq entry (laid.isName_of_entry read entry listed)).2

theorem lines_listingText :
    Text.lines program.listingText = program.listingRows ++
      if labelsOf lines = [] then [] else "" :: program.labelRows := by
  have empty : program.labels.isEmpty = true ↔ labelsOf lines = [] := by
    rw [LabelTable.isEmpty, List.isEmpty_iff, ← names_of_definitions _ lines laid.labels,
      List.reverse_eq_nil_iff, LabelTable.names, List.map_eq_nil_iff]
  rw [Program.listingText, lines_join _ (laid.staysInLine_listing read), Program.listing]
  simp only [empty]

end Assembly.LaidOut

namespace Runner

theorem writeListing_unlimited (source : String) (program : Program) (writer : Writer)
    (assembled : assemble source = .ok program) (unlimited : writer.capacity = none) :
    writeListing source writer =
      (.ok (), { writer with written := writer.written ++ program.listingText.toUTF8.data }) := by
  simp only [writeListing, assembled, Writer.writeText, writer.write_unlimited _ unlimited,
    Array.toArray_toList]
  rfl

end Runner

/-- What is written to a writer that takes everything has a row for each instruction and, behind an
empty row, one for each label if there are any. It is the same for any order that the labels are
kept in. -/
theorem listing_is_complete (source : String) (program : Program)
    (assembled : assemble source = .ok program) (options : Runner.Options)
    (listing : options.listing = true) (arrived : List UInt8) (writer : Writer)
    (unlimited : writer.capacity = none) (count : Nat) :
    Runner.execute source options arrived writer count =
      some (.ok (), { writer with written := writer.written ++ program.listingText.toUTF8.data }) ∧
    program.listingText =
      String.join ((Text.lines program.listingText).map fun row => row ++ "\n") ∧
    (∃ lines rows labelRows labels, Reads source lines ∧
      Text.lines program.listingText =
        rows ++ (if labelsOf lines = [] then [] else "" :: labelRows) ∧
      ListsInstructions lines rows program.toList ∧ ListsLabels lines labelRows labels) ∧
    ∀ table : LabelTable, table.entries.Perm program.labels.entries →
      ({ program with labels := table } : Program).listingText = program.listingText := by
  obtain ⟨lines, read, laid⟩ := assemble_laidOut source program assembled
  refine ⟨?_, ?_, ⟨lines, program.listingRows, program.labelRows, program.labels.byAddress, read,
    laid.lines_listingText read, laid.listsInstructions, laid.listsLabels read⟩, ?_⟩
  · rw [Runner.execute, if_pos listing,
      Runner.writeListing_unlimited source program writer assembled unlimited]
  · rw [Program.listingText, lines_join _ (laid.staysInLine_listing read)]
  · intro table same
    rw [Program.listingText, program.listing_of_perm table same, Program.listingText]

def twins : String := "b:\na: jump [b]\nz:"

theorem twins_listed :
    Runner.execute twins { listing := true } [] {} 0 =
      some (.ok (), { written := ("0x0000_0000  50  7     2  jump [0x0]\n\n" ++
        "0x0000_0000  a:\n0x0000_0000  b:\n0x0000_0007  z:\n").toUTF8.data }) := by
  have assembled := assembles twins (by decide +kernel)
  obtain ⟨written, _⟩ := listing_is_complete twins _ assembled { listing := true } rfl [] {} rfl 0
  have entries : ((assemble twins).toOption.getD {}).labels.entries =
      [("z", 7), ("a", 0), ("b", 0)] := by
    decide +kernel
  have rows : ((assemble twins).toOption.getD {}).listingRows =
      ["0x0000_0000  50  7     2  jump [0x0]"] := by
    decide +kernel
  have sorted := ((assemble twins).toOption.getD {}).labels.byAddress_unique
    [("a", 0), ("b", 0), ("z", 7)] (by rw [entries]; decide) (by decide)
  have text : ((assemble twins).toOption.getD {}).listingText =
      "0x0000_0000  50  7     2  jump [0x0]\n\n" ++
        "0x0000_0000  a:\n0x0000_0000  b:\n0x0000_0007  z:\n" := by
    simp only [Program.listingText, Program.listing, Program.labelRows, LabelTable.isEmpty, rows,
      sorted, entries]
    decide +kernel
  rw [written, text, show (#[] : Array UInt8) ++ _ = _ from Array.empty_append]

end ToyComputer
