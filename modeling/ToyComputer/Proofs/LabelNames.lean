import ToyComputer.Proofs.Relabelling

/-!
Label names: a source with other names for its labels assembles to the same program. Each of its
lines is read as it was, and the names find the same lines, since different labels keep different
names.
-/

namespace ToyComputer

namespace Assembly

open Text

/-- The pieces between line feeds that are lines: the last one is none if it is empty. -/
def linesOfPieces : List (List Char) → List (List Char)
  | [] => []
  | [last] => if last = [] then [] else [last]
  | piece :: next :: pieces => piece :: linesOfPieces (next :: pieces)

theorem mem_linesOfPieces (pieces : List (List Char)) (piece : List Char)
    (member : piece ∈ pieces) : piece ∈ linesOfPieces pieces ∨ piece = [] := by
  induction pieces with
  | nil => cases member
  | cons first pieces ih =>
      cases pieces with
      | nil =>
          rw [List.mem_singleton] at member
          subst member
          by_cases empty : piece = []
          · exact Or.inr empty
          · left
            rw [linesOfPieces, if_neg empty]
            exact List.mem_singleton_self _
      | cons next pieces =>
          rcases List.mem_cons.mp member with rfl | later
          · exact Or.inl List.mem_cons_self
          · exact (ih later).imp_left (List.mem_cons_of_mem _)

theorem linesOfPieces_map (change : List Char → List Char) (pieces : List (List Char))
    (empty : change [] = [])
    (written : ∀ piece ∈ linesOfPieces pieces, change piece = [] → piece = []) :
    linesOfPieces (pieces.map change) = (linesOfPieces pieces).map change := by
  induction pieces with
  | nil => rfl
  | cons piece pieces ih =>
      cases pieces with
      | nil =>
          by_cases none : piece = []
          · subst none
            simp [linesOfPieces, empty]
          · rw [linesOfPieces, if_neg none] at written
            have still : change piece ≠ [] := fun gone =>
              none (written piece (List.mem_singleton_self _) gone)
            simp [linesOfPieces, none, still]
      | cons next pieces =>
          have others := ih fun other member => written other (List.mem_cons_of_mem _ member)
          simp only [List.map_cons, linesOfPieces] at others ⊢
          rw [others]

theorem read_linesFrom (pieces : List (List Char)) (inline : ∀ piece ∈ pieces, '\n' ∉ piece) :
    (linesFrom [] (['\n'].intercalate pieces)).map (Line.ofString ∘ String.ofList) =
      (linesOfPieces pieces).map (Line.ofString ∘ String.ofList) := by
  induction pieces with
  | nil => rfl
  | cons piece pieces ih =>
      obtain ⟨head, others⟩ := List.forall_mem_cons.mp inline
      have noBreak : ∀ c ∈ piece, c ≠ '\n' := by
        rintro c member rfl
        exact head member
      cases pieces with
      | nil =>
          have read := linesFrom_append [] piece [] noBreak
          rw [List.append_nil, List.append_nil] at read
          rw [List.intercalate_singleton, read, linesFrom, linesOfPieces]
          by_cases empty : piece = []
          · simp [empty]
          · simp [empty]
      | cons next pieces =>
          have read := linesFrom_append [] piece ('\n' :: ['\n'].intercalate (next :: pieces))
            noBreak
          rw [List.append_nil, linesFrom, if_pos rfl] at read
          rw [List.intercalate_cons_cons, List.append_assoc, List.singleton_append, read,
            List.map_cons, ih others, linesOfPieces, List.map_cons, Function.comp_apply,
            ofString_dropCarriageReturn, List.reverse_reverse, Function.comp_apply]

theorem not_mem_splitOn (text : List Char) : ∀ piece ∈ text.splitOn '\n', '\n' ∉ piece := by
  induction text with
  | nil => simp [List.splitOn_nil]
  | cons c text ih =>
      rw [List.splitOn_cons_eq_if_modifyHead]
      split
      · intro piece member
        rcases List.mem_cons.mp member with rfl | later
        · exact List.not_mem_nil
        · exact ih piece later
      · next other =>
          rcases split : text.splitOn '\n' with _ | ⟨first, pieces⟩
          · exact nofun
          · rw [split] at ih
            obtain ⟨head, others⟩ := List.forall_mem_cons.mp ih
            intro piece member
            rcases List.mem_cons.mp member with rfl | later
            · intro inside
              rcases List.mem_cons.mp inside with rfl | inside
              · exact other (beq_self_eq_true _)
              · exact head inside
            · exact others piece later

theorem renameLine_nil (name : String → String) : renameLine name [] = [] := by
  rw [renameLine, Token.scanAll]
  rfl

section

variable (name : String → String)

theorem read_map (pieces : List (List Char)) (lines : List Line)
    (change : List Char → List Char) (rename : Line → Line)
    (read : pieces.map (Line.ofString ∘ String.ofList) = lines.map .ok)
    (step : ∀ piece line, line ∈ lines → Line.ofString (String.ofList piece) = .ok line →
      Line.ofString (String.ofList (change piece)) = .ok (rename line)) :
    (pieces.map change).map (Line.ofString ∘ String.ofList) = (lines.map rename).map .ok := by
  induction pieces generalizing lines with
  | nil =>
      obtain rfl := List.map_eq_nil_iff.mp read.symm
      rfl
  | cons piece pieces ih =>
      obtain ⟨line, others, rfl, here, rest⟩ := List.map_eq_cons_iff.mp read.symm
      have tail := ih others rest.symm fun piece line member =>
        step piece line (List.mem_cons_of_mem _ member)
      have head := step piece line List.mem_cons_self here.symm
      rw [List.map_cons, List.map_cons, tail, Function.comp_apply, head]
      rfl

/-- The renamed source reads as the renamed lines. -/
theorem reads_renameLabels (source : String) (lines : List Line) (reads : Reads source lines)
    (legal : ∀ line ∈ lines, ∀ label ∈ line.labels, IsLabel (name label)) :
    Reads (renameLabels name source) (lines.map (Line.rename name)) := by
  have inline := not_mem_splitOn source.toList
  have whole : ['\n'].intercalate (source.toList.splitOn '\n') = source.toList :=
    List.intercalate_splitOn '\n'
  unfold renameLabels
  generalize source.toList.splitOn '\n' = pieces at inline whole ⊢
  have read : (linesOfPieces pieces).map (Line.ofString ∘ String.ofList) = lines.map .ok := by
    rw [← read_linesFrom pieces inline, whole, ← List.map_map]
    exact reads
  have kept : ∀ piece ∈ linesOfPieces pieces, (renameLine name piece = [] ↔ piece = []) ∧
      ('\n' ∉ piece → '\n' ∉ renameLine name piece) := by
    intro piece member
    have parsed := List.mem_map_of_mem (f := Line.ofString ∘ String.ofList) member
    rw [read] at parsed
    obtain ⟨line, listed, same⟩ := List.mem_map.mp parsed
    exact (ofString_renameLine name piece line same.symm (legal line listed)).2
  have inlineToo : ∀ piece ∈ pieces.map (renameLine name), '\n' ∉ piece := by
    intro piece member
    obtain ⟨old, listed, rfl⟩ := List.mem_map.mp member
    rcases mem_linesOfPieces pieces old listed with isLine | rfl
    · exact (kept old isLine).2 (inline old listed)
    · rw [renameLine_nil]
      exact List.not_mem_nil
  have same := linesOfPieces_map (renameLine name) pieces (renameLine_nil name)
    fun piece member => (kept piece member).1.mp
  rw [Reads, Text.lines, String.toList_ofList, List.map_map, read_linesFrom _ inlineToo, same]
  exact read_map _ lines (renameLine name) (Line.rename name) read fun piece line member parsed =>
    (ofString_renameLine name piece line parsed (legal line member)).1

theorem Line.size_rename (line : Line) : (line.rename name).size = line.size := by
  obtain ⟨label, operation⟩ := line
  cases operation with
  | none => rfl
  | some operation => exact operation.size_rename name

def Place.rename (place : Place) : Place := { place with line := place.line.rename name }

theorem addressOf_rename (lines : List Line) (index : Nat) :
    addressOf (lines.map (Line.rename name)) index = addressOf lines index := by
  have total (lines : List Line) :
      totalSize (lines.map (Line.rename name)) = totalSize lines := by
    induction lines with
    | nil => rfl
    | cons line lines ih => rw [List.map_cons, totalSize_cons, totalSize_cons, ih, Line.size_rename]
  rw [addressOf, ← List.map_take, total, addressOf]

theorem places_rename (lines : List Line) :
    places (lines.map (Line.rename name)) = (places lines).map (Place.rename name) := by
  rw [places, places, List.zipIdx_map, List.map_map, List.map_map]
  apply List.map_congr_left
  rintro ⟨line, index⟩ _
  simp only [Function.comp_apply, Prod.map, id, addressOf_rename, Place.rename]

theorem labelsOf_rename (lines : List Line) :
    labelsOf (lines.map (Line.rename name)) = (labelsOf lines).map name := by
  rw [labelsOf, labelsOf, List.filterMap_map, List.map_filterMap]
  rfl

theorem definition?_rename (place : Place) :
    (place.rename name).definition? =
      place.definition?.map fun definition => (name definition.1, definition.2) := by
  obtain ⟨address, index, ⟨label, operation⟩⟩ := place
  cases label <;> rfl

theorem fits_rename (lines : List Line) (fits : Fits lines) :
    Fits (lines.map (Line.rename name)) := by
  intro place member present
  rw [places_rename] at member
  obtain ⟨old, listed, rfl⟩ := List.mem_map.mp member
  refine fits old listed ?_
  simpa [Place.rename, Line.rename] using present

theorem defined_rename (lines : List Line) (defined : Defined lines) :
    Defined (lines.map (Line.rename name)) := by
  intro line member operation present label waits
  obtain ⟨old, listed, rfl⟩ := List.mem_map.mp member
  obtain ⟨before, found, rfl⟩ := Option.map_eq_some_iff.mp present
  rw [Operation.label?_rename] at waits
  obtain ⟨oldLabel, named, rfl⟩ := Option.map_eq_some_iff.mp waits
  rw [labelsOf_rename]
  exact List.mem_map_of_mem (defined old listed before found oldLabel named)

/-- Different labels keep different names. -/
def Distinct (labels : List String) : Prop :=
  ∀ first ∈ labels, ∀ second ∈ labels, name first = name second → first = second

theorem once_rename (lines : List Line) (distinct : Distinct name (labelsOf lines))
    (once : (labelsOf lines).Nodup) : (labelsOf (lines.map (Line.rename name))).Nodup := by
  rw [labelsOf_rename]
  refine List.pairwise_map.mpr (List.Pairwise.imp_of_mem ?_ once)
  intro first second one other differ same
  exact differ (distinct first one second other same)

theorem linked_rename (lines : List Line) (distinct : Distinct name (labelsOf lines))
    (once : (labelsOf lines).Nodup) (operation : Operation)
    (defined : ∀ label, operation.label? = some label → label ∈ labelsOf lines) :
    linked (lines.map (Line.rename name)) (operation.rename name) = linked lines operation := by
  cases waits : operation.label? with
  | none =>
      rw [operation.rename_of_no_label name waits, linked_of_no_label _ _ waits,
        linked_of_no_label _ _ waits]
  | some label =>
      obtain ⟨line, listed, named⟩ := List.mem_filterMap.mp (defined label waits)
      obtain ⟨index, found⟩ := List.mem_iff_getElem?.mp listed
      have member : (⟨addressOf lines index, index, line⟩ : Place) ∈ places lines :=
        (mem_places lines _).mpr ⟨found, rfl⟩
      have renamed := List.mem_map_of_mem (f := Place.rename name) member
      rw [← places_rename] at renamed
      have namedToo : (line.rename name).label = some (name label) := by
        rw [Line.rename, named]
        rfl
      rw [linked_of_label _ (once_rename name lines distinct once) _ (name label) _
          (by rw [Operation.label?_rename, waits]; rfl) renamed namedToo,
        linked_of_label lines once operation label _ waits member named,
        Operation.withTarget_rename]
      rfl

theorem numbered_injective : Function.Injective numbered := by
  intro first second same
  obtain ⟨addresses, instructions⟩ := Prod.mk.inj same
  exact Prod.ext (UInt32.toNat_inj.mp addresses) instructions

theorem entries_of_definitions (table : LabelTable) (entries : List (String × Word))
    (same : definitions table = entries.reverse.map fun entry => (entry.1, entry.2.toNat)) :
    table.entries = entries := by
  have injective : Function.Injective fun entry : String × Word => (entry.1, entry.2.toNat) := by
    intro first second equal
    obtain ⟨labels, addresses⟩ := Prod.mk.inj equal
    exact Prod.ext labels (UInt32.toNat_inj.mp addresses)
  exact List.reverse_inj.mp ((List.map_inj_right injective).mp same)

section

variable (lines : List Line) (program renamed : Program) (laid : LaidOut lines program)
  (laidToo : LaidOut (lines.map (Line.rename name)) renamed)

include laid laidToo

theorem toList_rename (distinct : Distinct name (labelsOf lines)) :
    renamed.toList = program.toList := by
  have once := labels_distinct program.labels lines laid.labels
  have entry : ∀ place ∈ places lines,
      ((place.rename name).instruction?).map (linkedEntry (lines.map (Line.rename name))) =
        place.instruction?.map (linkedEntry lines) := by
    intro place member
    obtain ⟨address, index, ⟨label, operation⟩⟩ := place
    cases operation with
    | none => rfl
    | some operation =>
        have listed := List.mem_of_getElem? ((mem_places lines _).mp member).1
        have same := linked_rename name lines distinct once operation
          (laid.defined _ listed operation rfl)
        simp only [Place.rename, Line.rename, Place.instruction?, Option.map_some, linkedEntry,
          same]
  apply (List.map_inj_right numbered_injective).mp
  rw [laidToo.instructions, laid.instructions, places_rename, List.filterMap_map,
    List.map_filterMap, List.map_filterMap]
  exact List.filterMap_congr entry

theorem entries_rename :
    renamed.labels.entries = program.labels.entries.map fun entry => (name entry.1, entry.2) := by
  apply entries_of_definitions
  rw [laidToo.labels, places_rename, List.filterMap_map, ← List.map_reverse, List.map_map]
  calc
    _ = (places lines).filterMap fun place =>
        place.definition?.map fun definition => (name definition.1, definition.2) :=
      List.filterMap_congr fun place _ => definition?_rename name place
    _ = (definitions program.labels).map fun definition => (name definition.1, definition.2) := by
      rw [laid.labels, List.map_filterMap]
    _ = _ := by
      rw [definitions, List.map_map]
      rfl

theorem lookup_rename (label : String)
    (member : label ∈ program.labels.names) :
    renamed.labels.lookup (name label) = program.labels.lookup label := by
  obtain ⟨⟨_, address⟩, listed, rfl⟩ := List.mem_map.mp member
  rw [(program.labels.lookup_eq_some _ address).mpr listed, LabelTable.lookup_eq_some,
    entries_rename name lines program renamed laid laidToo]
  exact List.mem_map_of_mem listed

end

end

/-- Label names do not matter: with other names that are as different, the source assembles to the
same instructions at the same addresses, and each label names the address that it did. -/
theorem label_names_are_immaterial (source : String) (program : Program) (name : String → String)
    (assembled : assemble source = .ok program)
    (distinct : Distinct name program.labels.names)
    (legal : ∀ label ∈ program.labels.names, IsLabel (name label)) :
    ∃ renamed, assemble (renameLabels name source) = .ok renamed ∧
      renamed.toList = program.toList ∧
      (∀ label ∈ program.labels.names,
        renamed.labels.lookup (name label) = program.labels.lookup label) ∧
      renamed.labels.names = program.labels.names.map name := by
  obtain ⟨lines, reads, laid⟩ := assemble_laidOut source program assembled
  have once := labels_distinct program.labels lines laid.labels
  have names := names_of_definitions program.labels lines laid.labels
  have mem (label : String) : label ∈ labelsOf lines ↔ label ∈ program.labels.names := by
    rw [← names, List.mem_reverse]
  have distinctLines : Distinct name (labelsOf lines) := fun first one second other =>
    distinct first ((mem first).mp one) second ((mem second).mp other)
  have legalLines : ∀ line ∈ lines, ∀ label ∈ line.labels, IsLabel (name label) := by
    intro line listed label member
    apply legal label
    rw [← mem]
    rcases List.mem_append.mp member with defines | refers
    · exact List.mem_filterMap.mpr ⟨line, listed, Option.mem_toList.mp defines⟩
    · obtain ⟨operation, present, waits⟩ := Option.bind_eq_some_iff.mp (Option.mem_toList.mp refers)
      exact laid.defined line listed operation present label waits
  have readsToo := reads_renameLabels name source lines reads legalLines
  obtain ⟨renamed, assembledToo⟩ := assemble_succeeds _ _ readsToo
    (fits_rename name lines laid.fits) (once_rename name lines distinctLines once)
    (defined_rename name lines laid.defined)
  obtain ⟨others, readsAgain, laidToo⟩ := assemble_laidOut _ renamed assembledToo
  obtain rfl := reads_unique _ others _ readsAgain readsToo
  have entries := entries_rename name lines program renamed laid laidToo
  refine ⟨renamed, assembledToo,
    toList_rename name lines program renamed laid laidToo distinctLines,
    lookup_rename name lines program renamed laid laidToo, ?_⟩
  rw [LabelTable.names, entries, List.map_map, LabelTable.names, List.map_map]
  rfl

def entangled : String :=
  "copy: copy r0, 7 # copy to end\r\n  jump [r0 end]\nend:jump [copy]\nr1: return"

def exchanged (label : String) : String :=
  if label = "copy" then "end" else if label = "end" then "copy" else "jump"

theorem exchanged_names_are_immaterial :
    renameLabels exchanged entangled =
        "end: copy r0, 7 # copy to end\r\n  jump [r0 copy]\ncopy:jump [end]\njump: return" ∧
      ∃ program renamed, assemble entangled = .ok program ∧
        assemble (renameLabels exchanged entangled) = .ok renamed ∧
        renamed.toList = program.toList ∧
        renamed.labels.lookup "copy" = program.labels.lookup "end" ∧
        renamed.labels.names = ["jump", "copy", "end"] := by
  have assembled := assembles entangled (by decide +kernel)
  have names : ((assemble entangled).toOption.getD {}).labels.names = ["r1", "end", "copy"] := by
    decide +kernel
  obtain ⟨renamed, assembledToo, same, found, namesToo⟩ :=
    label_names_are_immaterial entangled _ exchanged assembled
      (by rw [names]; unfold Distinct; decide) (by rw [names]; unfold IsLabel; decide)
  refine ⟨by decide +kernel, _, renamed, assembled, assembledToo, same, ?_, ?_⟩
  · exact found "end" (by rw [names]; decide)
  · rw [namesToo, names]
    rfl

end Assembly

end ToyComputer
