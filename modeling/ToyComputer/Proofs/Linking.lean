import Mathlib.Data.List.Chain
import Mathlib.Data.List.Pairwise
import ToyComputer.Proofs.Layout

/-!
Linking: the second pass puts the place of a line where an instruction names the line's label, and
the program lists the instructions in the order of their lines.
-/

namespace ToyComputer

theorem LabelTable.lookup_eq_some (table : LabelTable) (label : String) (address : Word) :
    table.lookup label = some address ↔ (label, address) ∈ table.entries := by
  obtain ⟨entries, distinct⟩ := table
  simp only [LabelTable.lookup]
  induction entries with
  | nil => simp
  | cons entry rest ih =>
      obtain ⟨name, value⟩ := entry
      rw [List.map_cons, List.nodup_cons] at distinct
      rw [List.lookup_cons, List.mem_cons]
      by_cases same : label = name
      · subst same
        have absent : (label, address) ∉ rest := fun member =>
          distinct.1 (List.mem_map.mpr ⟨_, member, rfl⟩)
        simp [absent, eq_comm]
      · rw [beq_eq_false_iff_ne.mpr same, ← ih distinct.2]
        simp [same]

/-- The label that an operation waits for. -/
def Operation.label? (operation : Operation) : Option String :=
  operation.address?.bind Addressing.label?

def Operation.withTarget (operation : Operation) (target : Word) : Operation :=
  match operation.address? with
  | none => operation
  | some address => operation.withAddress (address.withOffset target)

theorem Operation.address?_withTarget (operation : Operation) (target : Word) :
    (operation.withTarget target).address? =
      operation.address?.map fun address => address.withOffset target := by
  cases operation <;> rfl

theorem Operation.label?_withTarget (operation : Operation) (target : Word) :
    (operation.withTarget target).label? = none := by
  cases operation <;> rfl

theorem Operation.size_withTarget (operation : Operation) (target : Word) :
    (operation.withTarget target).size = operation.size := by
  cases operation <;> rfl

namespace Assembly

theorem link_eq (labels : LabelTable) (instruction : Instruction) :
    link labels instruction =
      match instruction.operation.label? with
      | none => .ok instruction
      | some label =>
        match labels.lookup label with
        | none => .error ⟨instruction.line, .undefinedLabel label⟩
        | some target =>
          .ok { instruction with operation := instruction.operation.withTarget target } := by
  unfold link Operation.label? Operation.withTarget
  cases instruction.operation.address? with
  | none => rfl
  | some address =>
      cases labelled : address.label? with
      | none => simp only [Option.bind_some, labelled]
      | some label =>
          cases found : labels.lookup label with
          | none => simp only [Option.bind_some, labelled, found]
          | some target => simp only [Option.bind_some, labelled, found]

def definingPlace? (lines : List Line) (label : String) : Option Place :=
  (places lines).find? fun place => place.line.label == some label

theorem place_unique (lines : List Line) (once : (labelsOf lines).Nodup) (label : String)
    (first second : Place) (one : first ∈ places lines) (other : second ∈ places lines)
    (firstNamed : first.line.label = some label) (secondNamed : second.line.label = some label) :
    first = second := by
  have separate : (places lines).Pairwise fun earlier later =>
      ∀ label, earlier.line.label = some label → later.line.label ≠ some label := by
    rw [← labels_of_places, List.map_filterMap, List.Nodup, List.pairwise_filterMap] at once
    apply once.imp
    intro earlier later distinct label earlierNamed laterNamed
    exact distinct label (by simp [Place.definition?, earlierNamed]) label
      (by simp [Place.definition?, laterNamed]) rfl
  have symmetric : Std.Symm fun earlier later : Place =>
      ∀ label, earlier.line.label = some label → later.line.label ≠ some label :=
    ⟨fun _ _ distinct label laterNamed earlierNamed => distinct label earlierNamed laterNamed⟩
  by_contra differ
  exact separate.forall one other differ label firstNamed secondNamed

theorem definition_unique (lines : List Line) (once : (labelsOf lines).Nodup) (label : String)
    (first second : Nat) (one : lines[first]?.bind Line.label = some label)
    (other : lines[second]?.bind Line.label = some label) : first = second := by
  obtain ⟨line, found, named⟩ := Option.bind_eq_some_iff.mp one
  obtain ⟨line', found', named'⟩ := Option.bind_eq_some_iff.mp other
  have same := place_unique lines once label ⟨addressOf lines first, first, line⟩
    ⟨addressOf lines second, second, line'⟩ ((mem_places lines _).mpr ⟨found, rfl⟩)
    ((mem_places lines _).mpr ⟨found', rfl⟩) named named'
  exact congrArg Place.index same

theorem definingPlace?_eq_some (lines : List Line) (once : (labelsOf lines).Nodup) (label : String)
    (place : Place) :
    definingPlace? lines label = some place ↔
      place ∈ places lines ∧ place.line.label = some label := by
  constructor
  · intro found
    refine ⟨List.mem_of_find?_eq_some found, ?_⟩
    simpa using List.find?_some found
  · intro given
    rcases given with ⟨member, labelled⟩
    cases found : definingPlace? lines label with
    | none =>
        have nowhere := List.find?_eq_none.mp found place member
        simp [labelled] at nowhere
    | some other =>
        have otherNamed : other.line.label = some label := by simpa using List.find?_some found
        rw [place_unique lines once label other place (List.mem_of_find?_eq_some found) member
          otherNamed labelled]

theorem lookup_of_definitions (labels : LabelTable) (lines : List Line)
    (same : definitions labels = (places lines).filterMap Place.definition?)
    (label : String) (address : Word) :
    labels.lookup label = some address ↔
      ∃ place ∈ places lines, place.line.label = some label ∧ address.toNat = place.address := by
  have listed : labels.lookup label = some address ↔
      (label, address.toNat) ∈ definitions labels := by
    rw [LabelTable.lookup_eq_some, definitions, List.mem_map]
    constructor
    · intro member
      exact ⟨(label, address), List.mem_reverse.mpr member, rfl⟩
    · intro given
      rcases given with ⟨⟨name, value⟩, member, equal⟩
      obtain ⟨rfl, same⟩ := Prod.mk.inj equal
      rw [← UInt32.toNat_inj.mp same]
      exact List.mem_reverse.mp member
  rw [listed, same, List.mem_filterMap]
  constructor
  · intro given
    rcases given with ⟨place, member, defined⟩
    obtain ⟨name, named, equal⟩ := Option.map_eq_some_iff.mp defined
    obtain ⟨rfl, same⟩ := Prod.mk.inj equal
    exact ⟨place, member, named, same.symm⟩
  · intro given
    rcases given with ⟨place, member, named, same⟩
    exact ⟨place, member, by simp [Place.definition?, named, same]⟩

/-- The operation with the place of the line that defines its label in the label's place. -/
def linked (lines : List Line) (operation : Operation) : Operation :=
  match operation.label?.bind (definingPlace? lines) with
  | none => operation
  | some place => operation.withTarget (UInt32.ofNat place.address)

def Defined (lines : List Line) : Prop :=
  ∀ line ∈ lines, ∀ operation, line.operation = some operation →
    ∀ label, operation.label? = some label → label ∈ labelsOf lines

theorem linked_of_label (lines : List Line) (once : (labelsOf lines).Nodup) (operation : Operation)
    (label : String) (place : Place) (waits : operation.label? = some label)
    (member : place ∈ places lines) (named : place.line.label = some label) :
    linked lines operation = operation.withTarget (UInt32.ofNat place.address) := by
  have found := (definingPlace?_eq_some lines once label place).mpr ⟨member, named⟩
  simp only [linked, waits, Option.bind_some, found]

theorem linked_of_no_label (lines : List Line) (operation : Operation)
    (ready : operation.label? = none) : linked lines operation = operation := by
  simp only [linked, ready, Option.bind_none]

theorem size_linked (lines : List Line) (operation : Operation) :
    (linked lines operation).size = operation.size := by
  unfold linked
  split
  · rfl
  · exact Operation.size_withTarget operation _

theorem link_eq_ok (layout : Layout) (lines : List Line) (follows : layout.Follows lines)
    (instruction after : Instruction) (done : link layout.labels instruction = .ok after) :
    after = { instruction with operation := linked lines instruction.operation } ∧
      after.operation.label? = none := by
  rw [link_eq] at done
  cases waits : instruction.operation.label? with
  | none =>
      rw [waits] at done
      cases done
      exact ⟨by rw [linked_of_no_label lines _ waits], waits⟩
  | some label =>
      simp only [waits] at done
      cases found : layout.labels.lookup label with
      | none => simp only [found] at done; cases done
      | some target =>
          simp only [found] at done
          cases done
          obtain ⟨place, member, named, same⟩ :=
            (lookup_of_definitions layout.labels lines follows.labels label target).mp found
          have once := labels_distinct layout.labels lines follows.labels
          refine ⟨?_, Operation.label?_withTarget _ _⟩
          rw [linked_of_label lines once _ label place waits member named, ← same,
            UInt32.ofNat_toNat]

def linkedEntry (lines : List Line) (entry : Nat × Instruction) : Nat × Instruction :=
  (entry.1, ⟨linked lines entry.2.operation, entry.2.line⟩)

/-- An entry with its address as a number, so that entries of one address space can be compared with
places. -/
def numbered (entry : Word × Instruction) : Nat × Instruction := (entry.1.toNat, entry.2)

theorem linkAll_cons (labels : LabelTable) (address : Word) (instruction : Instruction)
    (rest : List (Word × Instruction)) :
    linkAll labels ((address, instruction) :: rest) =
      match link labels instruction with
      | .error error => .error error
      | .ok linked => (linkAll labels rest).map fun others => (address, linked) :: others := by
  rw [linkAll, List.mapM_cons]
  change ((link labels instruction).map fun linked => (address, linked)).bind (fun entry =>
    (linkAll labels rest).bind fun others => .ok (entry :: others)) = _
  cases link labels instruction with
  | error error => rfl
  | ok linked => cases linkAll labels rest <;> rfl

theorem linkAll_eq_ok (layout : Layout) (lines : List Line) (follows : layout.Follows lines)
    (placed after : List (Word × Instruction)) (done : linkAll layout.labels placed = .ok after) :
    after.map numbered = placed.map (fun entry => linkedEntry lines (numbered entry)) ∧
      ∀ entry ∈ after, entry.2.operation.label? = none := by
  induction placed generalizing after with
  | nil =>
      cases done
      exact ⟨rfl, by simp⟩
  | cons entry rest ih =>
      obtain ⟨address, instruction⟩ := entry
      rw [linkAll_cons] at done
      cases first : link layout.labels instruction with
      | error error => simp only [first] at done; cases done
      | ok linked =>
          cases more : linkAll layout.labels rest with
          | error error => simp only [first, more] at done; cases done
          | ok others =>
              simp only [first, more] at done
              cases done
              obtain ⟨same, ready⟩ := link_eq_ok layout lines follows instruction linked first
              obtain ⟨sameRest, readyRest⟩ := ih others more
              refine ⟨?_, ?_⟩
              · rw [List.map_cons, List.map_cons, sameRest, same]
                rfl
              · intro entry member
                rcases List.mem_cons.mp member with rfl | member
                · exact ready
                · exact readyRest entry member

theorem link_succeeds (labels : LabelTable) (instruction : Instruction)
    (defined : ∀ label, instruction.operation.label? = some label →
      (labels.lookup label).isSome) : ∃ after, link labels instruction = .ok after := by
  rw [link_eq]
  cases waits : instruction.operation.label? with
  | none => exact ⟨instruction, rfl⟩
  | some label =>
      obtain ⟨target, found⟩ := Option.isSome_iff_exists.mp (defined label waits)
      simp only [found]
      exact ⟨_, rfl⟩

theorem linkAll_succeeds (labels : LabelTable) (placed : List (Word × Instruction))
    (defined : ∀ entry ∈ placed, ∀ label, entry.2.operation.label? = some label →
      (labels.lookup label).isSome) : ∃ after, linkAll labels placed = .ok after := by
  induction placed with
  | nil => exact ⟨[], rfl⟩
  | cons entry rest ih =>
      obtain ⟨others, more⟩ := ih fun entry member =>
        defined entry (List.mem_cons_of_mem _ member)
      obtain ⟨linked, first⟩ := link_succeeds labels entry.2 (defined entry List.mem_cons_self)
      refine ⟨(entry.1, linked) :: others, ?_⟩
      rw [linkAll_cons, first, more]
      rfl

theorem instructions_ordered (lines : List Line) :
    ((places lines).filterMap Place.instruction?).Pairwise fun earlier later =>
      earlier.1 + earlier.2.operation.size ≤ later.1 ∧ earlier.2.line < later.2.line := by
  rw [List.pairwise_filterMap]
  apply (places_ordered lines).imp
  intro earlier later ordered first isFirst second isSecond
  obtain ⟨operation, present, rfl⟩ := Option.map_eq_some_iff.mp isFirst
  obtain ⟨_, _, rfl⟩ := Option.map_eq_some_iff.mp isSecond
  rw [Line.size, present] at ordered
  exact ordered

theorem instructions_chained (lines : List Line) :
    ((places lines).filterMap Place.instruction?).IsChain (fun entry next =>
      entry.1 + entry.2.operation.size = next.1) ∧
    (∀ entry ∈ ((places lines).filterMap Place.instruction?).head?, entry.1 = 0) ∧
    ((((places lines).filterMap Place.instruction?).getLast?).map fun entry =>
      entry.1 + entry.2.operation.size).getD 0 = totalSize lines := by
  induction lines using List.reverseRecOn with
  | nil =>
      rw [show (places []).filterMap Place.instruction? = [] from rfl]
      exact ⟨.nil, by simp, rfl⟩
  | append_singleton lines line ih =>
      rw [filterMap_places_append, totalSize_append, totalSize_singleton]
      generalize (places lines).filterMap Place.instruction? = entries at ih ⊢
      obtain ⟨chained, first, last⟩ := ih
      cases present : line.operation with
      | none =>
          simp only [Place.instruction?, Line.size, present, Option.map_none, Option.toList_none,
            Option.getD_none, List.append_nil, Nat.add_zero]
          exact ⟨chained, first, last⟩
      | some operation =>
          simp only [Place.instruction?, Line.size, present, Option.map_some, Option.toList_some,
            Option.getD_some]
          refine ⟨List.isChain_append.mpr ⟨chained, .singleton _, ?_⟩, ?_, ?_⟩
          · intro entry isLast next isNext
            cases isNext
            rw [isLast] at last
            exact last
          · -- What comes first of all stands at zero.
            cases entries with
            | nil =>
                intro entry isFirst
                cases isFirst
                exact last.symm
            | cons entry entries => exact first
          · simp

end Assembly

namespace Program

theorem getElem?_ofList (entries : List (Word × Instruction))
    (distinct : entries.Pairwise fun earlier later => ¬ compare earlier.1 later.1 = .eq)
    (address : Word) (instruction : Instruction) :
    (Std.TreeMap.ofList entries)[address]? = some instruction ↔
      (address, instruction) ∈ entries := by
  have held (other : Instruction) (member : (address, other) ∈ entries) :
      (Std.TreeMap.ofList entries)[address]? = some other :=
    Std.TreeMap.getElem?_ofList_of_mem Std.ReflCmp.compare_self distinct member
  constructor
  · intro found
    have present : address ∈ Std.TreeMap.ofList entries :=
      Std.TreeMap.mem_iff_isSome_getElem?.mpr (by rw [found]; rfl)
    rw [Std.TreeMap.mem_ofList, List.contains_iff_mem, List.mem_map] at present
    obtain ⟨⟨_, other⟩, member, rfl⟩ := present
    rw [held other member] at found
    cases found
    exact member
  · exact held instruction

theorem nodup_of_ascending (entries : List (Word × Instruction))
    (ascending : entries.Pairwise fun earlier later => compare earlier.1 later.1 = .lt) :
    entries.Nodup := by
  apply ascending.imp
  intro earlier later less equal
  rw [equal] at less
  exact UInt32.lt_irrefl _ (Std.compare_eq_lt.mp less)

theorem toList_ofList (entries : List (Word × Instruction)) (labels : LabelTable)
    (ascending : entries.Pairwise fun earlier later => earlier.1 < later.1) :
    (ofList entries labels).toList = entries := by
  have ordered : entries.Pairwise fun earlier later => compare earlier.1 later.1 = .lt :=
    ascending.imp fun less => Std.compare_eq_lt.mpr less
  have distinct : entries.Pairwise fun earlier later => ¬ compare earlier.1 later.1 = .eq :=
    ordered.imp fun less equal => by rw [less] at equal; cases equal
  have listed := Std.TreeMap.ordered_keys_toList (t := Std.TreeMap.ofList entries)
  have same (entry : Word × Instruction) :
      entry ∈ (Std.TreeMap.ofList entries).toList ↔ entry ∈ entries := by
    rw [← getElem?_ofList entries distinct, ← Std.TreeMap.mem_toList_iff_getElem?_eq_some]
  refine List.Perm.eq_of_pairwise ?_ listed ordered
    ((List.perm_ext_iff_of_nodup (nodup_of_ascending _ listed)
      (nodup_of_ascending _ ordered)).mpr same)
  intro earlier later _ _ less more
  exact absurd (Std.compare_eq_lt.mp less) (UInt32.lt_asymm (Std.compare_eq_lt.mp more))

theorem mem_toList (program : Program) (address : Word) (instruction : Instruction) :
    (address, instruction) ∈ program.toList ↔ program.at? address = some instruction :=
  Std.TreeMap.mem_toList_iff_getElem?_eq_some

end Program

namespace Assembly

theorem entries_ordered (lines : List Line) (entries : List (Word × Instruction))
    (linked : entries.map numbered =
      ((places lines).filterMap Place.instruction?).map (linkedEntry lines)) :
    entries.Pairwise fun earlier later =>
      earlier.1.toNat + earlier.2.operation.size ≤ later.1.toNat ∧
        earlier.2.line < later.2.line := by
  have numbers : (entries.map numbered).Pairwise fun earlier later =>
      earlier.1 + earlier.2.operation.size ≤ later.1 ∧ earlier.2.line < later.2.line := by
    rw [linked, List.pairwise_map]
    apply (instructions_ordered lines).imp
    intro earlier later order
    simpa only [linkedEntry, size_linked] using order
  exact List.pairwise_map.mp numbers

theorem ascending_of_ordered (entries : List (Word × Instruction))
    (ordered : entries.Pairwise fun earlier later =>
      earlier.1.toNat + earlier.2.operation.size ≤ later.1.toNat ∧
        earlier.2.line < later.2.line) :
    entries.Pairwise fun earlier later => earlier.1 < later.1 := by
  apply ordered.imp
  intro earlier later order
  have positive := earlier.2.operation.size_pos
  rw [UInt32.lt_iff_toNat_lt]
  omega

theorem entries_ascending (lines : List Line) (entries : List (Word × Instruction))
    (linked : entries.map numbered =
      ((places lines).filterMap Place.instruction?).map (linkedEntry lines)) :
    entries.Pairwise fun earlier later => earlier.1 < later.1 :=
  ascending_of_ordered entries (entries_ordered lines entries linked)

theorem Layout.Follows.ordered {layout : Layout} {lines : List Line}
    (follows : layout.Follows lines) :
    layout.placed.toList.Pairwise fun earlier later =>
      earlier.1.toNat + earlier.2.operation.size ≤ later.1.toNat ∧
        earlier.2.line < later.2.line := by
  have numbers := instructions_ordered lines
  rw [← follows.placed] at numbers
  exact List.pairwise_map.mp numbers

theorem Layout.Follows.toList_program {layout : Layout} {lines : List Line}
    (follows : layout.Follows lines) : layout.program.toList = layout.placed.toList :=
  Program.toList_ofList _ _ (ascending_of_ordered _ follows.ordered)

/-- The program of these lines, which are linked one after the other. -/
def assembleLines (lines : List String) : Except AssemblyError Program :=
  match Layout.ofLines lines with
  | .error error => .error error
  | .ok layout =>
    (linkAll layout.labels layout.placed.toList).map fun linked =>
      Program.ofList linked layout.labels

/-- Going through the addresses is going through the lines. -/
theorem assemble_eq (source : String) : assemble source = assembleLines (Text.lines source) := by
  rw [assemble, assembleLines]
  cases laid : Layout.ofLines (Text.lines source) with
  | error error => rfl
  | ok layout =>
      obtain ⟨_, _, follows⟩ := ofLines_follows (Text.lines source) layout laid
      simp only [follows.toList_program]

theorem linkAll_entries (layout : Layout) (lines : List Line) (follows : layout.Follows lines)
    (entries : List (Word × Instruction))
    (done : linkAll layout.labels layout.placed.toList = .ok entries) :
    entries.map numbered = ((places lines).filterMap Place.instruction?).map (linkedEntry lines) := by
  obtain ⟨same, _⟩ := linkAll_eq_ok layout lines follows _ entries done
  rw [same, ← follows.placed, List.map_map]
  rfl

/-- The program that the lines of a source make up. -/
structure LaidOut (lines : List Line) (program : Program) : Prop where
  instructions : program.toList.map numbered =
    ((places lines).filterMap Place.instruction?).map (linkedEntry lines)
  labels : definitions program.labels = (places lines).filterMap Place.definition?
  ready : ∀ entry ∈ program.toList, entry.2.operation.label? = none

theorem assemble_laidOut (source : String) (program : Program)
    (assembled : assemble source = .ok program) :
    ∃ lines, Reads source lines ∧ LaidOut lines program := by
  rw [assemble_eq, assembleLines] at assembled
  cases laid : Layout.ofLines (Text.lines source) with
  | error error => simp only [laid] at assembled; cases assembled
  | ok layout =>
      obtain ⟨lines, read, follows⟩ := ofLines_follows (Text.lines source) layout laid
      cases done : linkAll layout.labels layout.placed.toList with
      | error error => simp only [laid, done] at assembled; cases assembled
      | ok entries =>
          simp only [laid, done] at assembled
          cases assembled
          obtain ⟨_, ready⟩ := linkAll_eq_ok layout lines follows _ entries done
          have numbers := linkAll_entries layout lines follows entries done
          have listed := Program.toList_ofList entries layout.labels
            (entries_ascending lines entries numbers)
          refine ⟨lines, read, ?_, follows.labels, ?_⟩
          · rw [listed]
            exact numbers
          · rw [listed]
            exact ready

theorem lookup_isSome (labels : LabelTable) (lines : List Line)
    (same : definitions labels = (places lines).filterMap Place.definition?) (label : String) :
    (labels.lookup label).isSome ↔ label ∈ labelsOf lines := by
  rw [← names_of_definitions labels lines same, List.mem_reverse, LabelTable.names, List.mem_map,
    Option.isSome_iff_exists]
  constructor
  · rintro ⟨address, found⟩
    exact ⟨(label, address), (LabelTable.lookup_eq_some labels label address).mp found, rfl⟩
  · rintro ⟨⟨name, address⟩, entered, rfl⟩
    exact ⟨address, (LabelTable.lookup_eq_some labels name address).mpr entered⟩

theorem line_of_placed (layout : Layout) (lines : List Line) (follows : layout.Follows lines)
    (entry : Word × Instruction) (member : entry ∈ layout.placed.toList) :
    ∃ line, lines[entry.2.line]? = some line ∧ line.operation = some entry.2.operation := by
  have listed : numbered entry ∈ (places lines).filterMap Place.instruction? := by
    rw [← follows.placed]
    exact List.mem_map.mpr ⟨entry, member, rfl⟩
  obtain ⟨place, placed, instruction⟩ := List.mem_filterMap.mp listed
  obtain ⟨operation, present, same⟩ := Option.map_eq_some_iff.mp instruction
  have found := ((mem_places lines place).mp placed).1
  rw [← show (⟨operation, place.index⟩ : Instruction) = entry.2 from congrArg Prod.snd same]
  exact ⟨place.line, found, present⟩

theorem lookup_of_defined (layout : Layout) (lines : List Line) (follows : layout.Follows lines)
    (defined : Defined lines) :
    ∀ entry ∈ layout.placed.toList, ∀ label, entry.2.operation.label? = some label →
      (layout.labels.lookup label).isSome := by
  intro entry member label waits
  obtain ⟨line, found, present⟩ := line_of_placed layout lines follows entry member
  rw [lookup_isSome layout.labels lines follows.labels]
  exact defined line (List.mem_of_getElem? found) entry.2.operation present label waits

/-- Lines that fit and define each label once make up a program if they define all that they refer
to. -/
theorem assemble_succeeds (source : String) (lines : List Line) (read : Reads source lines)
    (fits : Fits lines) (once : (labelsOf lines).Nodup) (defined : Defined lines) :
    ∃ program, assemble source = .ok program := by
  obtain ⟨layout, laid⟩ := ofLines_succeeds (Text.lines source) lines read fits once
  obtain ⟨others, readAgain, follows⟩ := ofLines_follows (Text.lines source) layout laid
  obtain rfl := reads_unique source others lines readAgain read
  obtain ⟨entries, done⟩ := linkAll_succeeds layout.labels layout.placed.toList
    (lookup_of_defined layout others follows defined)
  refine ⟨Program.ofList entries layout.labels, ?_⟩
  simp only [assemble_eq, assembleLines, laid, done]
  rfl

end Assembly

end ToyComputer
