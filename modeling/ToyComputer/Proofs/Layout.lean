import ToyComputer.Assembly.Layout
import ToyComputer.Proofs.Places

/-!
Assembling: the program that a source becomes is told by its lines alone. Each instruction stands at
the place of its line, and each label names the place of the line that defines it.
-/

namespace ToyComputer.Assembly

/-- The source reads as these lines, none of which is wrong. -/
def Reads (source : String) (lines : List Line) : Prop :=
  (Text.lines source).map Line.ofString = lines.map .ok

theorem lines_unique (texts : List String) (first second : List Line)
    (one : texts.map Line.ofString = first.map .ok)
    (other : texts.map Line.ofString = second.map .ok) : first = second :=
  (List.map_inj_right fun _ _ equal => Except.ok.inj equal).mp (one.symm.trans other)

theorem reads_unique (source : String) (first second : List Line) (one : Reads source first)
    (other : Reads source second) : first = second :=
  lines_unique (Text.lines source) first second one other

theorem text_of_line (texts : List String) (lines : List Line) (index : Nat) (line : Line)
    (read : texts.map Line.ofString = lines.map .ok) (there : lines[index]? = some line) :
    ∃ text, texts[index]? = some text ∧ Line.ofString text = .ok line := by
  have parsed : (texts.map Line.ofString)[index]? = some (.ok line) := by
    rw [read, List.getElem?_map, there]
    rfl
  rwa [List.getElem?_map, Option.map_eq_some_iff] at parsed

theorem reads_of_toOption (source : String) (lines : List Line)
    (checked : (Text.lines source).map (fun text => (Line.ofString text).toOption) =
      lines.map some) : Reads source lines := by
  unfold Reads
  generalize Text.lines source = texts at checked
  induction texts generalizing lines with
  | nil =>
      cases lines with
      | nil => rfl
      | cons line lines => cases checked
  | cons text texts ih =>
      cases lines with
      | nil => cases checked
      | cons line lines =>
          have first : (Line.ofString text).toOption = some line := (List.cons.inj checked).1
          rw [List.map_cons, List.map_cons, ih lines (List.cons.inj checked).2]
          cases read : Line.ofString text with
          | error error => rw [read] at first; cases first
          | ok other => rw [read] at first; cases first; rfl

theorem assembles (source : String) (checked : (assemble source).isOk = true) :
    assemble source = .ok ((assemble source).toOption.getD {}) := by
  cases assembled : assemble source with
  | error error => rw [assembled] at checked; cases checked
  | ok program => rfl

namespace Place

def instruction? (place : Place) : Option (Nat × Instruction) :=
  place.line.operation.map fun operation => (place.address, ⟨operation, place.index⟩)

def definition? (place : Place) : Option (String × Nat) :=
  place.line.label.map fun label => (label, place.address)

end Place

theorem placement_eq_ok (next : Nat) (address : Word) :
    placement next = .ok address ↔ address.toNat = next := by
  unfold placement
  split
  · next small =>
      constructor
      · intro placed
        cases placed
        exact UInt32.toNat_ofNat_of_lt' small
      · intro same
        subst same
        rw [UInt32.ofNat_toNat]
  · next large =>
      constructor
      · intro placed; cases placed
      · intro same
        subst same
        exact absurd (UInt32.toNat_lt address) large

def definitions (table : LabelTable) : List (String × Nat) :=
  table.entries.reverse.map fun entry => (entry.1, entry.2.toNat)

/-- What a layout knows of the lines before it. The table has the latest definition first. -/
structure Layout.Follows (layout : Layout) (lines : List Line) : Prop where
  next : layout.next = totalSize lines
  placed : layout.placed.toList.map (fun entry => (entry.1.toNat, entry.2)) =
    (places lines).filterMap Place.instruction?
  labels : definitions layout.labels = (places lines).filterMap Place.definition?

theorem follows_nil : Layout.Follows {} [] := ⟨rfl, rfl, rfl⟩

theorem addLabel_spec (layout after : Layout) (label? : Option String)
    (added : layout.addLabel label? = .ok after) :
    after.next = layout.next ∧ after.placed = layout.placed ∧
      definitions after.labels =
        definitions layout.labels ++ (label?.map fun label => (label, layout.next)).toList := by
  cases label? with
  | none =>
      cases added
      exact ⟨rfl, rfl, (List.append_nil _).symm⟩
  | some label =>
      simp only [Layout.addLabel] at added
      split at added
      · cases added
      · next address placed =>
          unfold LabelTable.define at added
          split at added
          · cases added
          · cases added
            have located := (placement_eq_ok _ _).mp placed
            exact ⟨rfl, rfl, by simp [definitions, located]⟩

theorem addOperation_spec (layout after : Layout) (index : Nat) (operation? : Option Operation)
    (added : layout.addOperation index operation? = .ok after) :
    after.labels = layout.labels ∧
      after.next = layout.next + (operation?.map Operation.size).getD 0 ∧
      after.placed.toList.map (fun entry => (entry.1.toNat, entry.2)) =
        layout.placed.toList.map (fun entry => (entry.1.toNat, entry.2)) ++
          (operation?.map fun operation =>
            (layout.next, (⟨operation, index⟩ : Instruction))).toList := by
  cases operation? with
  | none =>
      cases added
      exact ⟨rfl, rfl, (List.append_nil _).symm⟩
  | some operation =>
      simp only [Layout.addOperation] at added
      cases placed : placement layout.next with
      | error error => rw [placed] at added; cases added
      | ok address =>
          rw [placed] at added
          cases added
          have located := (placement_eq_ok _ _).mp placed
          exact ⟨rfl, rfl, by simp [located]⟩

theorem addLine_follows (layout after : Layout) (lines : List Line) (text : String)
    (follows : layout.Follows lines) (added : layout.addLine text lines.length = .ok after) :
    ∃ line, Line.ofString text = .ok line ∧ after.Follows (lines ++ [line]) := by
  -- A label is the first thing on its line, so it gets the address where the line begins.
  unfold Layout.addLine at added
  cases read : Line.ofString text with
  | error error => rw [read] at added; cases added
  | ok line =>
      rw [read] at added
      refine ⟨line, rfl, ?_⟩
      cases labelled : layout.addLabel line.label with
      | error error => simp only [labelled] at added; cases added
      | ok middle =>
          simp only [labelled] at added
          obtain ⟨sameNext, samePlaced, labels⟩ := addLabel_spec layout middle line.label labelled
          obtain ⟨sameLabels, next, placed⟩ :=
            addOperation_spec middle after lines.length line.operation added
          constructor
          · rw [next, sameNext, follows.next, totalSize_append, totalSize_singleton, Line.size]
          · rw [placed, samePlaced, follows.placed, sameNext, follows.next, filterMap_places_append]
            rfl
          · rw [sameLabels, labels, follows.labels, follows.next, filterMap_places_append]
            rfl

theorem ofLines_append (texts : List String) (text : String) :
    Layout.ofLines (texts ++ [text]) =
      match Layout.ofLines texts with
      | .error error => .error error
      | .ok layout =>
        (layout.addLine text texts.length).mapError fun cause => ⟨texts.length, cause⟩ := by
  rw [Layout.ofLines, List.zipIdx_append, List.foldlM_append, List.zipIdx_singleton, Nat.zero_add]
  change (Layout.ofLines texts).bind _ = _
  cases Layout.ofLines texts with
  | error error => rfl
  | ok layout =>
      exact bind_pure ((layout.addLine text texts.length).mapError fun cause =>
        (⟨texts.length, cause⟩ : AssemblyError))

theorem ofLines_follows (texts : List String) (layout : Layout)
    (laid : Layout.ofLines texts = .ok layout) :
    ∃ lines, texts.map Line.ofString = lines.map .ok ∧ layout.Follows lines := by
  induction texts using List.reverseRecOn generalizing layout with
  | nil =>
      cases laid
      exact ⟨[], rfl, follows_nil⟩
  | append_singleton texts text ih =>
      rw [ofLines_append] at laid
      cases before : Layout.ofLines texts with
      | error error => rw [before] at laid; cases laid
      | ok middle =>
          rw [before] at laid
          obtain ⟨lines, read, follows⟩ := ih middle before
          have length : texts.length = lines.length := by simpa using congrArg List.length read
          cases added : middle.addLine text texts.length with
          | error error => simp only [added] at laid; cases laid
          | ok after =>
              simp only [added] at laid
              cases laid
              rw [length] at added
              obtain ⟨line, readLine, afterFollows⟩ :=
                addLine_follows middle layout lines text follows added
              refine ⟨lines ++ [line], ?_, afterFollows⟩
              rw [List.map_append, List.map_append, read, List.map_singleton, readLine,
                List.map_singleton]

def labelsOf (lines : List Line) : List String := lines.filterMap Line.label

theorem labels_of_places (lines : List Line) :
    ((places lines).filterMap Place.definition?).map Prod.fst = labelsOf lines := by
  induction lines using List.reverseRecOn with
  | nil => rfl
  | append_singleton lines line ih =>
      rw [filterMap_places_append, List.map_append, ih, labelsOf, labelsOf, List.filterMap_append]
      congr 1
      cases labelled : line.label with
      | none => simp [Place.definition?, labelled]
      | some label => simp [Place.definition?, labelled]

theorem names_of_definitions (labels : LabelTable) (lines : List Line)
    (same : definitions labels = (places lines).filterMap Place.definition?) :
    labels.names.reverse = labelsOf lines := by
  rw [← labels_of_places, ← same, definitions, List.map_map, LabelTable.names, ← List.map_reverse]
  rfl

theorem labels_distinct (labels : LabelTable) (lines : List Line)
    (same : definitions labels = (places lines).filterMap Place.definition?) :
    (labelsOf lines).Nodup := by
  rw [← names_of_definitions labels lines same]
  exact List.pairwise_reverse.mpr (labels.distinct.imp fun differ => differ.symm)

/-- Only what has an address has to fit: the program may end at the last address. -/
def Fits (lines : List Line) : Prop :=
  ∀ place ∈ places lines,
    place.line.label.isSome ∨ place.line.operation.isSome → place.address < 0x100000000

theorem placement_of_fits (next : Nat) (small : next < 0x100000000) :
    placement next = .ok (UInt32.ofNat next) := by
  rw [placement, if_pos small]

theorem addLine_succeeds (layout : Layout) (lines : List Line) (text : String) (line : Line)
    (follows : layout.Follows lines) (read : Line.ofString text = .ok line)
    (fits : line.label.isSome ∨ line.operation.isSome → totalSize lines < 0x100000000)
    (fresh : ∀ label, line.label = some label → label ∉ labelsOf lines) :
    ∃ after, layout.addLine text lines.length = .ok after := by
  have labelled : ∃ middle, layout.addLabel line.label = .ok middle := by
    cases named : line.label with
    | none => exact ⟨layout, rfl⟩
    | some label =>
        have small : layout.next < 0x100000000 := by
          rw [follows.next]
          exact fits (Or.inl (by rw [named]; rfl))
        have absent : label ∉ layout.labels.names := by
          rw [← List.mem_reverse, names_of_definitions layout.labels lines follows.labels]
          exact fresh label named
        simp only [Layout.addLabel, placement_of_fits _ small, LabelTable.define, dif_neg absent]
        exact ⟨_, rfl⟩
  obtain ⟨middle, labelled⟩ := labelled
  have sameNext := (addLabel_spec layout middle line.label labelled).1
  simp only [Layout.addLine, read, labelled]
  cases operated : line.operation with
  | none => exact ⟨middle, rfl⟩
  | some operation =>
      have small : middle.next < 0x100000000 := by
        rw [sameNext, follows.next]
        exact fits (Or.inr (by rw [operated]; rfl))
      simp only [Layout.addOperation, placement_of_fits _ small]
      exact ⟨_, rfl⟩

theorem fits_front (before after : List Line) (fits : Fits (before ++ after)) : Fits before := by
  intro place member present
  exact fits place (mem_places_append before after place member) present

theorem ofLines_succeeds (texts : List String) (lines : List Line)
    (read : texts.map Line.ofString = lines.map .ok) (fits : Fits lines)
    (once : (labelsOf lines).Nodup) : ∃ layout, Layout.ofLines texts = .ok layout := by
  induction lines using List.reverseRecOn generalizing texts with
  | nil =>
      rw [List.map_nil, List.map_eq_nil_iff] at read
      subst read
      exact ⟨{}, rfl⟩
  | append_singleton lines line ih =>
      rw [List.map_append, List.map_eq_append_iff] at read
      obtain ⟨front, back, rfl, readFront, readBack⟩ := read
      obtain ⟨text, readText, rfl⟩ : ∃ text, Line.ofString text = .ok line ∧ back = [text] := by
        obtain ⟨text, rest, rfl, readText, none⟩ := List.map_eq_cons_iff.mp readBack
        exact ⟨text, readText, by rw [List.map_eq_nil_iff.mp none]⟩
      have distinct := once
      rw [labelsOf, List.filterMap_append, List.nodup_append] at distinct
      obtain ⟨layout, laid⟩ := ih front readFront (fits_front lines [line] fits) distinct.1
      obtain ⟨lines', readAgain, follows⟩ := ofLines_follows front layout laid
      obtain rfl := lines_unique front lines' lines readAgain readFront
      have last : (⟨totalSize lines', lines'.length, line⟩ : Place) ∈
          places (lines' ++ [line]) := by
        rw [places_append_singleton]
        exact List.mem_append_right _ (List.mem_singleton_self _)
      have fresh : ∀ label, line.label = some label → label ∉ labelsOf lines' := by
        intro label named member
        exact distinct.2.2 label member label (by simp [named]) rfl
      obtain ⟨after, added⟩ := addLine_succeeds layout lines' text line follows readText
        (fits _ last) fresh
      have length : front.length = lines'.length := by simpa using congrArg List.length readFront
      refine ⟨after, ?_⟩
      rw [ofLines_append, laid, length]
      simp only [added]
      rfl

end ToyComputer.Assembly
