import ToyComputer.Proofs.References

/-!
Line ends: what a source assembles to is told by what its lines read as. A carriage return at the end
of a line, blanks and a comment behind it, and whether the last line is ended, make no difference.
-/

namespace ToyComputer

namespace Text

inductive LineEnd where
  | feed | returnFeed
  deriving DecidableEq, Repr

def LineEnd.text : LineEnd → String
  | feed => "\n"
  | returnFeed => "\r\n"

/-- A text consists of these lines. Each has an end, which the last one may lack. -/
inductive Written : List String → String → Prop where
  | nil : Written [] ""
  | last (line : String) (inline : '\n' ∉ line.toList) : Written [line] line
  | line (line : String) (ending : LineEnd) {lines : List String} {text : String}
    (inline : '\n' ∉ line.toList) (more : Written lines text) :
    Written (line :: lines) (line ++ ending.text ++ text)

theorem linesFrom_unended (line : List Char) (inline : '\n' ∉ line) :
    linesFrom [] line = if line = [] then [] else [line] := by
  have read := linesFrom_append [] line [] fun c member same => inline (same ▸ member)
  rw [List.append_nil, List.append_nil] at read
  rw [read, linesFrom]
  simp

theorem linesFrom_ended (line text : List Char) (ending : LineEnd) (inline : '\n' ∉ line) :
    linesFrom [] (line ++ ending.text.toList ++ text) =
      (match ending with
        | .feed => (dropCarriageReturn line.reverse).reverse
        | .returnFeed => line) :: linesFrom [] text := by
  rw [List.append_assoc, linesFrom_append [] line _ fun c member same => inline (same ▸ member),
    List.append_nil]
  cases ending with
  | feed => rfl
  | returnFeed =>
      have ended : linesFrom line.reverse (LineEnd.returnFeed.text.toList ++ text) =
          line.reverse.reverse :: linesFrom [] text := rfl
      rw [ended, List.reverse_reverse]

end Text

namespace Assembly

open Text

def Idle (text : String) : Prop := Line.ofString text = .ok ⟨none, none⟩

theorem idle_of_trails (text : String) (trails : Trails text.toList) : Idle text := by
  have read := ofString_trailing [] text.toList trails
  rw [List.nil_append, String.ofList_toList] at read
  rw [Idle, read]
  decide +kernel

theorem addLine_idle (layout : Layout) (text : String) (index : Nat) (idle : Idle text) :
    layout.addLine text index = .ok layout := by
  rw [Layout.addLine, idle]
  rfl

theorem ofLines_congr (first second : List String)
    (same : first.map Line.ofString = second.map Line.ofString) :
    Layout.ofLines first = Layout.ofLines second := by
  induction first using List.reverseRecOn generalizing second with
  | nil => rw [List.map_eq_nil_iff.mp same.symm]
  | append_singleton first text ih =>
      rw [List.map_append, eq_comm, List.map_eq_append_iff] at same
      obtain ⟨front, back, rfl, readFront, readBack⟩ := same
      obtain ⟨other, rest, rfl, read, none⟩ := List.map_eq_cons_iff.mp readBack
      obtain rfl := List.map_eq_nil_iff.mp none
      have length : first.length = front.length := by
        simpa using congrArg List.length readFront.symm
      rw [ofLines_append, ofLines_append, ih front readFront.symm, length]
      cases Layout.ofLines front with
      | error error => rfl
      | ok layout => simp only [Layout.addLine, read]

theorem assembleLines_congr (first second : List String)
    (same : first.map Line.ofString = second.map Line.ofString) :
    assembleLines first = assembleLines second := by
  rw [assembleLines, ofLines_congr first second same, assembleLines]

theorem ofLines_append_idle (lines : List String) (text : String) (idle : Idle text) :
    Layout.ofLines (lines ++ [text]) = Layout.ofLines lines := by
  rw [ofLines_append]
  cases Layout.ofLines lines with
  | error error => rfl
  | ok layout => simp only [addLine_idle layout text _ idle, Except.mapError]

theorem assembleLines_append_idle (lines : List String) (text : String) (idle : Idle text) :
    assembleLines (lines ++ [text]) = assembleLines lines := by
  rw [assembleLines, ofLines_append_idle lines text idle, assembleLines]

theorem reads_written (lines : List String) (text : String) (written : Written lines text) :
    (Text.lines text).map Line.ofString = lines.map Line.ofString ∨
      (Text.lines text ++ [""]).map Line.ofString = lines.map Line.ofString := by
  induction written with
  | nil => exact Or.inl rfl
  | last line inline =>
      rw [Text.lines, linesFrom_unended line.toList inline]
      split
      · next empty =>
          rw [String.toList_eq_nil_iff.mp empty]
          exact Or.inr rfl
      · rw [List.map_singleton, String.ofList_toList]
        exact Or.inl rfl
  | @line line ending lines text inline more ih =>
      have read : (Text.lines (line ++ ending.text ++ text)).map Line.ofString =
          Line.ofString line :: (Text.lines text).map Line.ofString := by
        rw [Text.lines, String.toList_append, String.toList_append, linesFrom_ended _ _ _ inline]
        cases ending with
        | feed =>
            rw [List.map_cons, List.map_cons, ofString_dropCarriageReturn, List.reverse_reverse,
              String.ofList_toList]
            rfl
        | returnFeed =>
            rw [List.map_cons, List.map_cons, String.ofList_toList]
            rfl
      rw [List.map_append, read, List.map_cons, List.cons_append, ← List.map_append]
      exact ih.imp (congrArg _) (congrArg _)

theorem length_lines_le (lines : List String) (text : String) (written : Written lines text) :
    (Text.lines text).length ≤ lines.length := by
  rcases reads_written lines text written with same | same
  · have length := congrArg List.length same
    rw [List.length_map, List.length_map] at length
    omega
  · have length := congrArg List.length same
    rw [List.length_map, List.length_map, List.length_append] at length
    omega

theorem assemble_written (lines : List String) (text : String) (written : Written lines text) :
    assemble text = assembleLines lines := by
  rw [assemble_eq]
  rcases reads_written lines text written with same | same
  · exact assembleLines_congr _ _ same
  · rw [← assembleLines_append_idle _ "" (idle_of_trails "" .nil)]
    exact assembleLines_congr _ _ same

/-- What trails a line, and how the lines are ended, does not change what a source assembles to, be it
a program or an error. -/
theorem assemble_trailing (rows : List (String × String)) (plain dressed : String)
    (trails : ∀ row ∈ rows, Trails row.2.toList) (one : Written (rows.map Prod.fst) plain)
    (other : Written (rows.map fun row => row.1 ++ row.2) dressed) :
    assemble dressed = assemble plain := by
  rw [assemble_written _ _ one, assemble_written _ _ other]
  apply assembleLines_congr
  rw [List.map_map, List.map_map]
  apply List.map_congr_left
  intro row member
  have read := ofString_trailing row.1.toList row.2.toList (trails row member)
  rw [← String.toList_append, String.ofList_toList, String.ofList_toList] at read
  exact read

theorem assemble_dressed :
    assemble "loop: copy r0, 1 #one\r\n\r\r\ncopy r1, -\t# open" =
        assemble "loop: copy r0, 1\n\ncopy r1, -" ∧
      (assemble "loop: copy r0, 1\n\ncopy r1, -").map Program.toList =
        .error ⟨2, .expectedDigits 10⟩ := by
  have one : Written ["loop: copy r0, 1", "", "copy r1, -"] "loop: copy r0, 1\n\ncopy r1, -" :=
    .line _ .feed (by decide) (.line _ .feed (by decide) (.last _ (by decide)))
  have other : Written ["loop: copy r0, 1 #one", "\r", "copy r1, -\t# open"]
      "loop: copy r0, 1 #one\r\n\r\r\ncopy r1, -\t# open" :=
    .line _ .returnFeed (by decide) (.line _ .returnFeed (by decide) (.last _ (by decide)))
  have trails : ∀ row ∈ [("loop: copy r0, 1", " #one"), ("", "\r"), ("copy r1, -", "\t# open")],
      Trails row.2.toList := by
    simp only [List.forall_mem_cons, List.not_mem_nil, false_imp_iff, implies_true, and_true]
    exact ⟨.blank ' ' _ rfl (.comment _), .blank '\r' _ rfl .nil, .blank '\t' _ rfl (.comment _)⟩
  exact ⟨assemble_trailing _ _ _ trails one other, by decide +kernel⟩

end Assembly

end ToyComputer
