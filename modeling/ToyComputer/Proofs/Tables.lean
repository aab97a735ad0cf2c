import ToyComputer.Proofs.Runs
import ToyComputer.Text.Column
import ToyComputer.Text.Lines

/-!
Tables: texts that are made up of rows, and the fields of a row, which are what stands between its
gaps.
-/

namespace ToyComputer.Text

open Assembly

def StaysInLine (text : String) : Prop := ∀ c ∈ text.toList, c ≠ '\n' ∧ c ≠ '\r'

theorem staysInLine_append (front back : String) :
    StaysInLine (front ++ back) ↔ StaysInLine front ∧ StaysInLine back := by
  simp only [StaysInLine, String.toList_append, List.forall_mem_append]

theorem staysInLine_alignRight (width : Nat) (text : String) (inline : StaysInLine text) :
    StaysInLine (alignRight width text) := by
  intro c member
  rw [alignRight, String.toList_ofList] at member
  rcases List.mem_append.mp member with space | member
  · rw [List.eq_of_mem_replicate space]
    decide
  · exact inline c member

theorem linesFrom_append (line text rest : List Char) (inline : ∀ c ∈ text, c ≠ '\n') :
    linesFrom line (text ++ rest) = linesFrom (text.reverse ++ line) rest := by
  induction text generalizing line with
  | nil => rfl
  | cons c text ih =>
      rw [List.cons_append, linesFrom, if_neg (inline c List.mem_cons_self),
        ih _ fun other member => inline other (List.mem_cons_of_mem _ member)]
      simp

theorem dropCarriageReturn_eq (line : List Char) (inline : '\r' ∉ line) :
    dropCarriageReturn line = line := by
  unfold dropCarriageReturn
  split
  · exact absurd List.mem_cons_self inline
  · rfl

theorem linesFrom_row (row rest : List Char) (inline : ∀ c ∈ row, c ≠ '\n' ∧ c ≠ '\r') :
    linesFrom [] (row ++ '\n' :: rest) = row :: linesFrom [] rest := by
  have noReturn : '\r' ∉ row.reverse := fun member =>
    (inline _ (List.mem_reverse.mp member)).2 rfl
  rw [linesFrom_append [] row _ fun c member => (inline c member).1, List.append_nil, linesFrom,
    if_pos rfl, dropCarriageReturn_eq _ noReturn, List.reverse_reverse]

theorem linesFrom_intercalate (texts : List (List Char)) (nonempty : [] ∉ texts)
    (inline : ∀ text ∈ texts, ∀ c ∈ text, c ≠ '\n' ∧ c ≠ '\r') :
    linesFrom [] (['\n'].intercalate texts) = texts := by
  induction texts with
  | nil => rfl
  | cons text texts ih =>
      have head := inline text List.mem_cons_self
      cases texts with
      | nil =>
          have written : text ≠ [] := fun none => nonempty (by simp [none])
          have read := linesFrom_append [] text [] fun c member => (head c member).1
          rw [List.append_nil, List.append_nil] at read
          rw [List.intercalate_singleton, read, linesFrom]
          simp [written]
      | cons next texts =>
          have tail := ih (fun member => nonempty (List.mem_cons_of_mem _ member))
            fun other member => inline other (List.mem_cons_of_mem _ member)
          rw [List.intercalate_cons_cons, List.append_assoc, List.singleton_append,
            linesFrom_row text _ head, tail]

theorem lines_intercalate (texts : List String) (nonempty : "" ∉ texts)
    (inline : ∀ text ∈ texts, ∀ c ∈ text.toList, c ≠ '\n' ∧ c ≠ '\r') :
    lines ("\n".intercalate texts) = texts := by
  have read := linesFrom_intercalate (texts.map String.toList)
    (by
      intro member
      obtain ⟨text, listed, none⟩ := List.mem_map.mp member
      rw [String.toList_eq_nil_iff.mp none] at listed
      exact nonempty listed)
    (by
      intro letters member
      obtain ⟨text, listed, rfl⟩ := List.mem_map.mp member
      exact inline text listed)
  rw [lines, String.toList_intercalate]
  change (linesFrom [] (['\n'].intercalate _)).map String.ofList = _
  rw [read, List.map_map]
  simp [Function.comp_def]

theorem lines_row (row rest : String) (inline : StaysInLine row) :
    lines (row ++ "\n" ++ rest) = row :: lines rest := by
  have letters : (row ++ "\n" ++ rest).toList = row.toList ++ '\n' :: rest.toList := by
    rw [String.toList_append, String.toList_append, List.append_assoc]
    rfl
  rw [lines, letters, linesFrom_row row.toList rest.toList inline, List.map_cons,
    String.ofList_toList]
  rfl

theorem lines_join (rows : List String) (inline : ∀ row ∈ rows, StaysInLine row) :
    lines (String.join (rows.map (· ++ "\n"))) = rows := by
  induction rows with
  | nil => rfl
  | cons row rows ih =>
      obtain ⟨head, others⟩ := List.forall_mem_cons.mp inline
      rw [List.map_cons, String.join_cons, lines_row row _ head, ih others]

def isGap (c : Char) : Bool := c == ' ' || c == ':' || c == '(' || c == ')'

structure Gap (text : String) : Prop where
  present : text ≠ ""
  blank : text.toList.all isGap = true

theorem Gap.each {text : String} (gap : Gap text) : ∀ c ∈ text.toList, isGap c = true :=
  List.all_eq_true.mp gap.blank

theorem Gap.staysInLine {text : String} (gap : Gap text) : StaysInLine text := by
  intro c member
  have inside := gap.each c member
  constructor
  all_goals
    rintro rfl
    exact absurd inside (by decide)

def fieldsOf (row : List Char) : List (List Char) :=
  (row.splitOnP isGap).filter fun field => !field.isEmpty

/-- The pieces of a row between its gaps. -/
def fields (row : String) : List String := (fieldsOf row.toList).map String.ofList

/-- A row falls apart at each of its gaps. -/
theorem fieldsOf_append (front back : List Char) (c : Char) (gap : isGap c = true) :
    fieldsOf (front ++ c :: back) = fieldsOf front ++ fieldsOf back := by
  rw [fieldsOf, List.splitOnP_append_cons front back gap, List.filter_append]
  rfl

theorem fieldsOf_gaps (gap back : List Char) (each : ∀ c ∈ gap, isGap c = true) :
    fieldsOf (gap ++ back) = fieldsOf back := by
  induction gap with
  | nil => rfl
  | cons c gap ih =>
      obtain ⟨head, others⟩ := List.forall_mem_cons.mp each
      have apart := fieldsOf_append [] (gap ++ back) c head
      rw [List.cons_append]
      exact apart.trans (ih others)

theorem fields_append {gap : String} (apart : Gap gap) (front back : String) :
    fields (front ++ gap ++ back) = fields front ++ fields back := by
  have each := apart.each
  obtain ⟨c, more, letters⟩ :=
    List.exists_cons_of_ne_nil (mt String.toList_eq_nil_iff.mp apart.present)
  rw [letters] at each
  obtain ⟨head, others⟩ := List.forall_mem_cons.mp each
  rw [fields, String.toList_append, String.toList_append, letters, List.append_assoc,
    List.cons_append, fieldsOf_append _ _ c head, fieldsOf_gaps more _ others, List.map_append]
  rfl

theorem fields_closed {gap : String} (apart : Gap gap) (front : String) :
    fields (front ++ gap) = fields front := by
  have none : fields "" = [] := rfl
  have closed := fields_append apart front ""
  rwa [String.append_empty, none, List.append_nil] at closed

theorem fields_alignRight (width : Nat) (text : String) :
    fields (alignRight width text) = fields text := by
  rw [fields, alignRight, String.toList_ofList]
  refine congrArg _ (fieldsOf_gaps _ _ fun c member => ?_)
  rw [List.eq_of_mem_replicate member]
  rfl

structure Solid (text : String) : Prop where
  present : text ≠ ""
  parts : ∀ c ∈ text.toList, c = '-' ∨ isNamePart c = true

namespace Solid

variable {text : String}

theorem of_isName (named : isName text = true) : Solid text := by
  obtain ⟨first, more, letters, _, each⟩ := (isName_iff text).mp named
  constructor
  · rintro rfl
    cases letters
  · rw [letters]
    exact fun c member => Or.inr (each c member)

theorem staysInLine (solid : Solid text) : StaysInLine text := by
  intro c member
  rcases solid.parts c member with rfl | part
  · decide
  · exact ⟨ne_of_namePart c _ part (by decide), ne_of_namePart c _ part (by decide)⟩

theorem fields (solid : Solid text) : fields text = [text] := by
  have letters : text.toList ≠ [] := mt String.toList_eq_nil_iff.mp solid.present
  have each : ∀ c ∈ text.toList, isGap c = false := by
    intro c member
    rcases solid.parts c member with rfl | part
    · decide
    · simp [isGap, ne_of_namePart c ' ' part (by decide), ne_of_namePart c ':' part (by decide),
        ne_of_namePart c '(' part (by decide), ne_of_namePart c ')' part (by decide)]
  rw [Text.fields, fieldsOf, List.splitOnP_eq_singleton each]
  simp [letters]

end Solid

end ToyComputer.Text
