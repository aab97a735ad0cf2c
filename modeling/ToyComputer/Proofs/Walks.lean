import Mathlib.Data.List.TakeWhile
import ToyComputer.Proofs.Queue
import ToyComputer.Text.Cursor

/-!
Walks: whatever is asked of a cursor, and in whatever order, it stands between two characters of its
source with exactly the rest of the source before it. What it has passed is what its answers say.
-/

namespace ToyComputer.Text

def Stands (source : String) (start stop : Nat) (text : List Char) : Prop :=
  source.toUTF8.extract start stop = (String.ofList text).toUTF8

theorem size_utf8Encode (text : List Char) : text.utf8Encode.size = utf8Length text := by
  induction text with
  | nil => rfl
  | cons c text ih =>
      have first : [c].utf8Encode.size = c.utf8Size := by
        rw [← String.toByteArray_singleton]
        exact String.utf8ByteSize_singleton
      rw [List.utf8Encode_cons, ByteArray.size_append, first, ih, utf8Length_cons]

theorem utf8ByteSize_eq (source : String) : source.utf8ByteSize = utf8Length source.toList := by
  rw [← size_utf8Encode, ← String.toByteArray_ofList, String.ofList_toList]
  rfl

theorem stands_of_append (source : String) (before text behind : List Char)
    (whole : source.toList = before ++ (text ++ behind)) :
    Stands source (utf8Length before) (utf8Length before + utf8Length text) text := by
  have bytes : source.toUTF8 = before.utf8Encode ++ (text.utf8Encode ++ behind.utf8Encode) := by
    rw [String.toUTF8_eq_toByteArray, ← String.ofList_toList (s := source), whole,
      String.toByteArray_ofList, List.utf8Encode_append, List.utf8Encode_append]
  rw [Stands, bytes, ← Nat.add_zero (utf8Length before), Nat.add_assoc,
    ByteArray.extract_append_size_add' (size_utf8Encode before).symm, Nat.zero_add,
    ByteArray.extract_append_eq_left (size_utf8Encode text).symm,
    String.toUTF8_eq_toByteArray, String.toByteArray_ofList]

structure LongestRun (p : Char → Bool) (text run : List Char) : Prop where
  begins : run <+: text
  each : ∀ c ∈ run, p c = true
  longest : ∀ other, other <+: text → (∀ c ∈ other, p c = true) → other <+: run

theorem longestRun_takeWhile (p : Char → Bool) (text : List Char) :
    LongestRun p text (text.takeWhile p) where
  begins := List.takeWhile_prefix p
  each c member := List.mem_takeWhile_imp member
  longest other begins each := by
    obtain ⟨behind, rfl⟩ := begins
    rw [List.takeWhile_append_of_pos each]
    exact List.prefix_append _ _

namespace Cursor

inductive Call where
  | position
  | rest
  | current
  | advance
  | takeWhile (p : Char → Bool)
  | skipRest

inductive Answer where
  | position (offset : Nat)
  | rest (text : List Char)
  | current (found : Option (Spanned Char))
  | advanced (found : Option (Spanned Char))
  | taken (run : Spanned (List Char))
  | skipped (text : List Char)

def call (cursor : Cursor) : Call → Answer × Cursor
  | .position => (.position cursor.offset, cursor)
  | .rest => (.rest cursor.rest, cursor)
  | .current => (.current cursor.peek?, cursor)
  | .advance => (.advanced cursor.peek?, cursor.advance)
  | .takeWhile p => (.taken (cursor.takeWhile p).1, (cursor.takeWhile p).2)
  | .skipRest => (.skipped cursor.rest, cursor.skipRest)

def Answer.consumed : Answer → List Char
  | advanced (some character) => [character.content]
  | taken run => run.content
  | skipped text => text
  | _ => []

/-- The cursor stands between two characters of the source, or at one of its ends, and has the rest
of the source before it. -/
structure Placed (source : String) (cursor : Cursor) : Prop where
  between : String.Pos.Raw.IsValid source ⟨cursor.offset⟩
  within : cursor.offset ≤ source.utf8ByteSize
  rest : Stands source cursor.offset source.utf8ByteSize cursor.rest

structure Spans (source : String) (before after : Cursor) (start stop : Nat) (text : List Char) :
    Prop where
  begins : start = before.offset
  ends : stop = after.offset
  stands : Stands source start stop text

/-- What has to come of a call. -/
def Correct (source : String) (cursor : Cursor) : Call → Prop
  | .position => cursor.call .position = (.position cursor.offset, cursor)
  | .rest => cursor.call .rest = (.rest cursor.rest, cursor)
  | .current =>
    (cursor.rest = [] ∧ cursor.call .current = (.current none, cursor)) ∨
    ∃ character, cursor.call .current = (.current (some character), cursor) ∧
      Spans source cursor cursor.advance character.start character.stop [character.content]
  | .advance =>
    (cursor.rest = [] ∧ cursor.call .advance = (.advanced none, cursor)) ∨
    ∃ character after, cursor.call .advance = (.advanced (some character), after) ∧
      Spans source cursor after character.start character.stop [character.content]
  | .takeWhile p =>
    ∃ run after, cursor.call (.takeWhile p) = (.taken run, after) ∧
      Spans source cursor after run.start run.stop run.content ∧
      LongestRun p cursor.rest run.content
  | .skipRest => cursor.call .skipRest = (.skipped cursor.rest, ⟨source.utf8ByteSize, []⟩)

/-- The cursor has passed these characters of the source. -/
structure Passed (source : String) (cursor : Cursor) (passed : List Char) : Prop where
  whole : passed ++ cursor.rest = source.toList
  offset : cursor.offset = utf8Length passed

theorem passed_ofString (source : String) : Passed source (ofString source) [] := ⟨rfl, rfl⟩

section

variable {source : String} {cursor : Cursor} {passed : List Char}

theorem Passed.placed (here : Passed source cursor passed) : Placed source cursor := by
  have size : source.utf8ByteSize = cursor.offset + utf8Length cursor.rest := by
    rw [utf8ByteSize_eq, ← here.whole, utf8Length_append, here.offset]
  refine ⟨?_, ?_, ?_⟩
  · rw [String.Pos.Raw.isValid_iff_exists_append]
    refine ⟨String.ofList passed, String.ofList cursor.rest, ?_, ?_⟩
    · rw [← String.ofList_append, here.whole, String.ofList_toList]
    · rw [String.rawEndPos, utf8ByteSize_eq, String.toList_ofList, here.offset]
  · rw [size]
    exact Nat.le_add_right _ _
  · rw [size, here.offset]
    apply stands_of_append source passed cursor.rest []
    rw [List.append_nil, here.whole]

/-- What a call consumes is the beginning of the rest, and the cursor stands behind it then. -/
theorem Passed.call (here : Passed source cursor passed) (next : Call) :
    Passed source (cursor.call next).2 (passed ++ (cursor.call next).1.consumed) := by
  have unmoved : Passed source cursor (passed ++ []) := by rwa [List.append_nil]
  obtain ⟨whole, offset⟩ := here
  cases next with
  | position | rest | current => exact unmoved
  | advance =>
      rcases cursor with ⟨place, _ | ⟨c, rest⟩⟩
      · exact unmoved
      · constructor
        · rw [← whole]
          exact List.append_assoc _ _ _
        · have further : place + c.utf8Size = utf8Length (passed ++ [c]) := by
            rw [utf8Length_append, ← offset, utf8Length_cons, utf8Length_nil, Nat.add_zero]
          exact further
  | takeWhile p =>
      constructor
      · rw [← whole, List.append_assoc]
        exact congrArg (passed ++ ·) List.takeWhile_append_dropWhile
      · rw [utf8Length_append, ← offset]
        rfl
  | skipRest =>
      constructor
      · rw [List.append_assoc, ← whole]
        exact congrArg (passed ++ ·) (List.append_nil _)
      · rw [utf8Length_append, ← offset]
        rfl

theorem Passed.spans (here : Passed source cursor passed) (after : Cursor) (text behind : List Char)
    (rest : cursor.rest = text ++ behind) (moved : after.offset = cursor.offset + utf8Length text) :
    Spans source cursor after cursor.offset after.offset text where
  begins := rfl
  ends := rfl
  stands := by
    rw [moved, here.offset]
    exact stands_of_append source passed text behind (by rw [← rest, here.whole])

theorem Passed.correct (here : Passed source cursor passed) (next : Call) :
    Correct source cursor next := by
  cases next with
  | position => rfl
  | rest => rfl
  | current =>
      rcases cursor with ⟨offset, _ | ⟨c, rest⟩⟩
      · exact Or.inl ⟨rfl, rfl⟩
      · exact Or.inr ⟨_, rfl, here.spans (advance ⟨offset, c :: rest⟩) [c] rest rfl rfl⟩
  | advance =>
      rcases cursor with ⟨offset, _ | ⟨c, rest⟩⟩
      · exact Or.inl ⟨rfl, rfl⟩
      · exact Or.inr ⟨_, _, rfl, here.spans (advance ⟨offset, c :: rest⟩) [c] rest rfl rfl⟩
  | takeWhile p =>
      have spans := here.spans (cursor.takeWhile p).2 (cursor.rest.takeWhile p)
        (cursor.rest.dropWhile p) List.takeWhile_append_dropWhile.symm rfl
      exact ⟨_, _, rfl, spans, longestRun_takeWhile p cursor.rest⟩
  | skipRest =>
      have size : cursor.offset + utf8Length cursor.rest = source.utf8ByteSize := by
        rw [utf8ByteSize_eq, ← here.whole, utf8Length_append, here.offset]
      rw [Correct, ← size]
      rfl

theorem offset_le_call (cursor : Cursor) (next : Call) :
    cursor.offset ≤ (cursor.call next).2.offset := by
  cases next with
  | position | rest | current => exact Nat.le_refl _
  | advance =>
      rcases cursor with ⟨offset, _ | ⟨c, rest⟩⟩
      · exact Nat.le_refl _
      · exact Nat.le_add_right _ _
  | takeWhile p => exact Nat.le_add_right _ _
  | skipRest => exact Nat.le_add_right _ _

theorem Passed.callAll (here : Passed source cursor passed) (calls : List Call) :
    Passed source (callAll Cursor.call cursor calls).2
      (passed ++ (callAll Cursor.call cursor calls).1.flatMap Answer.consumed) := by
  -- By induction over the calls, each of which goes on from where the one before it stopped.
  induction calls generalizing cursor passed with
  | nil =>
      rw [ToyComputer.callAll, List.flatMap_nil, List.append_nil]
      exact here
  | cons next calls ih =>
      have later := ih (here.call next)
      rw [List.append_assoc] at later
      exact later

end

/-- After any calls the cursor is placed between two characters, all that was consumed and the rest
are the source, and the next call does not go back and does what it has to. -/
theorem cursor_keeps_place (source : String) (calls : List Call) :
    let (answers, cursor) := callAll Cursor.call (ofString source) calls
    Placed source cursor ∧
    answers.flatMap Answer.consumed ++ cursor.rest = source.toList ∧
    ∀ next, cursor.offset ≤ (cursor.call next).2.offset ∧ Correct source cursor next := by
  have passed := (passed_ofString source).callAll calls
  exact ⟨passed.placed, passed.whole, fun next => ⟨offset_le_call _ next, passed.correct next⟩⟩

/-- The characters of this text take up one, two, three and four bytes. -/
example :
    (callAll call (ofString "aé€😀") [.advance, .takeWhile (· != '😀'), .position]).2.offset = 6 := by
  decide +kernel

end Cursor

end ToyComputer.Text
