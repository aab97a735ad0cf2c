import Mathlib.Data.List.TakeWhile
import ToyComputer.Assembly.Token

/-!
Runs: how far a text goes on with characters of one class, and which characters belong to words.
-/

namespace ToyComputer.Assembly

open ToyComputer.Text

/-- The text does not begin with more of a run of `p`. -/
def Stops (p : Char → Bool) (text : List Char) : Prop := ∀ c ∈ text.head?, p c = false

theorem stops_nil (p : Char → Bool) : Stops p [] := by simp [Stops]

theorem stops_cons (p : Char → Bool) (c : Char) (text : List Char) (other : p c = false) :
    Stops p (c :: text) := by simpa [Stops] using other

theorem stops_append (p : Char → Bool) (front back : List Char) (outside : ∀ c ∈ front, p c = false)
    (stops : Stops p back) : Stops p (front ++ back) := by
  cases front with
  | nil => exact stops
  | cons c front => exact stops_cons p c _ (outside c List.mem_cons_self)

theorem stops_of_narrower (p wide : Char → Bool) (text : List Char)
    (narrower : ∀ c, p c = true → wide c = true) (stops : Stops wide text) : Stops p text := by
  intro c first
  have outside := stops c first
  cases inside : p c with
  | false => rfl
  | true => rw [narrower c inside] at outside; cases outside

section

variable (p : Char → Bool) (run rest : List Char)

theorem takeWhile_append_of_stops (all : ∀ c ∈ run, p c = true) (stops : Stops p rest) :
    (run ++ rest).takeWhile p = run := by
  rw [List.takeWhile_append_of_pos all]
  cases rest with
  | nil => simp
  | cons c rest => simp [stops c rfl]

theorem dropWhile_append_of_stops (all : ∀ c ∈ run, p c = true) (stops : Stops p rest) :
    (run ++ rest).dropWhile p = rest := by
  rw [List.dropWhile_append_of_pos all]
  cases rest with
  | nil => simp
  | cons c rest => simp [stops c rfl]

end

theorem takeWhile_of_stops (p : Char → Bool) (offset : Nat) (run rest : List Char)
    (all : ∀ c ∈ run, p c = true) (stops : Stops p rest) :
    Cursor.takeWhile p ⟨offset, run ++ rest⟩ =
      (⟨offset, offset + utf8Length run, run⟩, ⟨offset + utf8Length run, rest⟩) := by
  simp only [Cursor.takeWhile, takeWhile_append_of_stops p run rest all stops,
    dropWhile_append_of_stops p run rest all stops]

theorem stops_of_head (p : Char → Bool) (old new : List Char) (same : new.head? = old.head?)
    (stops : Stops p old) : Stops p new := by
  rw [Stops, same]
  exact stops

theorem all_takeWhile (p : Char → Bool) (text : List Char) : ∀ c ∈ text.takeWhile p, p c = true :=
  fun c member => List.all_eq_true.mp List.all_takeWhile c member

theorem stops_dropWhile (p : Char → Bool) (text tail : List Char)
    (stops : text.dropWhile p = [] → Stops p tail) : Stops p (text.dropWhile p ++ tail) := by
  cases left : text.dropWhile p with
  | nil => exact stops left
  | cons c rest =>
      apply stops_cons
      have := List.head?_dropWhile_not p text
      rw [left] at this
      simpa using this

theorem stops_takeWhile (p : Char → Bool) (text : List Char) : Stops p (text.dropWhile p) := by
  have stops := stops_dropWhile p text [] fun _ => stops_nil p
  rwa [List.append_nil] at stops

theorem isBlank_iff (c : Char) : isBlank c = true ↔ c = ' ' ∨ c = '\t' ∨ c = '\r' := by
  simp only [isBlank, Bool.or_eq_true, beq_iff_eq, or_assoc]

theorem ne_of_namePart (c mark : Char) (part : isNamePart c = true)
    (outside : isNamePart mark = false) : c ≠ mark := by
  rintro rfl
  exact Bool.false_ne_true (outside.symm.trans part)

theorem namePart_begins (c : Char) (part : isNamePart c = true) :
    c ≠ '#' ∧ Token.punctuation? c = none ∧ isBlank c = false ∧ c ≠ '-' := by
  have other (mark : Char) (outside : isNamePart mark = false) : c ≠ mark :=
    ne_of_namePart c mark part outside
  refine ⟨other '#' (by decide), ?_, ?_, other '-' (by decide)⟩
  · rw [Token.punctuation?, if_neg (other '[' (by decide)), if_neg (other ']' (by decide)),
      if_neg (other ':' (by decide)), if_neg (other ',' (by decide))]
  · simp [isBlank, other ' ' (by decide), other '\t' (by decide), other '\r' (by decide)]

theorem digit_namePart (c : Char) (digit : c.isDigit = true) : isNamePart c = true := by
  simp [isNamePart, Char.isAlphanum, digit]

theorem letter_namePart (c : Char) (letter : c.isUpper = true ∨ c.isLower = true) :
    isNamePart c = true := by
  have alpha : c.isAlpha = true := Bool.or_eq_true_iff.mpr letter
  simp [isNamePart, Char.isAlphanum, alpha]

theorem hexadecimal_namePart (c : Char) (part : Literal.isHexadecimalPart c = true) :
    isNamePart c = true := by
  simp only [Literal.isHexadecimalPart, isHexDigit, Bool.or_eq_true, Bool.and_eq_true,
    decide_eq_true_eq] at part
  rcases part with ((digit | ⟨least, most⟩) | ⟨least, most⟩) | underscore
  · exact digit_namePart c digit
  · have most : c ≤ 'z' := Char.le_trans most (by decide)
    have lower : c.isLower = true :=
      Bool.and_eq_true_iff.mpr ⟨decide_eq_true least, decide_eq_true most⟩
    exact letter_namePart c (Or.inr lower)
  · have most : c ≤ 'Z' := Char.le_trans most (by decide)
    exact letter_namePart c (Or.inl (decide_eq_true ⟨least, most⟩))
  · simp [isNamePart, underscore]

def isName (text : String) : Bool :=
  match text.toList with
  | [] => false
  | first :: more => !first.isDigit && (first :: more).all isNamePart

theorem isName_iff (text : String) : isName text = true ↔ ∃ first more,
    text.toList = first :: more ∧ first.isDigit = false ∧
      ∀ c ∈ first :: more, isNamePart c = true := by
  unfold isName
  cases letters : text.toList with
  | nil => simp
  | cons first more =>
      simp only [Bool.and_eq_true, Bool.not_eq_true', List.all_eq_true]
      constructor
      · exact fun named => ⟨first, more, rfl, named⟩
      · rintro ⟨_, _, same, named⟩
        cases same
        exact named

end ToyComputer.Assembly
