import ToyComputer.Proofs.Trailing

/-!
Lexemes: the tokens of a line stand for pieces of its text that follow one another without gaps.
Which token a piece stands for is told by the piece and by the character behind it, so what is
behind it can be exchanged for a text that begins alike.
-/

namespace ToyComputer.Assembly

open Text

def Begins (p : Char → Bool) (text : List Char) : Prop := ∃ c ∈ text.head?, p c = true

theorem not_stops_of_begins (p : Char → Bool) (text : List Char) (begins : Begins p text) :
    ¬ Stops p text := by
  rintro stops
  obtain ⟨c, first, inside⟩ := begins
  rw [stops c first] at inside
  cases inside

theorem begins_of_isName (name : String) (named : isName name = true) :
    Begins isNamePart name.toList := by
  obtain ⟨first, more, letters, _, each⟩ := (isName_iff name).mp named
  exact ⟨first, by rw [letters]; rfl, each first List.mem_cons_self⟩

/-- Either text can stand behind the token: they begin with the same character, or each with a name.
A number may take in the first letter of a name, so behind it they have to begin with the same. -/
def Alike (token : Token) (old new : List Char) : Prop :=
  new.head? = old.head? ∨
    ((∀ word, token ≠ .number word) ∧ Begins isNamePart old ∧ Begins isNamePart new)

/-- The piece of text stands for the token where this rest is behind it. -/
structure Lexeme (piece : List Char) (token : Token) (rest : List Char) : Prop where
  nonempty : piece ≠ []
  named : ∀ name, token = .identifier name →
    piece = name.toList ∧ Begins isNamePart piece ∧ Stops isNamePart rest
  scans : ∀ other more, Alike token rest other → Scans other more →
    Scans (piece ++ other) (token :: more)

theorem Alike.stops_blank {old new : List Char} {token : Token} (alike : Alike token old new)
    (stops : Stops isBlank old) : Stops isBlank new := by
  rcases alike with same | ⟨_, _, begins⟩
  · exact stops_of_head isBlank old new same stops
  · intro c first
    obtain ⟨other, again, part⟩ := begins
    rw [first] at again
    cases again
    exact (namePart_begins c part).2.2.1

theorem Alike.stops_name {old new : List Char} {token : Token} (alike : Alike token old new)
    (stops : Stops isNamePart old) : Stops isNamePart new := by
  rcases alike with same | ⟨_, begins, _⟩
  · exact stops_of_head isNamePart old new same stops
  · exact absurd stops (not_stops_of_begins isNamePart old begins)

theorem Token.Taken.lexeme {token : Token} {piece rest : List Char}
    (taken : Taken token piece rest) : Lexeme piece token rest where
  nonempty := taken.nonempty
  named name same := by
    subst same
    cases taken with
    | name _ _ named ends => exact ⟨rfl, begins_of_isName name named, ends⟩
  scans other more alike follow := by
    refine scans_taken ?_ follow
    have solid := alike.stops_blank
    rcases alike with same | ⟨noNumber, begins, _⟩
    · exact taken.exchange fun p _ stops => stops_of_head p rest other same stops
    · cases taken with
      | openBracket => exact .openBracket other
      | closeBracket => exact .closeBracket other
      | colon => exact .colon other
      | comma => exact .comma other
      | space _ _ nonempty each ends =>
          exact .space piece other nonempty each (solid ends)
      | name name _ named ends => exact absurd ends (not_stops_of_begins isNamePart rest begins)
      | number literal word => exact absurd rfl (noNumber word)

/-- The spans of the tokens follow one another through the text, up to a comment or the end. -/
inductive Cut : (offset : Nat) → (text : List Char) → (spans : List (Spanned Token)) → Prop where
  | done (offset : Nat) (text : List Char) (ended : Scans text []) : Cut offset text []
  | token (offset : Nat) (piece rest : List Char) (token : Token) (spans : List (Spanned Token))
      (lexeme : Lexeme piece token rest) (follow : Cut (offset + utf8Length piece) rest spans) :
      Cut offset (piece ++ rest) (⟨offset, offset + utf8Length piece, token⟩ :: spans)

theorem Tiled.cut {offset : Nat} {text : List Char} {spans : List (Spanned Token)}
    (tiled : Tiled offset text spans) : Cut offset text spans := by
  induction tiled with
  | done offset text ended =>
      refine .done offset text fun place => ?_
      rcases (code_eq_nil text).mp ended with rfl | ⟨comment, rfl⟩
      · exact scans_nil place
      · exact contentsFrom_comment place comment
  | token offset piece rest token spans taken follow ih =>
      exact .token offset piece rest token spans taken.lexeme ih

end ToyComputer.Assembly
