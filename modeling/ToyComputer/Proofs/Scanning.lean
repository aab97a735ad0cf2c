import ToyComputer.Proofs.Tiling

/-!
Scanning: which tokens a text is cut into, from its words and marks. A word ends where no more of it
follows, so words are put in front of a text one after the other.
-/

namespace ToyComputer.Assembly

open ToyComputer.Text

/-- The text is cut into these tokens, wherever in a line it begins. -/
def Scans (text : List Char) (tokens : List Token) : Prop :=
  ∀ offset, (Token.scanAll ⟨offset, text⟩).map (·.map Spanned.content) = .ok tokens

theorem scans_nil : Scans [] [] := by
  intro offset
  rw [Token.scanAll]
  rfl

theorem scans_taken {token : Token} {piece rest : List Char} {tokens : List Token}
    (taken : Token.Taken token piece rest) (follow : Scans rest tokens) :
    Scans (piece ++ rest) (token :: tokens) := by
  obtain ⟨first, more, rfl, plain, scanned⟩ := taken.scan
  intro offset
  have others := follow (offset + utf8Length (first :: more))
  rw [List.cons_append, scanAll_cons first (more ++ rest) offset plain, ← List.cons_append,
    scanned offset]
  cases spans : Token.scanAll ⟨offset + utf8Length (first :: more), rest⟩ with
  | error error => rw [spans] at others; cases others
  | ok spans' =>
      rw [spans] at others
      cases others
      simp only [spans]
      rfl

theorem scans_space (rest : List Char) (tokens : List Token) (stops : Stops isBlank rest)
    (follow : Scans rest tokens) : Scans (' ' :: rest) (.space :: tokens) :=
  scans_taken (.space [' '] rest (by decide) (List.forall_mem_singleton.mpr rfl) stops) follow

/-- Stands for these tokens where nothing follows that could be part of its last word, and stays
within a line. -/
structure Spells (text : List Char) (tokens : List Token) : Prop where
  begins : ∃ first more, text = first :: more ∧ isBlank first = false
  inline : ∀ c ∈ text, c ≠ '\n' ∧ c ≠ '\r'
  scans : ∀ rest more, Stops isNamePart rest → Scans rest more →
    Scans (text ++ rest) (tokens ++ more)

structure Separates (text : List Char) (tokens : List Token) : Prop where
  ends : ∀ rest, Stops isNamePart (text ++ rest)
  inline : ∀ c ∈ text, c ≠ '\n' ∧ c ≠ '\r'
  scans : ∀ rest more, Stops isBlank rest → Scans rest more → Scans (text ++ rest) (tokens ++ more)

theorem separates_space : Separates [' '] [.space] where
  ends rest := stops_cons _ _ _ (by decide)
  inline := by simp
  scans rest more stops follow := scans_space rest more stops follow

theorem separates_comma : Separates [',', ' '] [.comma, .space] where
  ends rest := stops_cons _ _ _ (by decide)
  inline := by simp
  scans rest more stops follow := by
    have spaced := scans_space rest more stops follow
    have joined := scans_taken (.comma (' ' :: rest)) spaced
    exact joined

section

variable {text other separator : List Char} {tokens others marks : List Token}

theorem Spells.stops_blank (spelled : Spells text tokens) (rest : List Char) :
    Stops isBlank (text ++ rest) := by
  obtain ⟨first, more, rfl, solid⟩ := spelled.begins
  exact stops_cons _ _ _ solid

theorem Spells.join (spelled : Spells text tokens) (separates : Separates separator marks)
    (follows : Spells other others) :
    Spells (text ++ separator ++ other) (tokens ++ marks ++ others) where
  begins := by
    obtain ⟨first, more, rfl, solid⟩ := spelled.begins
    exact ⟨first, more ++ separator ++ other, rfl, solid⟩
  inline := by
    intro c member
    rcases List.mem_append.mp member with member | member
    · rcases List.mem_append.mp member with member | member
      · exact spelled.inline c member
      · exact separates.inline c member
    · exact follows.inline c member
  scans := by
    intro rest more stops scanned
    simp only [List.append_assoc]
    apply spelled.scans _ _ (separates.ends _)
    exact separates.scans _ _ (follows.stops_blank rest) (follows.scans rest more stops scanned)

theorem Spells.bracketed (spelled : Spells text tokens) :
    Spells ('[' :: text ++ [']']) (.openBracket :: tokens ++ [.closeBracket]) where
  begins := ⟨'[', text ++ [']'], rfl, by decide⟩
  inline := by
    intro c member
    rcases List.mem_append.mp member with member | member
    · rcases List.mem_cons.mp member with rfl | member
      · decide
      · exact spelled.inline c member
    · rw [List.mem_singleton.mp member]
      decide
  scans := by
    intro rest more _ scanned
    simp only [List.cons_append, List.append_assoc, List.nil_append]
    apply scans_taken (.openBracket _)
    apply spelled.scans _ _ (stops_cons _ _ _ (by decide))
    exact scans_taken (.closeBracket rest) scanned

end

theorem spells_intercalate (separator : List Char) (marks : List Token)
    (separates : Separates separator marks) (pieces : List (List Char × List Token))
    (nonempty : pieces ≠ []) (spelled : ∀ piece ∈ pieces, Spells piece.1 piece.2) :
    Spells (separator.intercalate (pieces.map Prod.fst))
      (marks.intercalate (pieces.map Prod.snd)) := by
  induction pieces with
  | nil => exact absurd rfl nonempty
  | cons piece rest ih =>
      obtain ⟨head, others⟩ := List.forall_mem_cons.mp spelled
      cases rest with
      | nil => simpa [List.intercalate_singleton] using head
      | cons next rest =>
          have tail := ih (by simp) others
          have joined := head.join separates tail
          simpa [List.intercalate_cons_cons, List.append_assoc] using joined

theorem spells_taken (token : Token) (piece : List Char) (solid : token ≠ .space)
    (taken : ∀ rest, Stops isNamePart rest → Token.Taken token piece rest) :
    Spells piece [token] where
  begins := by
    have alone := taken [] (stops_nil _)
    obtain ⟨first, more, rfl⟩ := List.exists_cons_of_ne_nil alone.nonempty
    exact ⟨first, more, rfl, alone.solid solid first List.mem_cons_self⟩
  inline := by
    intro c member
    have part := (taken [] (stops_nil _)).parts solid c member
    constructor
    all_goals
      rintro rfl
      exact absurd part (by decide)
  scans rest more stops follow := scans_taken (taken rest stops) follow

theorem spells_name (name : String) (named : isName name = true) :
    Spells name.toList [.identifier name] :=
  spells_taken _ _ nofun fun rest stops => .name name rest named stops

theorem spells_literal (piece : List Char) (word : Word) (isLiteral : IsLiteral piece word) :
    Spells piece [.number word] := by
  obtain ⟨literal, written, digits, denotes⟩ := isLiteral
  exact spells_taken _ _ nofun fun rest stops =>
    .number literal word piece rest written digits denotes (literal.ends_of_word rest stops)

theorem isName_of_ofLine (line : String) (spans : List (Spanned Token))
    (scanned : Token.ofLine line = .ok spans) (span : Spanned Token) (member : span ∈ spans)
    (name : String) (identifies : span.content = .identifier name) : isName name = true := by
  obtain ⟨before, piece, behind, covers⟩ :=
    ((ofLine_eq_ok line spans).mp scanned).covers span member
  have taken := covers.taken
  rw [identifies] at taken
  cases taken with
  | name _ _ named ends => exact named

end ToyComputer.Assembly
