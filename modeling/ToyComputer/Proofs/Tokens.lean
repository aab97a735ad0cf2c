import ToyComputer.Proofs.Literals

/-!
Tokens: the piece of text that each token stands for, and where that piece ends. Scanning takes
exactly such a piece, or finds a character that begins none.
-/

namespace ToyComputer.Assembly

open ToyComputer.Text

namespace Token

/-- The token stands for the piece where this is behind it. A run of characters goes on as long as
it can, and so does a literal. -/
inductive Taken : Token → (piece behind : List Char) → Prop
  | openBracket (behind : List Char) : Taken .openBracket ['['] behind
  | closeBracket (behind : List Char) : Taken .closeBracket [']'] behind
  | colon (behind : List Char) : Taken .colon [':'] behind
  | comma (behind : List Char) : Taken .comma [','] behind
  | space (piece behind : List Char) (nonempty : piece ≠ []) (each : ∀ c ∈ piece, isBlank c = true)
      (ends : Stops isBlank behind) : Taken .space piece behind
  | name (name : String) (behind : List Char) (named : isName name = true)
      (ends : Stops isNamePart behind) : Taken (.identifier name) name.toList behind
  | number (literal : Literal) (word : Word) (piece behind : List Char)
      (written : literal.Written piece) (digits : literal.hasDigits = true)
      (denotes : literal.Denotes word) (ends : literal.Ends behind) :
      Taken (.number word) piece behind

def IsAlien (c : Char) : Prop :=
  c ∉ ['[', ']', ':', ',', '#', '-', '_', ' ', '\t', '\r'] ∧ c.isAlphanum = false

end Token

theorem isMark_namePart (c : Char) (marks : isMark c = true) : isNamePart c = true := by
  rcases (isMark_iff c).mp marks with rfl | rfl
  all_goals decide

namespace Literal

variable {literal : Literal} {piece : List Char}

theorem Written.begins (written : Written literal piece) :
    ∃ first rest, piece = first :: rest ∧ startsLiteral first = true := by
  cases written with
  | marked mark digits marks each => exact ⟨'0', _, rfl, rfl⟩
  | negative digits each => exact ⟨'-', _, rfl, rfl⟩
  | plain _ nonempty each =>
      obtain ⟨first, rest, rfl⟩ := List.exists_cons_of_ne_nil nonempty
      exact ⟨first, rest, rfl, by simp [startsLiteral, each first List.mem_cons_self]⟩

theorem Written.parts (written : Written literal piece) :
    ∀ c ∈ piece, c = '-' ∨ isNamePart c = true := by
  intro c member
  cases written with
  | marked mark digits marks each =>
      right
      rcases List.mem_cons.mp member with rfl | member
      · decide
      · rcases List.mem_cons.mp member with rfl | member
        · exact isMark_namePart c marks
        · exact hexadecimal_namePart c (each c member)
  | negative digits each =>
      rcases List.mem_cons.mp member with rfl | member
      · exact Or.inl rfl
      · exact Or.inr (digit_namePart c (each c member))
  | plain _ nonempty each => exact Or.inr (digit_namePart c (each c member))

theorem goesOn_namePart (literal : Literal) (c : Char) (more : literal.goesOn c = true) :
    isNamePart c = true := by
  cases literal with
  | hexadecimal digits => exact hexadecimal_namePart c more
  | decimal negative digits => exact digit_namePart c more

theorem ends_of_word (literal : Literal) (behind : List Char) (stops : Stops isNamePart behind) :
    literal.Ends behind where
  digits := stops_of_narrower _ _ behind literal.goesOn_namePart stops
  mark _ := stops_of_narrower _ _ behind isMark_namePart stops

theorem check_ne_unexpected (literal : Spanned Literal) (c : Char) (column : Nat) :
    check literal ≠ .error (.unexpectedCharacter c column) := by
  unfold check
  split
  · split <;> simp
  · simp

theorem check_eq_ok (literal : Spanned Literal) (word : Word) :
    check literal = .ok word ↔
      literal.content.hasDigits = true ∧ literal.content.value? = some word := by
  unfold check
  split
  · next digits =>
      cases value : literal.content.value? <;> simp [digits]
  · next noDigits => simp [noDigits]

end Literal

theorem startsLiteral_begins (c : Char) (starts : startsLiteral c = true) :
    c ≠ '#' ∧ Token.punctuation? c = none ∧ isBlank c = false := by
  simp only [startsLiteral, Bool.or_eq_true, beq_iff_eq] at starts
  rcases starts with rfl | digit
  · decide
  · obtain ⟨plain, noMark, solid, _⟩ := namePart_begins c (digit_namePart c digit)
    exact ⟨plain, noMark, solid⟩

theorem punctuation?_cases (c : Char) (token : Token) (marks : Token.punctuation? c = some token) :
    (c = '[' ∧ token = .openBracket) ∨ (c = ']' ∧ token = .closeBracket) ∨
      (c = ':' ∧ token = .colon) ∨ (c = ',' ∧ token = .comma) := by
  unfold Token.punctuation? at marks
  split at marks
  · next same => exact Or.inl ⟨same, (Option.some.inj marks).symm⟩
  · split at marks
    · next same => exact Or.inr (Or.inl ⟨same, (Option.some.inj marks).symm⟩)
    · split at marks
      · next same => exact Or.inr (Or.inr (Or.inl ⟨same, (Option.some.inj marks).symm⟩))
      · split at marks
        · next same => exact Or.inr (Or.inr (Or.inr ⟨same, (Option.some.inj marks).symm⟩))
        · cases marks

theorem Token.IsAlien.begins {c : Char} (alien : Token.IsAlien c) :
    Token.punctuation? c = none ∧ isBlank c = false ∧ startsLiteral c = false ∧
      isNamePart c = false := by
  obtain ⟨outside, noWord⟩ := alien
  have noDigit : c.isDigit = false := (Bool.or_eq_false_iff.mp noWord).2
  simp only [List.mem_cons, List.not_mem_nil, or_false, not_or] at outside
  simp [Token.punctuation?, isBlank, startsLiteral, isNamePart, outside, noDigit, noWord]

/-- Outside of comments a character begins a mark, blanks, a number or a name, or it is alien. -/
theorem begins_cases (c : Char) (plain : c ≠ '#') :
    (∃ mark, Token.punctuation? c = some mark) ∨ isBlank c = true ∨ startsLiteral c = true ∨
      (startsLiteral c = false ∧ isNamePart c = true) ∨ Token.IsAlien c := by
  cases marks : Token.punctuation? c with
  | some mark => exact Or.inl ⟨mark, rfl⟩
  | none =>
      right
      cases blank : isBlank c with
      | true => exact Or.inl rfl
      | false =>
          right
          cases starts : startsLiteral c with
          | true => exact Or.inl rfl
          | false =>
              right
              cases part : isNamePart c with
              | true => exact Or.inl ⟨rfl, rfl⟩
              | false =>
                  right
                  refine ⟨?_, (Bool.or_eq_false_iff.mp part).1⟩
                  simp only [List.mem_cons, List.not_mem_nil, or_false]
                  rintro (rfl | rfl | rfl | rfl | rfl | rfl | rfl | rfl | rfl | rfl)
                  · cases marks
                  · cases marks
                  · cases marks
                  · cases marks
                  · exact plain rfl
                  · cases starts
                  · cases part
                  · cases blank
                  · cases blank
                  · cases blank

namespace Token

variable {token : Token} {piece behind : List Char}

theorem scan_punctuation (first : Char) (cursor : Cursor)
    (marks : punctuation? first = some token) :
    scan first cursor = .ok (⟨cursor.offset, cursor.offset + 1, token⟩, cursor.advance) := by
  rw [scan, marks]

theorem scan_blank (first : Char) (cursor : Cursor) (blank : isBlank first = true) :
    scan first cursor =
      .ok (⟨(cursor.takeWhile isBlank).1.start, (cursor.takeWhile isBlank).1.stop, .space⟩,
        (cursor.takeWhile isBlank).2) := by
  rcases (isBlank_iff first).mp blank with rfl | rfl | rfl
  all_goals rfl

theorem scan_literal (first : Char) (cursor : Cursor) (starts : startsLiteral first = true) :
    scan first cursor =
      (Literal.check (Literal.scan cursor).1).map fun word =>
        (⟨cursor.offset, (Literal.scan cursor).1.stop, .number word⟩, (Literal.scan cursor).2) := by
  obtain ⟨_, noMark, solid⟩ := startsLiteral_begins first starts
  simp only [scan, noMark, solid, starts]
  cases Literal.check (Literal.scan cursor).1 <;> rfl

theorem scan_word (first : Char) (cursor : Cursor) (noLiteral : startsLiteral first = false)
    (part : isNamePart first = true) :
    scan first cursor =
      .ok (⟨(cursor.takeWhile isNamePart).1.start, (cursor.takeWhile isNamePart).1.stop,
        .identifier (String.ofList (cursor.takeWhile isNamePart).1.content)⟩,
        (cursor.takeWhile isNamePart).2) := by
  obtain ⟨_, noMark, solid, _⟩ := namePart_begins first part
  simp only [scan, noMark, solid, noLiteral, part]
  rfl

theorem scan_alien (first : Char) (cursor : Cursor) (alien : IsAlien first) :
    scan first cursor = .error (.unexpectedCharacter first cursor.offset) := by
  obtain ⟨noMark, solid, noLiteral, noPart⟩ := alien.begins
  simp only [scan, noMark, solid, noLiteral, noPart]
  rfl

theorem scan_number (first : Char) (rest : List Char) (literal : Literal)
    (written : literal.Written (first :: rest)) (ends : literal.Ends behind) (offset : Nat) :
    scan first ⟨offset, first :: rest ++ behind⟩ =
      (Literal.check ⟨offset + literal.lead, offset + utf8Length (first :: rest), literal⟩).map
        fun word => (⟨offset, offset + utf8Length (first :: rest), .number word⟩,
          ⟨offset + utf8Length (first :: rest), behind⟩) := by
  obtain ⟨_, _, same, starts⟩ := written.begins
  obtain ⟨rfl, _⟩ := List.cons.inj same
  rw [scan_literal first _ starts, Literal.scan_written written behind ends offset]

/-- What stands for a token is scanned as the token. -/
theorem Taken.scan (taken : Taken token piece behind) : ∃ first rest, piece = first :: rest ∧
    first ≠ '#' ∧ ∀ offset, scan first ⟨offset, piece ++ behind⟩ =
      .ok (⟨offset, offset + utf8Length piece, token⟩, ⟨offset + utf8Length piece, behind⟩) := by
  cases taken with
  | openBracket | closeBracket | colon | comma => exact ⟨_, _, rfl, by decide, fun _ => rfl⟩
  | space _ _ nonempty each ends =>
      obtain ⟨first, rest, rfl⟩ := List.exists_cons_of_ne_nil nonempty
      refine ⟨first, rest, rfl, ?_, fun offset => ?_⟩
      · rintro rfl
        exact absurd (each '#' List.mem_cons_self) (by decide)
      · rw [scan_blank first _ (each first List.mem_cons_self),
          takeWhile_of_stops isBlank offset (first :: rest) behind each ends]
  | name name _ named ends =>
      obtain ⟨first, rest, letters, noDigit, each⟩ := (isName_iff name).mp named
      rw [letters]
      obtain ⟨plain, _, _, noMinus⟩ := namePart_begins first (each first List.mem_cons_self)
      have noLiteral : startsLiteral first = false := by simp [startsLiteral, noDigit, noMinus]
      refine ⟨first, rest, rfl, plain, fun offset => ?_⟩
      rw [scan_word first _ noLiteral (each first List.mem_cons_self),
        takeWhile_of_stops isNamePart offset (first :: rest) behind each ends, ← letters,
        String.ofList_toList]
  | number literal word _ _ written digits denotes ends =>
      obtain ⟨first, rest, rfl, starts⟩ := written.begins
      have plain := (startsLiteral_begins first starts).1
      refine ⟨first, rest, rfl, plain, fun offset => ?_⟩
      have value := (Literal.value?_eq_some written word).mpr denotes
      rw [scan_number first rest literal written ends offset,
        (Literal.check_eq_ok _ word).mpr ⟨digits, value⟩]
      rfl

theorem taken_name (first : Char) (rest : List Char) (noLiteral : startsLiteral first = false)
    (part : isNamePart first = true) :
    Taken (.identifier (String.ofList ((first :: rest).takeWhile isNamePart)))
      ((first :: rest).takeWhile isNamePart) ((first :: rest).dropWhile isNamePart) := by
  have noDigit : first.isDigit = false := (Bool.or_eq_false_iff.mp noLiteral).2
  have run := List.takeWhile_cons_of_pos (l := rest) part
  have named := (isName_iff (String.ofList ((first :: rest).takeWhile isNamePart))).mpr
    ⟨first, _, by rw [String.toList_ofList, run], noDigit, run ▸ all_takeWhile isNamePart _⟩
  have taken := Taken.name _ _ named (stops_takeWhile isNamePart (first :: rest))
  rwa [String.toList_ofList] at taken

/-- Whatever is scanned as a token stands for it where it was found. -/
theorem taken_of_scan (first : Char) (rest : List Char) (offset : Nat) (plain : first ≠ '#')
    (found : Spanned Token × Cursor) (scanned : scan first ⟨offset, first :: rest⟩ = .ok found) :
    ∃ token piece behind, first :: rest = piece ++ behind ∧ Taken token piece behind ∧
      found =
        (⟨offset, offset + utf8Length piece, token⟩, ⟨offset + utf8Length piece, behind⟩) := by
  rcases begins_cases first plain with
    ⟨mark, marks⟩ | blank | starts | ⟨noLiteral, part⟩ | alien
  · rw [scan_punctuation first _ marks] at scanned
    cases scanned
    rcases punctuation?_cases first mark marks with
      ⟨rfl, rfl⟩ | ⟨rfl, rfl⟩ | ⟨rfl, rfl⟩ | ⟨rfl, rfl⟩
    · exact ⟨_, _, _, rfl, .openBracket rest, rfl⟩
    · exact ⟨_, _, _, rfl, .closeBracket rest, rfl⟩
    · exact ⟨_, _, _, rfl, .colon rest, rfl⟩
    · exact ⟨_, _, _, rfl, .comma rest, rfl⟩
  · rw [scan_blank first _ blank] at scanned
    cases scanned
    refine ⟨_, _, _, List.takeWhile_append_dropWhile.symm, .space _ _ ?_
      (all_takeWhile isBlank _) (stops_takeWhile isBlank _), rfl⟩
    rw [List.takeWhile_cons_of_pos blank]
    exact List.cons_ne_nil _ _
  · obtain ⟨literal, piece, behind, whole, written, ends⟩ :=
      Literal.exists_written first rest starts
    rw [scan_literal first _ starts, whole, Literal.scan_written written behind ends] at scanned
    cases checked : Literal.check
        ⟨offset + literal.lead, offset + utf8Length piece, literal⟩ with
    | error error => rw [checked] at scanned; cases scanned
    | ok word =>
        rw [checked] at scanned
        cases scanned
        obtain ⟨digits, value⟩ := (Literal.check_eq_ok _ word).mp checked
        have denotes := (Literal.value?_eq_some written word).mp value
        exact ⟨_, piece, behind, whole, .number literal word piece behind written digits
          denotes ends, rfl⟩
  · rw [scan_word first _ noLiteral part] at scanned
    cases scanned
    exact ⟨_, _, _, List.takeWhile_append_dropWhile.symm, taken_name first rest noLiteral part, rfl⟩
  · rw [scan_alien first _ alien] at scanned
    cases scanned

theorem alien_of_scan (first : Char) (cursor : Cursor) (plain : first ≠ '#') (c : Char)
    (column : Nat) (failed : scan first cursor = .error (.unexpectedCharacter c column)) :
    c = first ∧ column = cursor.offset ∧ IsAlien first := by
  rcases begins_cases first plain with
    ⟨mark, marks⟩ | blank | starts | ⟨noLiteral, part⟩ | alien
  · rw [scan_punctuation first cursor marks] at failed
    cases failed
  · rw [scan_blank first cursor blank] at failed
    cases failed
  · rw [scan_literal first cursor starts] at failed
    cases checked : Literal.check (Literal.scan cursor).1 with
    | ok word => rw [checked] at failed; cases failed
    | error error =>
        rw [checked] at failed
        cases failed
        exact absurd checked (Literal.check_ne_unexpected _ c column)
  · rw [scan_word first cursor noLiteral part] at failed
    cases failed
  · rw [scan_alien first cursor alien] at failed
    cases failed
    exact ⟨rfl, rfl, alien⟩

/-- What is behind a token matters only where it could go on with the token. -/
theorem Taken.exchange {old new : List Char} (taken : Taken token piece old)
    (ends : ∀ p : Char → Bool, (∀ c, p c = true → isBlank c = true ∨ isNamePart c = true) →
      Stops p old → Stops p new) : Taken token piece new := by
  cases taken with
  | openBracket => exact .openBracket new
  | closeBracket => exact .closeBracket new
  | colon => exact .colon new
  | comma => exact .comma new
  | space _ _ nonempty each stops =>
      exact .space piece new nonempty each (ends isBlank (fun _ => Or.inl) stops)
  | name name _ named stops =>
      exact .name name new named (ends isNamePart (fun _ => Or.inr) stops)
  | number literal word _ _ written digits denotes stops =>
      have goesOn := ends literal.goesOn fun c more =>
        Or.inr (Literal.goesOn_namePart literal c more)
      have mark := ends isMark fun c marks => Or.inr (isMark_namePart c marks)
      exact .number literal word piece new written digits denotes
        ⟨goesOn stops.digits, fun zero => mark (stops.mark zero)⟩

theorem Taken.nonempty (taken : Taken token piece behind) : piece ≠ [] := by
  obtain ⟨first, rest, rfl, _⟩ := taken.scan
  exact List.cons_ne_nil first rest

theorem Taken.parts (taken : Taken token piece behind) (solid : token ≠ .space) :
    ∀ c ∈ piece, c ∈ ['[', ']', ':', ',', '-'] ∨ isNamePart c = true := by
  intro c member
  cases taken with
  | openBracket | closeBracket | colon | comma =>
      rw [List.mem_singleton.mp member]
      exact Or.inl (by decide)
  | space => exact absurd rfl solid
  | name name _ named ends =>
      obtain ⟨first, rest, letters, _, each⟩ := (isName_iff name).mp named
      exact Or.inr (each c (letters ▸ member))
  | number literal word _ _ written digits denotes ends =>
      rcases written.parts c member with rfl | part
      · exact Or.inl (by decide)
      · exact Or.inr part

theorem Taken.solid (taken : Taken token piece behind) (solid : token ≠ .space) :
    ∀ c ∈ piece, isBlank c = false := by
  intro c member
  rcases taken.parts solid c member with mark | part
  · have all : ∀ mark ∈ ['[', ']', ':', ',', '-'], isBlank mark = false := by simp [isBlank]
    exact all c mark
  · exact (namePart_begins c part).2.2.1

theorem Taken.no_comment (taken : Taken token piece behind) : '#' ∉ piece := by
  intro member
  by_cases space : token = .space
  · subst space
    cases taken with
    | space _ _ nonempty each ends => exact absurd (each '#' member) (by decide)
  · exact absurd (taken.parts space '#' member) (by decide)

end Token

end ToyComputer.Assembly
