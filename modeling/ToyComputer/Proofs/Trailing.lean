import ToyComputer.Proofs.Writing

/-!
Trailing blanks and comments: what stands behind the last token of a line means nothing. It may add a
space to the tokens, and a space at the end of a line is not missed.
-/

namespace ToyComputer

/-- The cursor in a line that goes on with more text behind its end. -/
def Text.Cursor.followedBy (cursor : Text.Cursor) (tail : List Char) : Text.Cursor :=
  ⟨cursor.offset, cursor.rest ++ tail⟩

namespace Assembly

open Text

/-- Blanks, and behind them a comment or nothing. -/
inductive Trails : List Char → Prop where
  | nil : Trails []
  | comment (text : List Char) : Trails ('#' :: text)
  | blank (c : Char) (rest : List Char) (blank : isBlank c = true) (trails : Trails rest) :
    Trails (c :: rest)

namespace Trails

variable {tail : List Char}

theorem stops (trails : Trails tail) : Stops isNamePart tail := by
  cases trails with
  | nil => exact stops_nil _
  | comment text => exact stops_cons _ _ _ (by decide)
  | blank c rest blank trails =>
      rcases (isBlank_iff c).mp blank with rfl | rfl | rfl
      all_goals exact stops_cons _ _ _ (by decide)

theorem dropWhile (trails : Trails tail) :
    tail.dropWhile isBlank = [] ∨ ∃ text, tail.dropWhile isBlank = '#' :: text := by
  induction trails with
  | nil => exact Or.inl rfl
  | comment text => exact Or.inr ⟨text, rfl⟩
  | blank c rest blank trails ih =>
      rw [List.dropWhile_cons_of_pos blank]
      exact ih

end Trails

theorem takeWhile_followedBy (p : Char → Bool) (cursor : Cursor) (tail : List Char)
    (stops : Stops p (cursor.rest.dropWhile p ++ tail)) :
    (cursor.followedBy tail).takeWhile p =
      ((cursor.takeWhile p).1, (cursor.takeWhile p).2.followedBy tail) := by
  have taken := takeWhile_of_stops p cursor.offset _ _ (all_takeWhile p cursor.rest) stops
  rw [← List.append_assoc, List.takeWhile_append_dropWhile] at taken
  exact taken

theorem Literal.Ends.followedBy {literal : Literal} {behind tail : List Char}
    (ends : literal.Ends behind) (trails : Trails tail) : literal.Ends (behind ++ tail) := by
  cases behind with
  | nil => exact literal.ends_of_word tail trails.stops
  | cons c behind =>
      constructor
      · exact stops_of_head literal.goesOn (c :: behind) (c :: behind ++ tail) rfl ends.digits
      · intro zero
        exact stops_of_head isMark (c :: behind) (c :: behind ++ tail) rfl (ends.mark zero)

section

variable (first : Char) (rest tail : List Char) (cursor : Cursor)
  (here : cursor.rest = first :: rest) (trails : Trails tail)

include here trails

theorem scanLiteral_followedBy (starts : startsLiteral first = true) :
    Literal.scan (cursor.followedBy tail) =
      ((Literal.scan cursor).1, (Literal.scan cursor).2.followedBy tail) := by
  obtain ⟨literal, piece, behind, whole, written, ends⟩ :=
    Literal.exists_written first rest starts
  rcases cursor with ⟨offset, text⟩
  obtain rfl : text = piece ++ behind := Eq.trans here whole
  rw [Cursor.followedBy, List.append_assoc,
    Literal.scan_written written (behind ++ tail) (ends.followedBy trails),
    Literal.scan_written written behind ends]
  rfl

theorem scan_followedBy (plain : first ≠ '#') (solid : isBlank first = false) :
    Token.scan first (cursor.followedBy tail) =
      (Token.scan first cursor).map fun scanned => (scanned.1, scanned.2.followedBy tail) := by
  rcases begins_cases first plain with
    ⟨mark, marks⟩ | blank | starts | ⟨noLiteral, part⟩ | alien
  · have advanced : (cursor.followedBy tail).advance = cursor.advance.followedBy tail := by
      simp only [Cursor.followedBy, Cursor.advance, here, List.cons_append]
    rw [Token.scan_punctuation first _ marks, Token.scan_punctuation first _ marks, advanced]
    rfl
  · exact absurd (blank.symm.trans solid) (by decide)
  · rw [Token.scan_literal first _ starts, Token.scan_literal first _ starts,
      scanLiteral_followedBy first rest tail cursor here trails starts]
    cases Literal.check (Literal.scan cursor).1 <;> rfl
  · rw [Token.scan_word first _ noLiteral part, Token.scan_word first _ noLiteral part,
      takeWhile_followedBy isNamePart cursor tail
        (stops_dropWhile isNamePart cursor.rest tail fun _ => trails.stops)]
    rfl
  · rw [Token.scan_alien first _ alien, Token.scan_alien first _ alien]
    rfl

end

theorem solid_of_scan (first : Char) (rest : List Char) (cursor after : Cursor)
    (token : Spanned Token) (here : cursor.rest = first :: rest) (plain : first ≠ '#')
    (solid : isBlank first = false) (scanned : Token.scan first cursor = .ok (token, after)) :
    token.content ≠ .space := by
  rcases cursor with ⟨offset, text⟩
  obtain rfl : text = first :: rest := here
  obtain ⟨token, piece, behind, whole, taken, same⟩ :=
    Token.taken_of_scan first rest offset plain _ scanned
  cases same
  intro space
  apply taken.begins_blank space
  rw [← whole]
  exact stops_cons isBlank first rest solid

def contentsFrom (cursor : Cursor) : Except SourceError (List Token) :=
  (Token.scanAll cursor).map (·.map Spanned.content)

theorem contentsFrom_nil (offset : Nat) : contentsFrom ⟨offset, []⟩ = .ok [] := by
  rw [contentsFrom, Token.scanAll]
  rfl

theorem contentsFrom_comment (offset : Nat) (text : List Char) :
    contentsFrom ⟨offset, '#' :: text⟩ = .ok [] := by
  rw [contentsFrom, Token.scanAll]
  rfl

theorem contentsFrom_cons (first : Char) (rest : List Char) (cursor : Cursor)
    (here : cursor.rest = first :: rest) (plain : first ≠ '#') :
    contentsFrom cursor =
      match Token.scan first cursor with
      | .error error => .error error
      | .ok (token, after) => (contentsFrom after).map (token.content :: ·) := by
  rcases cursor with ⟨offset, text⟩
  obtain rfl : text = first :: rest := here
  rw [contentsFrom, scanAll_cons first rest offset plain]
  cases Token.scan first ⟨offset, first :: rest⟩ with
  | error error => rfl
  | ok found =>
      simp only [contentsFrom]
      cases Token.scanAll found.2 <;> rfl

theorem contentsFrom_blank (first : Char) (rest : List Char) (cursor : Cursor)
    (here : cursor.rest = first :: rest) (blank : isBlank first = true) :
    contentsFrom cursor = (contentsFrom (cursor.takeWhile isBlank).2).map (.space :: ·) := by
  have plain : first ≠ '#' := by
    rintro rfl
    exact absurd blank (by decide)
  rw [contentsFrom_cons first rest cursor here plain, Token.scan_blank first cursor blank]

theorem contentsFrom_behind (offset : Nat) (tail : List Char) (trails : Trails tail) :
    contentsFrom ⟨offset, tail.dropWhile isBlank⟩ = .ok [] := by
  rcases trails.dropWhile with none | ⟨text, comment⟩
  · rw [none, contentsFrom_nil]
  · rw [comment, contentsFrom_comment]

/-- The same tokens, or one more that is a space where there was none. -/
inductive Padded (plain : Except SourceError (List Token)) :
    Except SourceError (List Token) → Prop where
  | same : Padded plain plain
  | space (tokens : List Token) (read : plain = .ok tokens)
    (solid : tokens.getLast? ≠ some .space) : Padded plain (.ok (tokens ++ [.space]))

theorem Padded.cons {plain long : Except SourceError (List Token)} (token : Token)
    (padded : Padded plain long) (apart : token ≠ .space ∨ (plain = .ok [] → long = .ok [])) :
    Padded (plain.map (token :: ·)) (long.map (token :: ·)) := by
  cases padded with
  | same => exact .same
  | space tokens read solid =>
      subst read
      refine .space (token :: tokens) rfl ?_
      cases tokens with
      | cons next tokens => simpa [List.getLast?_cons] using solid
      | nil =>
          rcases apart with other | closed
          · simpa using other
          · cases closed rfl

theorem contentsFrom_closed (cursor : Cursor) (tail : List Char) (more : cursor.rest ≠ [])
    (none : contentsFrom cursor = .ok []) : contentsFrom (cursor.followedBy tail) = .ok [] := by
  rcases here : cursor.rest with _ | ⟨first, rest⟩
  · exact absurd here more
  · by_cases comment : first = '#'
    · subst comment
      rw [Cursor.followedBy, here]
      exact contentsFrom_comment cursor.offset (rest ++ tail)
    · rw [contentsFrom_cons first rest cursor here comment] at none
      split at none
      · cases none
      · next token after _ =>
          cases others : contentsFrom after with
          | error error => rw [others] at none; cases none
          | ok tokens => rw [others] at none; cases none

theorem padded_trails (offset : Nat) (tail : List Char) (trails : Trails tail) :
    Padded (.ok []) (contentsFrom ⟨offset, tail⟩) := by
  cases trails with
  | nil => rw [contentsFrom_nil]; exact .same
  | comment text => rw [contentsFrom_comment]; exact .same
  | blank c rest blank trails =>
      rw [contentsFrom_blank c rest ⟨offset, c :: rest⟩ rfl blank, Cursor.takeWhile,
        contentsFrom_behind _ _ (.blank c rest blank trails)]
      exact .space [] rfl (by simp)

section

variable (first : Char) (rest tail : List Char) (cursor : Cursor)
  (here : cursor.rest = first :: rest) (trails : Trails tail)

include here trails

theorem padded_of_blank (blank : isBlank first = true)
    (follow : Padded (contentsFrom (cursor.takeWhile isBlank).2)
      (contentsFrom ((cursor.takeWhile isBlank).2.followedBy tail))) :
    Padded (contentsFrom cursor) (contentsFrom (cursor.followedBy tail)) := by
  have longer : (cursor.followedBy tail).rest = first :: (rest ++ tail) := by
    rw [Cursor.followedBy, here, List.cons_append]
  rw [contentsFrom_blank first rest cursor here blank,
    contentsFrom_blank first _ (cursor.followedBy tail) longer blank]
  by_cases ended : cursor.rest.dropWhile isBlank = []
  · -- The run of blanks goes on in what trails, and there is nothing behind it.
    have all : ∀ c ∈ cursor.rest, isBlank c = true := List.dropWhile_eq_nil_iff.mp ended
    rw [Cursor.takeWhile, Cursor.takeWhile, ended, contentsFrom_nil, Cursor.followedBy,
      List.dropWhile_append_of_pos all, contentsFrom_behind _ tail trails]
    exact .same
  · rw [takeWhile_followedBy isBlank cursor tail
      (stops_dropWhile isBlank cursor.rest tail fun none => absurd none ended)]
    exact follow.cons .space (Or.inr (contentsFrom_closed _ tail ended))

theorem padded_of_solid (plain : first ≠ '#') (solid : isBlank first = false)
    (follow : ∀ token after, Token.scan first cursor = .ok (token, after) →
      Padded (contentsFrom after) (contentsFrom (after.followedBy tail))) :
    Padded (contentsFrom cursor) (contentsFrom (cursor.followedBy tail)) := by
  have longer : (cursor.followedBy tail).rest = first :: (rest ++ tail) := by
    rw [Cursor.followedBy, here, List.cons_append]
  rw [contentsFrom_cons first rest cursor here plain,
    contentsFrom_cons first _ (cursor.followedBy tail) longer plain,
    scan_followedBy first rest tail cursor here trails plain solid]
  cases scanned : Token.scan first cursor with
  | error error => exact .same
  | ok result =>
      have apart := solid_of_scan first rest cursor result.2 result.1 here plain solid scanned
      exact (follow result.1 result.2 scanned).cons result.1.content (Or.inl apart)

theorem padded_of_scan (plain : first ≠ '#')
    (follow : ∀ token after, Token.scan first cursor = .ok (token, after) →
      Padded (contentsFrom after) (contentsFrom (after.followedBy tail))) :
    Padded (contentsFrom cursor) (contentsFrom (cursor.followedBy tail)) := by
  by_cases blank : isBlank first = true
  · exact padded_of_blank first rest tail cursor here trails blank
      (follow _ _ (Token.scan_blank first cursor blank))
  · have solid := eq_false_of_ne_true blank
    exact padded_of_solid first rest tail cursor here trails plain solid follow

end

/-- What trails behind a text adds nothing to its tokens but a space. -/
theorem padded_followedBy (cursor : Cursor) (tail : List Char) (trails : Trails tail) :
    Padded (contentsFrom cursor) (contentsFrom (cursor.followedBy tail)) := by
  induction cursor using Token.scanAll.induct with
  | case1 cursor here =>
      rcases cursor with ⟨offset, text⟩
      obtain rfl : text = [] := here
      rw [contentsFrom_nil]
      exact padded_trails offset tail trails
  | case2 cursor rest here =>
      rcases cursor with ⟨offset, text⟩
      obtain rfl : text = '#' :: rest := here
      rw [Cursor.followedBy, List.cons_append, contentsFrom_comment, contentsFrom_comment]
      exact .same
  | case3 cursor first rest here plain error failed =>
      apply padded_of_scan first rest tail cursor here trails plain
      intro token after scanned
      rw [scanned] at failed
      cases failed
  | case4 cursor first rest here plain token after scanned shorter error failed ih
  | case5 cursor first rest here plain token after scanned shorter tokens read ih =>
      apply padded_of_scan first rest tail cursor here trails plain
      intro other behind again
      rw [scanned] at again
      cases again
      exact ih

theorem operandsFrom_append_space (expected : Expected) (tokens : List Token) :
    operandsFrom expected (tokens ++ [.space]) = operandsFrom expected tokens := by
  induction tokens generalizing expected with
  | nil => exact operandsFrom_space expected []
  | cons token tokens ih => cases token <;> simp only [List.cons_append, operandsFrom, ih]

theorem operationOfTokens_append_space (tokens : List Token) (nonempty : tokens ≠ []) :
    Line.operationOfTokens (tokens ++ [.space]) = Line.operationOfTokens tokens := by
  rcases tokens with _ | ⟨token, tokens⟩
  · exact absurd rfl nonempty
  · cases token with
    | identifier mnemonic =>
        simp only [List.cons_append, Line.operationOfTokens, operandsOfTokens,
          operandsFrom_append_space]
    | _ => rfl

theorem dropSpace_append_space (tokens : List Token) (nonempty : tokens ≠ []) :
    Line.dropSpace (tokens ++ [.space]) = Line.dropSpace tokens ++ [.space] := by
  rcases tokens with _ | ⟨token, tokens⟩
  · exact absurd rfl nonempty
  · cases token <;> rfl

theorem takeLabel_append_space (tokens : List Token) :
    Line.takeLabel (tokens ++ [.space]) =
      ((Line.takeLabel tokens).1, (Line.takeLabel tokens).2 ++ [.space]) := by
  rcases tokens with _ | ⟨first, _ | ⟨second, tokens⟩⟩
  · rfl
  · cases first <;> rfl
  · cases first <;> cases second <;> rfl

theorem ofTokens_append_space (tokens : List Token) (solid : tokens.getLast? ≠ some .space) :
    Line.ofTokens (tokens ++ [.space]) = Line.ofTokens tokens := by
  by_cases empty : tokens = []
  · subst empty
    rfl
  · have suffix := (takeLabel_suffix (Line.dropSpace tokens)).trans (dropSpace_suffix tokens)
    simp only [Line.ofTokens, dropSpace_append_space tokens empty, takeLabel_append_space]
    generalize (Line.takeLabel (Line.dropSpace tokens)).2 = rest at suffix
    by_cases bare : rest = []
    · subst bare
      rfl
    · have solidRest : rest ≠ [.space] := by
        rintro rfl
        obtain ⟨front, rfl⟩ := suffix
        exact solid (by simp)
      have more : Line.dropSpace rest ≠ [] := by
        rcases rest with _ | ⟨token, rest⟩
        · exact absurd rfl bare
        · cases token with
          | space => exact fun none => solidRest (congrArg _ none)
          | _ => exact List.cons_ne_nil _ _
      rw [dropSpace_append_space rest bare, operationOfTokens_append_space _ more]

theorem ofString_eq (text : String) :
    Line.ofString text = (contentsFrom ⟨0, text.toList⟩).bind Line.ofTokens := by
  unfold Line.ofString Token.ofLine contentsFrom Cursor.ofString
  cases Token.scanAll ⟨0, text.toList⟩ <;> rfl

/-- A line reads the same with and without what trails, also where it is wrong. -/
theorem ofString_trailing (text tail : List Char) (trails : Trails tail) :
    Line.ofString (String.ofList (text ++ tail)) = Line.ofString (String.ofList text) := by
  have padded := padded_followedBy ⟨0, text⟩ tail trails
  rw [ofString_eq, ofString_eq, String.toList_ofList, String.toList_ofList]
  change (contentsFrom (Cursor.followedBy ⟨0, text⟩ tail)).bind _ = _
  generalize contentsFrom (Cursor.followedBy ⟨0, text⟩ tail) = long at padded ⊢
  cases padded with
  | same => rfl
  | space tokens read solid =>
      rw [read]
      exact ofTokens_append_space tokens solid

end Assembly

end ToyComputer
