import Mathlib.Data.List.Basic
import ToyComputer.Proofs.Tokens

/-!
Tilings: the tokens of a line are spans that follow one another without a gap, each as long as it
can be, up to the comment or the end. Every tiling of this kind is found, and a character that is
part of none is reported where it stands.
-/

namespace ToyComputer

namespace Text

theorem utf8Length_pos (text : List Char) (nonempty : text ≠ []) : 0 < utf8Length text := by
  cases text with
  | nil => exact absurd rfl nonempty
  | cons c text => exact Nat.add_pos_left c.utf8Size_pos _

/-- Two ways to cut a text at the same byte are the same cut. -/
theorem cut_unique (one other behind rest : List Char) (same : one ++ behind = other ++ rest)
    (length : utf8Length one = utf8Length other) : one = other ∧ behind = rest := by
  induction one generalizing other with
  | nil =>
      cases other with
      | nil => exact ⟨rfl, same⟩
      | cons c other => exact absurd length (utf8Length_pos (c :: other) (by simp)).ne
  | cons c one ih =>
      cases other with
      | nil => exact absurd length (utf8Length_pos (c :: one) (by simp)).ne'
      | cons d other =>
          obtain ⟨rfl, tail⟩ := List.cons.inj same
          simp only [utf8Length_cons, Nat.add_left_cancel_iff] at length
          obtain ⟨rfl, rest⟩ := ih other tail length
          exact ⟨rfl, rest⟩

end Text

namespace Assembly

open Text

/-- The spans follow one another from one place to another, and none of them is empty. -/
inductive Gapless : (start stop : Nat) → List (Spanned Token) → Prop
  | nil (place : Nat) : Gapless place place []
  | cons (span : Spanned Token) (stop : Nat) (spans : List (Spanned Token))
      (nonempty : span.start < span.stop) (follow : Gapless span.stop stop spans) :
      Gapless span.start stop (span :: spans)

/-- The span has this piece of the line for its text, and so its ends lie between characters. The
piece is what the token is taken from, and blanks are not cut off from blanks before them. -/
structure Covers (line : List Char) (span : Spanned Token) (before piece behind : List Char) :
    Prop where
  line : line = before ++ (piece ++ behind)
  start : span.start = utf8Length before
  stop : span.stop = utf8Length before + utf8Length piece
  taken : Token.Taken span.content piece behind
  apart : span.content = .space → Stops isBlank before.reverse

/-- A line without its comment. -/
def code (line : List Char) : List Char := line.takeWhile (· != '#')

/-- The spans are tokens of the line that cover all of it but its comment. -/
structure Tiles (line : List Char) (spans : List (Spanned Token)) : Prop where
  gapless : Gapless 0 (utf8Length (code line)) spans
  covers : ∀ span ∈ spans, ∃ before piece behind, Covers line span before piece behind

/-- One round of the scanner takes the cursor behind the next token. -/
def Advances (cursor after : Cursor) : Prop :=
  ∃ first rest token, cursor.rest = first :: rest ∧ first ≠ '#' ∧
    Token.scan first cursor = .ok (token, after)

theorem rounds_le (cursor : Cursor) (path : List Cursor)
    (rounds : (cursor :: path).IsChain Advances) : path.length ≤ cursor.rest.length := by
  induction path generalizing cursor with
  | nil => exact Nat.zero_le _
  | cons after path ih =>
      obtain ⟨⟨first, rest, token, here, _, scanned⟩, more⟩ := List.isChain_cons_cons.mp rounds
      calc
        path.length + 1 ≤ after.rest.length + 1 := Nat.succ_le_succ (ih after more)
        _ ≤ rest.length + 1 := Nat.succ_le_succ (Token.length_rest_scan here scanned)
        _ = cursor.rest.length := by rw [here, List.length_cons]

/-- The spans that the rest of a line is cut into from a place on. -/
inductive Tiled : (offset : Nat) → (text : List Char) → List (Spanned Token) → Prop
  | done (offset : Nat) (text : List Char) (ended : code text = []) : Tiled offset text []
  | token (offset : Nat) (piece rest : List Char) (token : Token) (spans : List (Spanned Token))
      (taken : Token.Taken token piece rest)
      (follow : Tiled (offset + utf8Length piece) rest spans) :
      Tiled offset (piece ++ rest) (⟨offset, offset + utf8Length piece, token⟩ :: spans)

theorem scanAll_cons (first : Char) (rest : List Char) (offset : Nat) (plain : first ≠ '#') :
    Token.scanAll ⟨offset, first :: rest⟩ =
      match Token.scan first ⟨offset, first :: rest⟩ with
      | .error error => .error error
      | .ok (token, after) => (Token.scanAll after).map (token :: ·) := by
  rw [Token.scanAll]
  simp only [if_neg plain]
  split
  · next failed => rw [failed]
  · next token after found =>
      simp only [found]
      cases Token.scanAll after <;> rfl

theorem code_append (front back : List Char) (plain : '#' ∉ front) :
    code (front ++ back) = front ++ code back := by
  apply List.takeWhile_append_of_pos
  rintro c member
  rw [bne_iff_ne]
  rintro rfl
  exact plain member

theorem code_of_plain (text : List Char) (plain : '#' ∉ text) : code text = text := by
  have whole := code_append text [] plain
  rwa [List.append_nil, show code [] = [] from rfl, List.append_nil] at whole

theorem code_eq_nil (text : List Char) :
    code text = [] ↔ text = [] ∨ ∃ comment, text = '#' :: comment := by
  cases text with
  | nil => simp [code]
  | cons c text =>
      by_cases comment : c = '#' <;> simp [code, comment]

theorem tiled_of_scanAll (cursor : Cursor) (spans : List (Spanned Token))
    (scanned : Token.scanAll cursor = .ok spans) : Tiled cursor.offset cursor.rest spans := by
  fun_induction Token.scanAll cursor generalizing spans with
  | case1 cursor here =>
      cases scanned
      exact .done _ _ ((code_eq_nil _).mpr (Or.inl here))
  | case2 cursor rest here =>
      cases scanned
      exact .done _ _ ((code_eq_nil _).mpr (Or.inr ⟨rest, here⟩))
  | case3 | case4 => cases scanned
  | case5 cursor first rest here plain token after found shorter others read ih =>
      cases scanned
      rcases cursor with ⟨offset, text⟩
      obtain rfl : text = first :: rest := here
      obtain ⟨token, piece, behind, whole, taken, same⟩ :=
        Token.taken_of_scan first rest offset plain _ found
      cases same
      rw [whole]
      exact .token offset piece behind token others taken (ih others read)

theorem Tiled.scanAll {offset : Nat} {text : List Char} {spans : List (Spanned Token)}
    (tiled : Tiled offset text spans) : Token.scanAll ⟨offset, text⟩ = .ok spans := by
  induction tiled with
  | done offset text ended =>
      rw [Token.scanAll]
      rcases (code_eq_nil text).mp ended with rfl | ⟨comment, rfl⟩
      · rfl
      · rfl
  | token offset piece rest token spans taken follow ih =>
      obtain ⟨first, more, rfl, plain, scanned⟩ := taken.scan
      rw [List.cons_append, scanAll_cons first (more ++ rest) offset plain, ← List.cons_append,
        scanned offset]
      simp only [ih]
      rfl

theorem code_dropWhile (line : List Char) : code (line.dropWhile (· != '#')) = [] := by
  have stops := stops_takeWhile (· != '#') line
  cases left : line.dropWhile (· != '#') with
  | nil => rfl
  | cons c rest =>
      rw [left] at stops
      exact List.takeWhile_cons_of_neg (Bool.eq_false_iff.mp (stops c rfl))

theorem Token.Taken.apart {token : Token} {piece behind : List Char}
    (taken : Taken token piece behind) (front : List Char) :
    Stops isBlank (front ++ piece).reverse ∨ Stops isBlank behind := by
  by_cases space : token = .space
  · subst space
    cases taken with
    | space _ _ nonempty each ends => exact Or.inr ends
  · left
    intro c last
    have filled : piece.reverse ≠ [] := mt List.reverse_eq_nil_iff.mp taken.nonempty
    rw [List.reverse_append, List.head?_append_of_ne_nil _ filled] at last
    exact taken.solid space c (List.mem_reverse.mp (List.mem_of_head? last))

theorem Token.Taken.begins_blank {token : Token} {piece behind : List Char}
    (taken : Taken token piece behind) (space : token = .space) :
    ¬ Stops isBlank (piece ++ behind) := by
  subst space
  cases taken with
  | space _ _ nonempty each ends =>
      obtain ⟨first, rest, rfl⟩ := List.exists_cons_of_ne_nil nonempty
      intro stops
      have solid := stops first rfl
      rw [each first List.mem_cons_self] at solid
      cases solid

theorem Token.Taken.of_front {token : Token} {piece : List Char} (front back : List Char)
    (taken : Taken token piece (front ++ back)) : Taken token piece front := by
  apply taken.exchange
  intro p _ stops
  cases front with
  | nil => exact stops_nil p
  | cons c front => exact stops_of_head p (c :: (front ++ back)) (c :: front) rfl stops

theorem Token.Taken.before_alien {token : Token} {piece front : List Char}
    (taken : Taken token piece front) (c : Char) (behind : List Char) (alien : IsAlien c) :
    Taken token piece (front ++ c :: behind) := by
  apply taken.exchange
  intro p known stops
  cases front with
  | nil =>
      apply stops_cons
      apply eq_false_of_ne_true
      intro more
      rcases known c more with blank | part
      · exact Bool.false_ne_true (alien.begins.2.1.symm.trans blank)
      · exact Bool.false_ne_true (alien.begins.2.2.2.symm.trans part)
  | cons d front => exact stops_of_head p (d :: front) (d :: (front ++ c :: behind)) rfl stops

section

variable {offset : Nat} {text : List Char} {spans : List (Spanned Token)}

theorem Tiled.gapless (tiled : Tiled offset text spans) :
    Gapless offset (offset + utf8Length (code text)) spans := by
  induction tiled with
  | done offset text ended =>
      rw [ended]
      exact .nil offset
  | token offset piece rest token spans taken follow ih =>
      rw [code_append piece rest taken.no_comment, utf8Length_append, ← Nat.add_assoc]
      exact .cons ⟨offset, offset + utf8Length piece, token⟩ _ spans
        (Nat.lt_add_of_pos_right (utf8Length_pos piece taken.nonempty)) ih

theorem Tiled.covers (tiled : Tiled offset text spans) (front : List Char)
    (start : offset = utf8Length front) (apart : Stops isBlank front.reverse ∨ Stops isBlank text) :
    ∀ span ∈ spans, ∃ before piece behind, Covers (front ++ text) span before piece behind := by
  -- By induction over the spans. A run of blanks is never cut in two, so no place where the
  -- scanner stops has blanks on both of its sides.
  induction tiled generalizing front with
  | done => exact nofun
  | token offset piece rest token spans taken follow ih =>
      subst start
      intro span member
      rcases List.mem_cons.mp member with rfl | member
      · refine ⟨front, piece, rest, rfl, rfl, rfl, taken, fun space => ?_⟩
        exact apart.resolve_right (taken.begins_blank space)
      · rw [← List.append_assoc]
        have between := taken.apart front
        exact ih (front ++ piece) (utf8Length_append front piece).symm between span member

theorem tiled_of_gapless {start stop : Nat} (gapless : Gapless start stop spans)
    (front : List Char) (begins : start = utf8Length front)
    (ends : stop = utf8Length (code (front ++ text)))
    (covers : ∀ span ∈ spans, ∃ before piece behind,
      Covers (front ++ text) span before piece behind) : Tiled start text spans := by
  induction gapless generalizing front text with
  | nil place =>
      have whole : front ++ text = code (front ++ text) ++ (front ++ text).dropWhile (· != '#') :=
        List.takeWhile_append_dropWhile.symm
      obtain ⟨_, rest⟩ := cut_unique front _ text _ whole (begins.symm.trans ends)
      exact .done place text (rest ▸ code_dropWhile (front ++ text))
  | cons span stop spans nonempty follow ih =>
      obtain ⟨before, piece, behind, line, start, last, taken, _⟩ := covers span List.mem_cons_self
      obtain ⟨rfl, rfl⟩ := cut_unique front before text _ line (begins.symm.trans start)
      rcases span with ⟨first, finish, token⟩
      obtain rfl : first = utf8Length front := start
      obtain rfl : finish = utf8Length front + utf8Length piece := last
      rw [← List.append_assoc] at ends covers
      exact .token _ piece behind token spans taken
        (ih (front ++ piece) (utf8Length_append front piece).symm ends
          fun other member => covers other (List.mem_cons_of_mem _ member))

theorem unexpected_of_scanAll (cursor : Cursor) (c : Char) (column : Nat)
    (failed : Token.scanAll cursor = .error (.unexpectedCharacter c column)) :
    ∃ front behind spans, cursor.rest = front ++ c :: behind ∧
      column = cursor.offset + utf8Length front ∧ Token.IsAlien c ∧ '#' ∉ front ∧
      Tiled cursor.offset front spans := by
  fun_induction Token.scanAll cursor with
  | case1 | case2 | case5 => cases failed
  | case3 cursor first rest here plain error found =>
      rcases cursor with ⟨offset, text⟩
      obtain rfl : text = first :: rest := here
      cases failed
      obtain ⟨rfl, rfl, alien⟩ := Token.alien_of_scan first _ plain c column found
      exact ⟨[], rest, [], rfl, rfl, alien, List.not_mem_nil, .done column [] rfl⟩
  | case4 cursor first rest here plain token after found shorter error more ih =>
      rcases cursor with ⟨offset, text⟩
      obtain rfl : text = first :: rest := here
      cases failed
      obtain ⟨token, piece, _, whole, taken, same⟩ :=
        Token.taken_of_scan first rest offset plain _ found
      cases same
      obtain ⟨front, behind, spans, split, place, alien, noComment, tiled⟩ := ih more
      obtain rfl := split
      refine ⟨piece ++ front, behind, _, by rw [List.append_assoc]; exact whole, ?_, alien, ?_,
        .token offset piece front token spans (Token.Taken.of_front front _ taken) tiled⟩
      · rw [utf8Length_append, ← Nat.add_assoc]
        exact place
      · exact fun member => (List.mem_append.mp member).elim taken.no_comment noComment

theorem Tiled.unexpected (tiled : Tiled offset text spans) (c : Char) (behind : List Char)
    (alien : Token.IsAlien c) (plain : '#' ∉ text) :
    Token.scanAll ⟨offset, text ++ c :: behind⟩ =
      .error (.unexpectedCharacter c (offset + utf8Length text)) := by
  induction tiled with
  | done offset text ended =>
      rcases (code_eq_nil text).mp ended with rfl | ⟨comment, rfl⟩
      · have other : c ≠ '#' := by
          rintro rfl
          exact alien.1 (by decide)
        rw [List.nil_append, scanAll_cons c behind offset other, Token.scan_alien c _ alien]
        rfl
      · exact absurd List.mem_cons_self plain
  | token offset piece rest token spans taken follow ih =>
      have noComment := fun member => plain (List.mem_append_right piece member)
      obtain ⟨first, more, rfl, other, scanned⟩ := (taken.before_alien c behind alien).scan
      rw [List.append_assoc, List.cons_append, scanAll_cons first _ offset other,
        ← List.cons_append, scanned offset]
      simp only [ih noComment]
      rw [utf8Length_append, Nat.add_assoc]
      rfl

end

/-- The tokens of a line are its only tiling. -/
theorem ofLine_eq_ok (line : String) (spans : List (Spanned Token)) :
    Token.ofLine line = .ok spans ↔ Tiles line.toList spans := by
  constructor
  · intro scanned
    have tiled := tiled_of_scanAll (Cursor.ofString line) spans scanned
    have gapless := tiled.gapless
    rw [show (Cursor.ofString line).offset = 0 from rfl, Nat.zero_add] at gapless
    exact ⟨gapless, tiled.covers [] rfl (Or.inl (stops_nil _))⟩
  · rintro ⟨gapless, covers⟩
    exact (tiled_of_gapless gapless [] rfl rfl covers).scanAll

/-- A line is cut into tokens exactly if they tile it, and it is refused for a character exactly if
the character is part of no token and what comes before it is cut into tokens. The scanner ends
after no more rounds than the line has characters. -/
theorem tokens_tile_line (line : String) :
    (∀ spans, Token.ofLine line = .ok spans ↔ Tiles line.toList spans) ∧
    (∀ c column, Token.ofLine line = .error (.unexpectedCharacter c column) ↔
      ∃ before behind spans, line.toList = before ++ c :: behind ∧ column = utf8Length before ∧
        Token.IsAlien c ∧ '#' ∉ before ∧ Token.ofLine (String.ofList before) = .ok spans) ∧
    ∀ path, (Cursor.ofString line :: path).IsChain Advances → path.length ≤ line.length := by
  refine ⟨ofLine_eq_ok line, fun c column => ⟨fun failed => ?_, ?_⟩, fun path rounds => ?_⟩
  · obtain ⟨front, behind, spans, split, place, alien, plain, tiled⟩ :=
      unexpected_of_scanAll (Cursor.ofString line) c column failed
    rw [show (Cursor.ofString line).offset = 0 from rfl, Nat.zero_add] at place
    have before := tiled.scanAll
    refine ⟨front, behind, spans, split, place, alien, plain, ?_⟩
    rw [Token.ofLine, Cursor.ofString, String.toList_ofList]
    exact before
  · rintro ⟨before, behind, spans, split, rfl, alien, plain, scanned⟩
    have tiled := tiled_of_scanAll (Cursor.ofString (String.ofList before)) spans scanned
    rw [Cursor.ofString, String.toList_ofList] at tiled
    have failed := tiled.unexpected c behind alien plain
    rw [Nat.zero_add, ← split] at failed
    exact failed
  · have bound := rounds_le (Cursor.ofString line) path rounds
    rwa [Cursor.ofString, String.length_toList] at bound

theorem border_of_name_and_number :
    Tiles "_1 \t0x_F7#é".toList
        [⟨0, 2, .identifier "_1"⟩, ⟨2, 4, .space⟩, ⟨4, 9, .number 0xF7⟩] ∧
      Token.ofLine "7_é" = .error (.unexpectedCharacter 'é' 2) ∧
      [(⟨1, "_é".toList⟩ : Cursor), ⟨2, "é".toList⟩].length ≤ "7_é".length := by
  obtain ⟨tiles, refused, rounds⟩ := tokens_tile_line "7_é"
  refine ⟨((tokens_tile_line "_1 \t0x_F7#é").1 _).mp (by decide +kernel), (refused _ _).mpr ?_,
    rounds _ ?_⟩
  · exact ⟨"7_".toList, [], [⟨0, 1, .number 7⟩, ⟨1, 2, .identifier "_"⟩], by decide +kernel,
      by decide +kernel, ⟨by decide, by decide⟩, by decide, by decide +kernel⟩
  · apply List.IsChain.cons_cons
    · exact ⟨'7', _, ⟨0, 1, .number 7⟩, rfl, by decide, by decide +kernel⟩
    · apply List.IsChain.cons_cons
      · exact ⟨'_', _, ⟨1, 2, .identifier "_"⟩, rfl, by decide, by decide +kernel⟩
      · exact .singleton _

end Assembly

end ToyComputer
