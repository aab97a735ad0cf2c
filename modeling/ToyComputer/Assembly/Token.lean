import ToyComputer.Assembly.Literal

/-!
Tokens, and how a line is cut into them. A comment begins with a number sign and runs to the end of
the line.
-/

namespace ToyComputer.Assembly

open ToyComputer.Text

inductive Token where
  | openBracket
  | closeBracket
  | colon
  | comma
  | number (word : Word)
  | identifier (name : String)
  | space
  deriving DecidableEq, Repr

def isBlank (c : Char) : Bool := c == ' ' || c == '\t' || c == '\r'

def isNamePart (c : Char) : Bool := c.isAlphanum || c == '_'

def startsLiteral (c : Char) : Bool := c == '-' || c.isDigit

namespace Token

def punctuation? (c : Char) : Option Token :=
  if c = '[' then some openBracket
  else if c = ']' then some closeBracket
  else if c = ':' then some colon
  else if c = ',' then some comma
  else none

/-- The token that begins with the character `first` at the cursor, and what is left of the line. -/
def scan (first : Char) (cursor : Cursor) : Except SourceError (Spanned Token × Cursor) :=
  match punctuation? first with
  | some token => .ok (⟨cursor.offset, cursor.offset + 1, token⟩, cursor.advance)
  | none =>
    if isBlank first then
      let (blanks, after) := cursor.takeWhile isBlank
      .ok (⟨blanks.start, blanks.stop, space⟩, after)
    else if startsLiteral first then
      let (literal, after) := Literal.scan cursor
      match Literal.check literal with
      | .ok word => .ok (⟨cursor.offset, literal.stop, number word⟩, after)
      | .error error => .error error
    else if isNamePart first then
      -- A digit has begun a number above, so a name begins with a letter or an underscore.
      let (name, after) := cursor.takeWhile isNamePart
      .ok (⟨name.start, name.stop, identifier (String.ofList name.content)⟩, after)
    else
      .error (.unexpectedCharacter first cursor.offset)

theorem length_rest_scan {first : Char} {rest : List Char} {cursor after : Cursor}
    {token : Spanned Token} (here : cursor.rest = first :: rest)
    (scanned : scan first cursor = .ok (token, after)) : after.rest.length ≤ rest.length := by
  have shrinks (p : Char → Bool) (holds : p first = true) :
      (cursor.takeWhile p).2.rest.length ≤ rest.length := by
    simpa [Cursor.takeWhile, here, holds] using (List.dropWhile_suffix p (l := rest)).length_le
  unfold scan at scanned
  split at scanned
  · simp only [Except.ok.injEq, Prod.mk.injEq] at scanned
    simp [← scanned.2, Cursor.advance, here]
  · split at scanned
    · next blank =>
        simp only [Except.ok.injEq, Prod.mk.injEq] at scanned
        exact scanned.2 ▸ shrinks isBlank blank
    · split at scanned
      · next starts =>
          have := Literal.length_rest_scan here (by simpa [startsLiteral] using starts)
          simp only at scanned
          split at scanned
          · simp only [Except.ok.injEq, Prod.mk.injEq] at scanned
            exact scanned.2 ▸ this
          · simp at scanned
      · split at scanned
        · next part =>
            simp only [Except.ok.injEq, Prod.mk.injEq] at scanned
            exact scanned.2 ▸ shrinks isNamePart part
        · simp at scanned

def scanAll (cursor : Cursor) : Except SourceError (List (Spanned Token)) :=
  match here : cursor.rest with
  | [] => .ok []
  | first :: rest =>
    if first = '#' then .ok []
    else
      match scanned : scan first cursor with
      | .error error => .error error
      | .ok (token, after) =>
        have shorter : after.rest.length < cursor.rest.length := by
          simpa [here, Nat.lt_succ_iff] using length_rest_scan here scanned
        match scanAll after with
        | .error error => .error error
        | .ok tokens => .ok (token :: tokens)
termination_by cursor.rest.length

def ofLine (line : String) : Except SourceError (List (Spanned Token)) :=
  scanAll (Cursor.ofString line)

end Token

/-- Reads a text that holds one number and nothing but a comment after it. -/
def literal? (text : String) : Option Word :=
  match Token.ofLine text with
  | .ok [⟨_, _, .number word⟩] => some word
  | _ => none

end ToyComputer.Assembly
