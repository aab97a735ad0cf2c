/-!
A cursor in a line of text. Places are counted in bytes of UTF-8, characters are taken whole.
-/

namespace ToyComputer.Text

def utf8Length (text : List Char) : Nat := text.foldr (fun c length => c.utf8Size + length) 0

@[simp] theorem utf8Length_nil : utf8Length [] = 0 := rfl

@[simp] theorem utf8Length_cons (c : Char) (rest : List Char) :
    utf8Length (c :: rest) = c.utf8Size + utf8Length rest := rfl

@[simp] theorem utf8Length_append (a b : List Char) :
    utf8Length (a ++ b) = utf8Length a + utf8Length b := by
  induction a with
  | nil => simp
  | cons c a ih => simp [ih, Nat.add_assoc]

/-- Something with the place where it stands: its first byte and the byte after its last. -/
structure Spanned (α : Type) where
  start : Nat
  stop : Nat
  content : α
  deriving DecidableEq, Repr

/-- What is left of a line, and how many bytes of the line come before it. -/
structure Cursor where
  offset : Nat
  rest : List Char
  deriving DecidableEq, Repr

namespace Cursor

def ofString (line : String) : Cursor := ⟨0, line.toList⟩

def peek? (cursor : Cursor) : Option (Spanned Char) :=
  cursor.rest.head?.map fun c => ⟨cursor.offset, cursor.offset + c.utf8Size, c⟩

def advance (cursor : Cursor) : Cursor :=
  match cursor.rest with
  | [] => cursor
  | c :: rest => ⟨cursor.offset + c.utf8Size, rest⟩

def takeWhile (p : Char → Bool) (cursor : Cursor) : Spanned (List Char) × Cursor :=
  let taken := cursor.rest.takeWhile p
  let stop := cursor.offset + utf8Length taken
  (⟨cursor.offset, stop, taken⟩, ⟨stop, cursor.rest.dropWhile p⟩)

def skipRest (cursor : Cursor) : Cursor := ⟨cursor.offset + utf8Length cursor.rest, []⟩

end Cursor

end ToyComputer.Text
