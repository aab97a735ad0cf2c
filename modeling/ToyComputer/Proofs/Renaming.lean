import Mathlib.Data.List.Chain
import ToyComputer.Proofs.Lexemes

/-!
Renaming: where in a source a name is that of a label, and the source with other names there. The
text between these places stays as it is, so it is cut into the same tokens.
-/

namespace ToyComputer

namespace Text

def splitBytes (count : Nat) : List Char → List Char × List Char
  | [] => ([], [])
  | c :: text =>
    if count = 0 then ([], c :: text)
    else
      let (front, back) := splitBytes (count - c.utf8Size) text
      (c :: front, back)

/-- Puts other words in the places of some, which are given in their order. The text begins at
`offset`. -/
def substitute (word : String → String) (offset : Nat) (text : List Char) :
    List (Spanned String) → List Char
  | [] => text
  | place :: places =>
    let (before, rest) := splitBytes (place.start - offset) text
    let (_, behind) := splitBytes (place.stop - place.start) rest
    before ++ (word place.content).toList ++ substitute word place.stop behind places

theorem splitBytes_zero (text : List Char) : splitBytes 0 text = ([], text) := by
  cases text <;> rfl

theorem splitBytes_append (front back : List Char) (more : Nat) :
    splitBytes (utf8Length front + more) (front ++ back) =
      (front ++ (splitBytes more back).1, (splitBytes more back).2) := by
  induction front with
  | nil => rw [utf8Length_nil, Nat.zero_add, List.nil_append, List.nil_append]
  | cons c front ih =>
      have wide : c.utf8Size + utf8Length front + more ≠ 0 := by
        have := c.utf8Size_pos
        omega
      have less : c.utf8Size + utf8Length front + more - c.utf8Size = utf8Length front + more := by
        omega
      rw [utf8Length_cons, List.cons_append, splitBytes, if_neg wide, less, ih, List.cons_append]

section

variable (word : String → String) (offset : Nat) (piece rest : List Char)

theorem substitute_here (label : String) (places : List (Spanned String)) :
    substitute word offset (piece ++ rest)
        (⟨offset, offset + utf8Length piece, label⟩ :: places) =
      (word label).toList ++ substitute word (offset + utf8Length piece) rest places := by
  have split := splitBytes_append piece rest 0
  rw [Nat.add_zero, splitBytes_zero, List.append_nil] at split
  simp only [substitute, Nat.sub_self, splitBytes_zero, Nat.add_sub_cancel_left, split,
    List.nil_append]

theorem substitute_behind (places : List (Spanned String))
    (later : ∀ place ∈ places, offset + utf8Length piece ≤ place.start) :
    substitute word offset (piece ++ rest) places =
      piece ++ substitute word (offset + utf8Length piece) rest places := by
  cases places with
  | nil => rfl
  | cons place places =>
      obtain ⟨gap, start⟩ := Nat.exists_eq_add_of_le (later place List.mem_cons_self)
      have far : place.start - offset = utf8Length piece + gap := by omega
      have near : place.start - (offset + utf8Length piece) = gap := by omega
      simp only [substitute, far, near, splitBytes_append, List.append_assoc]

end

end Text

namespace Assembly

open Text

/-- What the tokens before a token of a line make of a name there: only at the front of a line a
name can be defined, and only in brackets it can be referred to. -/
inductive Region where
  | front
  | body
  | brackets
  deriving DecidableEq, Repr

def Region.behind : Region → Token → Region
  | _, .openBracket => .brackets
  | _, .closeBracket => .body
  | .front, .space => .front
  | .front, _ => .body
  | region, _ => region

/-- The label that a token names, if it does: a colon follows the name that a line defines, and a
name that is referred to is not a register's. -/
def labelHere? : Region → Token → (next : Option Token) → Option String
  | .front, .identifier name, some .colon => some name
  | .brackets, .identifier name, _ => if Register.ofName? name = none then some name else none
  | _, _, _ => none

def labelSpans (region : Region) : List (Spanned Token) → List (Spanned String)
  | [] => []
  | span :: spans =>
    let others := labelSpans (region.behind span.content) spans
    match labelHere? region span.content (spans.head?.map Spanned.content) with
    | some label => ⟨span.start, span.stop, label⟩ :: others
    | none => others

def renameLine (name : String → String) (line : List Char) : List Char :=
  match Token.scanAll ⟨0, line⟩ with
  | .ok spans => substitute name 0 line (labelSpans .front spans)
  | .error _ => line

/-- The source with other names for its labels, wherever they are defined or referred to. -/
def renameLabels (name : String → String) (source : String) : String :=
  String.ofList (['\n'].intercalate ((source.toList.splitOn '\n').map (renameLine name)))

def labelsIn (region : Region) : List Token → List String
  | [] => []
  | token :: rest =>
    (labelHere? region token rest.head?).toList ++ labelsIn (region.behind token) rest

def relabel (name : String → String) (region : Region) : List Token → List Token
  | [] => []
  | token :: rest =>
    (match labelHere? region token rest.head? with
      | some label => .identifier (name label)
      | none => token) :: relabel name (region.behind token) rest

theorem labelHere?_eq_some (region : Region) (token : Token) (next : Option Token) (label : String)
    (named : labelHere? region token next = some label) :
    token = .identifier label ∧ ((region = .front ∧ next = some .colon) ∨
      (region = .brackets ∧ Register.ofName? label = none)) := by
  unfold labelHere? at named
  split at named
  · cases named
    exact ⟨rfl, Or.inl ⟨rfl, rfl⟩⟩
  · split at named
    · next noRegister =>
        cases named
        exact ⟨rfl, Or.inr ⟨rfl, noRegister⟩⟩
    · cases named
  · cases named

def Apart (token next : Token) : Prop :=
  ∀ word name, token = .number word → next = .identifier name → Register.ofName? name ≠ none

theorem labelSpans_start {offset : Nat} {text : List Char} {spans : List (Spanned Token)}
    (cut : Cut offset text spans) (region : Region) :
    ∀ place ∈ labelSpans region spans, offset ≤ place.start := by
  induction cut generalizing region with
  | done => exact nofun
  | token offset piece rest token spans lexeme follow ih =>
      intro place member
      have behind := ih (region.behind token)
      rw [labelSpans] at member
      split at member
      · rcases List.mem_cons.mp member with rfl | later
        · exact Nat.le_refl _
        · exact Nat.le_of_add_right_le (behind place later)
      · exact Nat.le_of_add_right_le (behind place member)

/-- The renamed text begins as the text does, unless both begin with the name of a label. -/
def BeginsAlike (region : Region) (tokens : List Token) (old new : List Char) : Prop :=
  new.head? = old.head? ∨ (Begins isNamePart old ∧ Begins isNamePart new ∧
    ∃ token others label, tokens = token :: others ∧
      labelHere? region token others.head? = some label)

theorem BeginsAlike.alike {region : Region} {token : Token} {tokens : List Token}
    {old new : List Char} (begins : BeginsAlike (region.behind token) tokens old new)
    (apart : (token :: tokens).IsChain Apart) : Alike token old new := by
  rcases begins with same | ⟨oldBegins, newBegins, next, others, label, rfl, named⟩
  · exact Or.inl same
  · refine Or.inr ⟨?_, oldBegins, newBegins⟩
    rintro word rfl
    obtain ⟨rfl, front | brackets⟩ := labelHere?_eq_some _ _ _ _ named
    · cases region <;> cases front.1
    · exact (List.isChain_cons_cons.mp apart).1 word label rfl rfl brackets.2

theorem begins_append (p : Char → Bool) (front back : List Char) (begins : Begins p front) :
    Begins p (front ++ back) := by
  obtain ⟨c, first, inside⟩ := begins
  refine ⟨c, ?_, inside⟩
  rw [List.head?_append, first]
  rfl

theorem scans_substitute {offset : Nat} {text : List Char} {spans : List (Spanned Token)}
    (cut : Cut offset text spans) (name : String → String) (region : Region)
    (apart : (spans.map Spanned.content).IsChain Apart)
    (legal : ∀ label ∈ labelsIn region (spans.map Spanned.content), isName (name label) = true) :
    Scans (substitute name offset text (labelSpans region spans))
        (relabel name region (spans.map Spanned.content)) ∧
      BeginsAlike region (spans.map Spanned.content) text
        (substitute name offset text (labelSpans region spans)) := by
  -- By induction over the pieces of the text: each is put back as it was or as another name, and
  -- what comes behind it begins in a way that does not change its token.
  induction cut generalizing region with
  | done offset text ended => exact ⟨ended, Or.inl rfl⟩
  | token offset piece rest token spans lexeme follow ih =>
      rw [List.map_cons] at apart legal ⊢
      simp only [labelsIn, List.mem_append] at legal
      obtain ⟨scans, begins⟩ := ih (region.behind token) apart.tail
        fun label member => legal label (Or.inr member)
      have alike := begins.alike apart
      have behind := labelSpans_start follow (region.behind token)
      have next : (spans.map Spanned.content).head? = spans.head?.map Spanned.content :=
        List.head?_map
      simp only [labelSpans, relabel, ← next]
      cases named : labelHere? region token (spans.map Spanned.content).head? with
      | none =>
          simp only
          rw [substitute_behind name offset piece rest _ behind]
          refine ⟨lexeme.scans _ _ alike scans, Or.inl ?_⟩
          rw [List.head?_append_of_ne_nil _ lexeme.nonempty,
            List.head?_append_of_ne_nil _ lexeme.nonempty]
      | some label =>
          obtain ⟨rfl, _⟩ := labelHere?_eq_some _ _ _ _ named
          have isNamed := legal label (Or.inl (by rw [named]; exact List.mem_singleton_self _))
          obtain ⟨_, oldBegins, stops⟩ := lexeme.named label rfl
          simp only
          rw [substitute_here]
          refine ⟨?_, Or.inr ⟨?_, ?_, _, _, label, rfl, named⟩⟩
          · exact (spells_name (name label) isNamed).scans _ _ (alike.stops_name stops) scans
          · exact begins_append _ _ _ oldBegins
          · exact begins_append _ _ _ (begins_of_isName _ isNamed)

theorem mem_splitBytes (count : Nat) (text : List Char) (c : Char) :
    (c ∈ (splitBytes count text).1 → c ∈ text) ∧ (c ∈ (splitBytes count text).2 → c ∈ text) := by
  induction text generalizing count with
  | nil => exact ⟨id, id⟩
  | cons first text ih =>
      rw [splitBytes]
      split
      · exact ⟨nofun, id⟩
      · obtain ⟨front, back⟩ := ih (count - first.utf8Size)
        refine ⟨fun member => ?_, fun member => List.mem_cons_of_mem _ (back member)⟩
        rcases List.mem_cons.mp member with rfl | member
        · exact List.mem_cons_self
        · exact List.mem_cons_of_mem _ (front member)

theorem mem_substitute (word : String → String) (offset : Nat) (text : List Char)
    (places : List (Spanned String)) (c : Char) (member : c ∈ substitute word offset text places) :
    c ∈ text ∨ ∃ place ∈ places, c ∈ (word place.content).toList := by
  induction places generalizing offset text with
  | nil => exact Or.inl member
  | cons place places ih =>
      have before := mem_splitBytes (place.start - offset) text c
      have behind := mem_splitBytes (place.stop - place.start)
        (splitBytes (place.start - offset) text).2 c
      simp only [substitute, List.mem_append] at member
      rcases member with (kept | here) | later
      · exact Or.inl (before.1 kept)
      · exact Or.inr ⟨place, List.mem_cons_self, here⟩
      · rcases ih _ _ later with inside | ⟨other, listed, here⟩
        · exact Or.inl (before.2 (behind.2 inside))
        · exact Or.inr ⟨other, List.mem_cons_of_mem _ listed, here⟩

theorem content_labelSpans (region : Region) (spans : List (Spanned Token)) :
    (labelSpans region spans).map Spanned.content =
      labelsIn region (spans.map Spanned.content) := by
  induction spans generalizing region with
  | nil => rfl
  | cons span spans ih =>
      rw [labelSpans, List.map_cons, labelsIn, ← ih, List.head?_map]
      cases labelHere? region span.content (spans.head?.map Spanned.content) <;> rfl

/-- A line with other names for its labels is cut into its tokens with other names for its labels.
-/
theorem contents_renameLine (name : String → String) (line : List Char) (tokens : List Token)
    (read : contentsFrom ⟨0, line⟩ = .ok tokens) (apart : tokens.IsChain Apart)
    (legal : ∀ label ∈ labelsIn .front tokens, isName (name label) = true) :
    contentsFrom ⟨0, renameLine name line⟩ = .ok (relabel name .front tokens) ∧
      (renameLine name line = [] ↔ line = []) ∧
      ('\n' ∉ line → '\n' ∉ renameLine name line) := by
  unfold contentsFrom at read
  cases scanned : Token.scanAll ⟨0, line⟩ with
  | error error => rw [scanned] at read; cases read
  | ok spans =>
      rw [scanned] at read
      cases read
      have cut := (tiled_of_scanAll ⟨0, line⟩ spans scanned).cut
      obtain ⟨scans, begins⟩ := scans_substitute cut name .front apart legal
      simp only [renameLine, scanned]
      refine ⟨scans 0, ?_, ?_⟩
      · rcases begins with same | ⟨⟨c, old, _⟩, ⟨d, new, _⟩, _⟩
        · rw [← List.head?_eq_none_iff, same, List.head?_eq_none_iff]
        · constructor
          · intro none
            rw [none] at new
            cases new
          · rintro rfl
            cases old
      · intro inline member
        rcases mem_substitute name 0 line _ _ member with inside | ⟨place, listed, inside⟩
        · exact inline inside
        · have named : isName (name place.content) = true := by
            apply legal
            rw [← content_labelSpans]
            exact List.mem_map_of_mem listed
          exact ((spells_name _ named).inline _ inside).1 rfl

end Assembly

end ToyComputer
