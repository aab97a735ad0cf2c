import Mathlib.Data.List.Induction
import Mathlib.Data.Nat.Digits.Defs
import ToyComputer.Proofs.Numerals
import ToyComputer.Proofs.Runs

/-!
Literals: the ways to write a number, and the number that each of them stands for. A literal ends
where no more of its digits follow.
-/

namespace ToyComputer

namespace Text

def digitRank (c : Char) : Nat := "0123456789abcdef".toList.idxOf c.toLower

/-- The number that digits stand for, each counting its power of the base. -/
def placeValue (base : Nat) (digits : List Char) : Nat :=
  Nat.ofDigits base (digits.reverse.map digitRank)

theorem isHexDigit_of_isDigit (c : Char) (digit : c.isDigit = true) : isHexDigit c = true := by
  simp [isHexDigit, digit]

theorem digitRank_eq (c : Char) (digit : isHexDigit c = true) : digitRank c = digitValue c := by
  have small : c.toNat < 128 := by
    simp only [isHexDigit, Char.isDigit, Bool.or_eq_true, Bool.and_eq_true,
      decide_eq_true_eq] at digit
    rcases digit with (⟨_, most⟩ | ⟨_, most⟩) | ⟨_, most⟩
    · exact Nat.lt_of_le_of_lt (UInt32.le_iff_toNat_le.mp most) (by decide)
    · exact Nat.lt_of_le_of_lt (UInt32.le_iff_toNat_le.mp most) (by decide)
    · exact Nat.lt_of_le_of_lt (UInt32.le_iff_toNat_le.mp most) (by decide)
  have all : ∀ code < 128, isHexDigit (Char.ofNat code) = true →
      digitRank (Char.ofNat code) = digitValue (Char.ofNat code) := by
    decide +kernel
  have same := all c.toNat small
  rw [Char.ofNat_toNat] at same
  exact same digit

theorem numeralValue_eq_placeValue (base : Nat) (digits : List Char)
    (each : ∀ c ∈ digits, isHexDigit c = true) :
    numeralValue base digits = placeValue base digits := by
  induction digits using List.reverseRecOn with
  | nil => rfl
  | append_singleton digits c ih =>
      have value := ih fun d member => each d (List.mem_append_left [c] member)
      have rank := digitRank_eq c (each c (by simp))
      calc
        numeralValue base (digits ++ [c]) = numeralValue base digits * base + digitValue c :=
          numeralValue_concat base digits c
        _ = digitRank c + base * placeValue base digits := by
          rw [value, rank, Nat.mul_comm, Nat.add_comm]
        _ = placeValue base (digits ++ [c]) := by
          simp [placeValue, Nat.ofDigits_cons]

end Text

namespace Assembly

open Text

def isMark (c : Char) : Bool := c == 'x' || c == 'X'

theorem isMark_iff (c : Char) : isMark c = true ↔ c = 'x' ∨ c = 'X' := by
  simp [isMark]

namespace Literal

/-- The ways to write a literal. It may still lack its digits. -/
inductive Written : Literal → List Char → Prop
  | marked (mark : Char) (digits : List Char) (marks : isMark mark = true)
      (each : ∀ c ∈ digits, isHexadecimalPart c = true) :
      Written (.hexadecimal digits) ('0' :: mark :: digits)
  | negative (digits : List Char) (each : ∀ c ∈ digits, c.isDigit = true) :
      Written (.decimal true digits) ('-' :: digits)
  | plain (digits : List Char) (nonempty : digits ≠ []) (each : ∀ c ∈ digits, c.isDigit = true) :
      Written (.decimal false digits) digits

def goesOn : Literal → Char → Bool
  | hexadecimal _ => isHexadecimalPart
  | decimal _ _ => Char.isDigit

/-- Nothing of this text could still belong to the literal. A zero would take a mark. -/
structure Ends (literal : Literal) (behind : List Char) : Prop where
  digits : Stops literal.goesOn behind
  mark : literal = .decimal false ['0'] → Stops isMark behind

def lead : Literal → Nat
  | hexadecimal _ => 2
  | decimal true _ => 1
  | decimal false _ => 0

def number : Literal → Int
  | hexadecimal digits => placeValue 16 (digits.filter (· != '_'))
  | decimal false digits => placeValue 10 digits
  | decimal true digits => -placeValue 10 digits

/-- The literal's number is in range, and this is its word, in two's complement if it is below
zero. -/
structure Denotes (literal : Literal) (word : Word) : Prop where
  least : -2 ^ 31 ≤ literal.number
  most : literal.number < 2 ^ 32
  wraps : (word.toNat : Int) = literal.number % 2 ^ 32

section

variable {literal : Literal} {piece : List Char}

theorem value_hexadecimal (digits : List Char)
    (each : ∀ c ∈ digits, isHexadecimalPart c = true) :
    numeralValue 16 (digits.filter (· != '_')) = placeValue 16 (digits.filter (· != '_')) := by
  apply numeralValue_eq_placeValue
  intro c member
  obtain ⟨listed, other⟩ := List.mem_filter.mp member
  have part := each c listed
  simpa [isHexadecimalPart, bne_iff_ne.mp other] using part

theorem value_decimal (digits : List Char) (each : ∀ c ∈ digits, c.isDigit = true) :
    numeralValue 10 digits = placeValue 10 digits :=
  numeralValue_eq_placeValue 10 digits fun c member => isHexDigit_of_isDigit c (each c member)

theorem unsigned_eq_some (value : Nat) (word : Word) :
    (if value < 0x100000000 then some (UInt32.ofNat value) else none) = some word ↔
      value < 2 ^ 32 ∧ word.toNat = value % 2 ^ 32 := by
  rw [Option.ite_none_right_eq_some, Option.some_inj, ← UInt32.toNat_inj, UInt32.toNat_ofNat',
    eq_comm (a := value % 2 ^ 32)]
  simp only [Nat.reducePow]

theorem negative_eq_some (value : Nat) (word : Word) :
    (if value ≤ 0x80000000 then some (UInt32.ofNat (0x100000000 - value)) else none) = some word ↔
      value ≤ 2 ^ 31 ∧ word.toNat = (2 ^ 32 - value) % 2 ^ 32 := by
  rw [Option.ite_none_right_eq_some, Option.some_inj, ← UInt32.toNat_inj, UInt32.toNat_ofNat',
    eq_comm (a := (0x100000000 - value) % 2 ^ 32)]
  simp only [Nat.reducePow]

theorem denotes_iff (literal : Literal) (word : Word) :
    literal.Denotes word ↔ -2 ^ 31 ≤ literal.number ∧ literal.number < 2 ^ 32 ∧
      (word.toNat : Int) = literal.number % 2 ^ 32 :=
  ⟨fun ⟨least, most, wraps⟩ => ⟨least, most, wraps⟩,
    fun ⟨least, most, wraps⟩ => ⟨least, most, wraps⟩⟩

theorem value?_eq_some (written : Written literal piece) (word : Word) :
    literal.value? = some word ↔ literal.Denotes word := by
  rw [denotes_iff]
  cases written with
  | marked mark digits marks each =>
      simp only [value?, value_hexadecimal digits each, unsigned_eq_some, number]
      omega
  | negative digits each =>
      simp only [value?, value_decimal digits each, negative_eq_some, number]
      omega
  | plain _ nonempty each =>
      simp only [value?, value_decimal piece each, unsigned_eq_some, number]
      omega

theorem scan_plain (cursor : Cursor)
    (noMark : ∀ mark rest, cursor.rest = '0' :: mark :: rest → mark ≠ 'x' ∧ mark ≠ 'X')
    (noMinus : ∀ rest, cursor.rest ≠ '-' :: rest) :
    scan cursor =
      (⟨(cursor.takeWhile Char.isDigit).1.start, (cursor.takeWhile Char.isDigit).1.stop,
        .decimal false (cursor.takeWhile Char.isDigit).1.content⟩,
        (cursor.takeWhile Char.isDigit).2) := by
  unfold scan
  split
  · next rest found => exact absurd rfl (noMark 'x' rest found).1
  · next rest found => exact absurd rfl (noMark 'X' rest found).2
  · next rest found => exact absurd found (noMinus rest)
  · rfl

theorem plain_begins (each : ∀ c ∈ piece, c.isDigit = true) (nonempty : piece ≠ [])
    (behind : List Char) (ends : (decimal false piece).Ends behind) :
    (∀ mark rest, piece ++ behind = '0' :: mark :: rest → mark ≠ 'x' ∧ mark ≠ 'X') ∧
      ∀ rest, piece ++ behind ≠ '-' :: rest := by
  rcases piece with _ | ⟨first, more⟩
  · exact absurd rfl nonempty
  · refine ⟨fun mark rest same => ?_, fun rest same => ?_⟩
    · obtain ⟨rfl, follows⟩ := List.cons.inj same
      have noMark : isMark mark = false := by
        cases more with
        | nil => exact ends.mark rfl mark (by rw [show behind = _ from follows]; rfl)
        | cons second more =>
            obtain ⟨rfl, _⟩ := List.cons.inj follows
            have digit := each second (by simp)
            cases marks : isMark second with
            | false => rfl
            | true =>
                rcases (isMark_iff second).mp marks with rfl | rfl
                all_goals cases digit
      exact not_or.mp fun marks =>
        Bool.false_ne_true (noMark.symm.trans ((isMark_iff mark).mpr marks))
    · obtain ⟨rfl, _⟩ := List.cons.inj same
      cases each '-' List.mem_cons_self

/-- A literal is read up to where it ends. -/
theorem scan_written (written : Written literal piece) (behind : List Char)
    (ends : literal.Ends behind) (offset : Nat) :
    scan ⟨offset, piece ++ behind⟩ =
      (⟨offset + literal.lead, offset + utf8Length piece, literal⟩,
        ⟨offset + utf8Length piece, behind⟩) := by
  cases written with
  | marked mark digits marks each =>
      have taken := takeWhile_of_stops isHexadecimalPart (offset + 2) digits behind each ends.digits
      have length :
          offset + 2 + utf8Length digits = offset + utf8Length ('0' :: mark :: digits) := by
        rcases (isMark_iff mark).mp marks with rfl | rfl
        all_goals
          simp only [utf8Length_cons]
          change _ = offset + (1 + (1 + _))
          omega
      rw [length] at taken
      rcases (isMark_iff mark).mp marks with rfl | rfl
      all_goals simp only [List.cons_append, scan, taken, lead]
  | negative digits each =>
      have taken := takeWhile_of_stops Char.isDigit (offset + 1) digits behind each ends.digits
      have length : offset + 1 + utf8Length digits = offset + utf8Length ('-' :: digits) :=
        Nat.add_assoc offset 1 _
      rw [length] at taken
      simp only [List.cons_append, scan, taken, lead]
  | plain _ nonempty each =>
      have taken := takeWhile_of_stops Char.isDigit offset piece behind each ends.digits
      obtain ⟨noMark, noMinus⟩ := plain_begins each nonempty behind ends
      rw [scan_plain ⟨offset, piece ++ behind⟩ noMark noMinus, taken]
      rfl

theorem exists_written (first : Char) (rest : List Char) (starts : startsLiteral first = true) :
    ∃ literal piece behind, first :: rest = piece ++ behind ∧ Written literal piece ∧
      literal.Ends behind := by
  by_cases marked : first = '0' ∧ ∃ mark more, rest = mark :: more ∧ isMark mark = true
  · obtain ⟨rfl, mark, more, rfl, marks⟩ := marked
    refine ⟨_, _, more.dropWhile isHexadecimalPart, ?_, .marked mark
      (more.takeWhile isHexadecimalPart) marks (all_takeWhile _ more), stops_takeWhile _ more, ?_⟩
    · rw [List.cons_append, List.cons_append, List.takeWhile_append_dropWhile]
    · intro zero
      cases zero
  · simp only [startsLiteral, Bool.or_eq_true, beq_iff_eq] at starts
    rcases starts with rfl | digit
    · refine ⟨_, _, rest.dropWhile Char.isDigit, ?_, .negative (rest.takeWhile Char.isDigit)
        (all_takeWhile _ rest), stops_takeWhile _ rest, ?_⟩
      · rw [List.cons_append, List.takeWhile_append_dropWhile]
      · intro zero
        cases zero
    · have begins := List.takeWhile_cons_of_pos (l := rest) digit
      refine ⟨_, (first :: rest).takeWhile Char.isDigit, (first :: rest).dropWhile Char.isDigit,
        List.takeWhile_append_dropWhile.symm, .plain _ ?_ (all_takeWhile _ _),
        stops_takeWhile _ _, ?_⟩
      · rw [begins]
        exact List.cons_ne_nil _ _
      · -- A zero alone has no digit behind it, and what is there is no mark.
        intro zero c next
        rw [begins] at zero
        obtain ⟨rfl, none⟩ := List.cons.inj (Literal.decimal.inj zero).2
        have whole := List.takeWhile_append_dropWhile (p := Char.isDigit) (l := rest)
        rw [none, List.nil_append] at whole
        rw [List.dropWhile_cons_of_pos digit, whole] at next
        obtain ⟨more, rfl⟩ := List.head?_eq_some_iff.mp next
        exact eq_false_of_ne_true fun marks => marked ⟨rfl, c, more, rfl, marks⟩

end

end Literal

/-- The whole text is one literal, and this is its word. -/
def IsLiteral (text : List Char) (word : Word) : Prop :=
  ∃ literal : Literal, literal.Written text ∧ literal.hasDigits = true ∧ literal.Denotes word

theorem isLiteral_of_value {literal : Literal} {piece : List Char} {word : Word}
    (written : literal.Written piece) (digits : literal.hasDigits = true)
    (value : literal.value? = some word) : IsLiteral piece word :=
  ⟨literal, written, digits, (Literal.value?_eq_some written word).mp value⟩

theorem isDigit_of_mem_decimal (number : Nat) : ∀ c ∈ Nat.toDigits 10 number, c.isDigit = true :=
  fun _ member => Nat.isDigit_of_mem_toDigits (by decide) (by decide) member

theorem isLiteral_decimal (number : Nat) (small : number < 2 ^ 32) :
    IsLiteral (Nat.toDigits 10 number) (UInt32.ofNat number) := by
  apply isLiteral_of_value (.plain _ Nat.toDigits_ne_nil (isDigit_of_mem_decimal number))
  · simp [Literal.hasDigits]
  · rw [Literal.value?, numeralValue_decimal]
    exact if_pos small

theorem isLiteral_negative (number : Nat) (small : number ≤ 2 ^ 31) :
    IsLiteral ('-' :: Nat.toDigits 10 number) (UInt32.ofNat (2 ^ 32 - number)) := by
  apply isLiteral_of_value (.negative _ (isDigit_of_mem_decimal number))
  · simp [Literal.hasDigits]
  · rw [Literal.value?, numeralValue_decimal]
    exact if_pos small

theorem isLiteral_hexadecimal (digits : List Char) (number : Nat) (small : number < 2 ^ 32)
    (each : ∀ c ∈ digits, Literal.isHexadecimalPart c = true)
    (present : digits.filter (· != '_') ≠ [])
    (spelled : numeralValue 16 (digits.filter (· != '_')) = number) :
    IsLiteral ('0' :: 'x' :: digits) (UInt32.ofNat number) := by
  apply isLiteral_of_value (.marked 'x' digits rfl each)
  · obtain ⟨c, member⟩ := List.exists_mem_of_ne_nil _ present
    obtain ⟨listed, letter⟩ := List.mem_filter.mp member
    exact List.any_eq_true.mpr ⟨c, listed, letter⟩
  · rw [Literal.value?, spelled]
    exact if_pos small

theorem filter_underscore (digits : List Char) (each : ∀ c ∈ digits, isHexDigit c = true) :
    digits.filter (· != '_') = digits := by
  apply List.filter_eq_self.mpr
  intro c member
  rw [bne_iff_ne]
  rintro rfl
  cases each '_' member

theorem isHexadecimalPart_of_isHexDigit (c : Char) (digit : isHexDigit c = true) :
    Literal.isHexadecimalPart c = true := by
  simp [Literal.isHexadecimalPart, digit]

theorem isLiteral_hexDigits (number : Nat) (small : number < 2 ^ 32) :
    IsLiteral ('0' :: 'x' :: hexDigits number) (UInt32.ofNat number) := by
  have filtered := filter_underscore _ (isHexDigit_of_mem number)
  apply isLiteral_hexadecimal _ number small
  · exact fun c member => isHexadecimalPart_of_isHexDigit c (isHexDigit_of_mem number c member)
  · rw [filtered]
    exact hexDigits_ne_nil number
  · rw [filtered]
    exact numeralValue_hexDigits number

theorem isLiteral_parted (front back : List Char) (number : Nat) (small : number < 2 ^ 32)
    (each : ∀ c ∈ front ++ back, isHexDigit c = true) (present : front ++ back ≠ [])
    (spelled : numeralValue 16 (front ++ back) = number) :
    IsLiteral ('0' :: 'x' :: (front ++ '_' :: back)) (UInt32.ofNat number) := by
  have filtered : (front ++ '_' :: back).filter (· != '_') = front ++ back := by
    rw [List.filter_append, List.filter_cons_of_neg (by decide), ← List.filter_append]
    exact filter_underscore _ each
  apply isLiteral_hexadecimal _ number small
  · intro c member
    rw [List.mem_append, List.mem_cons, or_left_comm, ← List.mem_append] at member
    rcases member with rfl | member
    · rfl
    · exact isHexadecimalPart_of_isHexDigit c (each c member)
  · rwa [filtered]
  · rwa [filtered]

end Assembly

end ToyComputer
