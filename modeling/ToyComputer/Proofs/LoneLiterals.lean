import ToyComputer.Proofs.Tiling
import ToyComputer.Runner.Expectation

/-!
Lone literals: lines that are one number. They are read as the number that their digits stand for if
it is in range, and a text is taken for a number exactly if it is a literal up to its comment.
-/

namespace ToyComputer

namespace Assembly

open Text

def loneNumber (line : String) (value : Nat) : List (Spanned Token) :=
  [⟨0, utf8Length line.toList, .number (UInt32.ofNat value)⟩]

theorem ofLine_written {literal : Literal} {line : String} (written : literal.Written line.toList) :
    Token.ofLine line =
      (Literal.check ⟨literal.lead, utf8Length line.toList, literal⟩).map
        fun word => [⟨0, utf8Length line.toList, .number word⟩] := by
  obtain ⟨first, rest, letters, starts⟩ := written.begins
  have plain := (startsLiteral_begins first starts).1
  rw [letters] at written
  have scanned := Token.scan_number first rest literal written
    (literal.ends_of_word [] (stops_nil _)) 0
  rw [List.append_nil] at scanned
  rw [Token.ofLine, Cursor.ofString, letters, scanAll_cons first rest 0 plain, scanned,
    Nat.zero_add, Nat.zero_add]
  cases Literal.check ⟨literal.lead, utf8Length (first :: rest), literal⟩ with
  | error error => rfl
  | ok word =>
      have ended := (Tiled.done (utf8Length (first :: rest)) [] rfl).scanAll
      simp only [Except.map, ended]

/-- A line that is a literal with digits is that number, or the number is reported as it stands. -/
theorem ofLine_of_digits {literal : Literal} {line : String} (written : literal.Written line.toList)
    (digits : literal.hasDigits = true) (fits : Prop) [Decidable fits] (n : Nat)
    (value : literal.value? = if fits then some (UInt32.ofNat n) else none) :
    Token.ofLine line =
      if fits then .ok (loneNumber line n) else .error (.literalOutOfRange literal.text) := by
  rw [ofLine_written written]
  by_cases inside : fits
  · rw [if_pos inside] at value ⊢
    simp only [Literal.check, digits, value]
    rfl
  · rw [if_neg inside] at value ⊢
    simp only [Literal.check, digits, value]
    rfl

section

variable (digits : String)

theorem hasDigits_decimal (negative : Bool) (nonempty : digits ≠ "") :
    (Literal.decimal negative digits.toList).hasDigits = true := by
  have filled : digits.toList ≠ [] := mt String.toList_eq_nil_iff.mp nonempty
  simpa [Literal.hasDigits] using filled

theorem ofLine_decimal (nonempty : digits ≠ "")
    (each : ∀ c ∈ digits.toList, c.isDigit = true) :
    Token.ofLine digits =
      if placeValue 10 digits.toList ≤ 2 ^ 32 - 1 then
        .ok (loneNumber digits (placeValue 10 digits.toList))
      else .error (.literalOutOfRange digits) := by
  have filled : digits.toList ≠ [] := mt String.toList_eq_nil_iff.mp nonempty
  have read := ofLine_of_digits (.plain digits.toList filled each)
    (hasDigits_decimal digits false nonempty) (placeValue 10 digits.toList ≤ 2 ^ 32 - 1) _
    (by rw [Literal.value?, Literal.value_decimal digits.toList each]
        exact if_congr (by omega) rfl rfl)
  rwa [Literal.text, String.ofList_toList] at read

theorem ofLine_negative (nonempty : digits ≠ "")
    (each : ∀ c ∈ digits.toList, c.isDigit = true) :
    Token.ofLine ("-" ++ digits) =
      if placeValue 10 digits.toList ≤ 2 ^ 31 then
        .ok (loneNumber ("-" ++ digits) ((2 ^ 32 - placeValue 10 digits.toList) % 2 ^ 32))
      else .error (.literalOutOfRange ("-" ++ digits)) := by
  have letters : ("-" ++ digits).toList = '-' :: digits.toList := String.toList_append
  have written : (Literal.decimal true digits.toList).Written ("-" ++ digits).toList :=
    letters ▸ .negative digits.toList each
  have wrapped (n : Nat) :
      UInt32.ofNat ((2 ^ 32 - n) % 2 ^ 32) = UInt32.ofNat (0x100000000 - n) := by
    rw [← UInt32.toNat_inj, UInt32.toNat_ofNat', UInt32.toNat_ofNat', Nat.mod_mod]
    simp only [Nat.reducePow]
  have read := ofLine_of_digits written (hasDigits_decimal digits true nonempty)
    (placeValue 10 digits.toList ≤ 2 ^ 31) _
    (by rw [Literal.value?, Literal.value_decimal digits.toList each, wrapped]
        exact if_congr (by omega) rfl rfl)
  rwa [Literal.text, String.ofList_toList] at read

theorem ofLine_hexadecimal (mark : String) (marks : mark = "0x" ∨ mark = "0X")
    (each : ∀ c ∈ digits.toList, Literal.isHexadecimalPart c = true) :
    Token.ofLine (mark ++ digits) =
      if digits.toList.all (· == '_') then .error (.expectedDigits 2)
      else if placeValue 16 (digits.toList.filter (· != '_')) ≤ 2 ^ 32 - 1 then
        .ok (loneNumber (mark ++ digits) (placeValue 16 (digits.toList.filter (· != '_'))))
      else .error (.literalOutOfRange ("0x" ++ digits)) := by
  obtain ⟨letter, isLetter, begins⟩ : ∃ c, isMark c = true ∧ mark.toList = ['0', c] := by
    rcases marks with rfl | rfl
    · exact ⟨'x', rfl, rfl⟩
    · exact ⟨'X', rfl, rfl⟩
  have letters : (mark ++ digits).toList = '0' :: letter :: digits.toList := by
    rw [String.toList_append, begins]
    rfl
  have written : (Literal.hexadecimal digits.toList).Written (mark ++ digits).toList :=
    letters ▸ .marked letter digits.toList isLetter each
  split
  · next blank =>
      have none : (Literal.hexadecimal digits.toList).hasDigits = false := by
        simpa [Literal.hasDigits] using blank
      rw [ofLine_written written]
      simp only [Literal.check, none]
      rfl
  · next digit =>
      have present : (Literal.hexadecimal digits.toList).hasDigits = true := by
        simpa [Literal.hasDigits] using digit
      have read := ofLine_of_digits written present
        (placeValue 16 (digits.toList.filter (· != '_')) ≤ 2 ^ 32 - 1) _
        (by rw [Literal.value?, Literal.value_hexadecimal digits.toList each]
            exact if_congr (by omega) rfl rfl)
      rwa [Literal.text, String.ofList_toList] at read

end

/-- A number of any length, with any zeros before it, is read as its value if that is in range. So
is a negative one, in two's complement, and a hexadecimal one that has a digit. -/
theorem literals_have_their_value :
    (∀ (digits : String) (n : Nat), digits ≠ "" → digits.toList ⊆ "0123456789".toList →
      placeValue 10 digits.toList = n →
        Token.ofLine digits =
          (if n ≤ 2 ^ 32 - 1 then .ok (loneNumber digits n)
            else .error (.literalOutOfRange digits)) ∧
        Token.ofLine ("-" ++ digits) =
          (if n ≤ 2 ^ 31 then .ok (loneNumber ("-" ++ digits) ((2 ^ 32 - n) % 2 ^ 32))
            else .error (.literalOutOfRange ("-" ++ digits)))) ∧
    ∀ (mark digits : String) (n : Nat), mark = "0x" ∨ mark = "0X" →
      digits.toList ⊆ "0123456789abcdefABCDEF_".toList →
      placeValue 16 (digits.toList.filter (· != '_')) = n →
        Token.ofLine (mark ++ digits) =
          if digits.toList.all (· == '_') then .error (.expectedDigits 2)
          else if n ≤ 2 ^ 32 - 1 then .ok (loneNumber (mark ++ digits) n)
          else .error (.literalOutOfRange ("0x" ++ digits)) := by
  constructor
  · rintro digits n nonempty each rfl
    have figures : ∀ c ∈ "0123456789".toList, c.isDigit = true := List.all_eq_true.mp (by decide)
    have decimal := fun c member => figures c (each member)
    exact ⟨ofLine_decimal digits nonempty decimal, ofLine_negative digits nonempty decimal⟩
  · rintro mark digits n marks each rfl
    have parts : ∀ c ∈ "0123456789abcdefABCDEF_".toList, Literal.isHexadecimalPart c = true :=
      List.all_eq_true.mp (by decide)
    exact ofLine_hexadecimal digits mark marks fun c member => parts c (each member)

theorem border_literals :
    Token.ofLine "004294967295" = .ok (loneNumber "004294967295" 0xFFFFFFFF) ∧
      Token.ofLine "-2147483648" = .ok (loneNumber "-2147483648" 0x80000000) ∧
      Token.ofLine "-2147483649" = .error (.literalOutOfRange "-2147483649") ∧
      Token.ofLine "0X__" = .error (.expectedDigits 2) ∧
      Token.ofLine "0X1_0000_0000" = .error (.literalOutOfRange "0x1_0000_0000") := by
  have decimal := literals_have_their_value.1
  have hexadecimal := literals_have_their_value.2
  refine ⟨?_, ?_, ?_, ?_, ?_⟩
  · exact (decimal "004294967295" 0xFFFFFFFF (by decide) (by decide) (by decide +kernel)).1
  · exact (decimal "2147483648" 0x80000000 (by decide) (by decide) (by decide +kernel)).2
  · exact (decimal "2147483649" 0x80000001 (by decide) (by decide) (by decide +kernel)).2
  · exact hexadecimal "0X" "__" 0 (by decide) (by decide) (by decide +kernel)
  · exact hexadecimal "0X" "1_0000_0000" 0x100000000 (by decide) (by decide) (by decide +kernel)

section

variable {text : List Char}

theorem Tiled.lone {offset : Nat} {span : Spanned Token} (tiled : Tiled offset text [span]) :
    ∃ rest, Token.Taken span.content (code text) rest := by
  cases tiled with
  | token _ piece rest token _ taken follow =>
      cases follow with
      | done _ _ ended =>
          rw [code_append piece rest taken.no_comment, ended, List.append_nil]
          exact ⟨rest, taken⟩

theorem stops_of_comment (ended : code text = []) : Stops isNamePart text := by
  rcases (code_eq_nil text).mp ended with rfl | ⟨comment, rfl⟩
  · exact stops_nil _
  · exact stops_cons _ _ _ (by decide)

theorem isLiteral_plain (word : Word) (isLiteral : IsLiteral text word) : '#' ∉ text := by
  obtain ⟨literal, written, _⟩ := isLiteral
  intro member
  rcases written.parts '#' member with same | part
  · cases same
  · exact absurd part (by decide)

end

theorem literal?_eq_some (text : String) (word : Word) :
    literal? text = some word ↔ IsLiteral (code text.toList) word := by
  constructor
  · intro read
    unfold literal? at read
    split at read
    · next start stop other scanned =>
        cases read
        obtain ⟨rest, taken⟩ := (tiled_of_scanAll (Cursor.ofString text) _ scanned).lone
        cases taken with
        | number literal _ _ _ written digits denotes ends =>
            exact ⟨literal, written, digits, denotes⟩
    · cases read
  · rintro ⟨literal, written, digits, denotes⟩
    have ended := code_dropWhile text.toList
    have whole : code text.toList ++ text.toList.dropWhile (· != '#') = text.toList :=
      List.takeWhile_append_dropWhile
    have ends := literal.ends_of_word _ (stops_of_comment ended)
    have taken := Token.Taken.number literal word _ _ written digits denotes ends
    have tiled := Tiled.token 0 _ _ _ _ taken (.done _ _ ended)
    rw [whole] at tiled
    have scanned : Token.ofLine text = _ := tiled.scanAll
    rw [literal?, scanned]

theorem parse_eq_ok (text : String) (register : Register) (word : Word) :
    Expectation.parse text = .ok ⟨register, word⟩ ↔
      ∃ name value, Expectation.sides? text.toList = some (name, value) ∧
        Register.ofName? (String.ofList name) = some register ∧ IsLiteral (code value) word := by
  have literal (value : List Char) : literal? (String.ofList value) = some word ↔
      IsLiteral (code value) word := by
    rw [literal?_eq_some, String.toList_ofList]
  unfold Expectation.parse
  constructor
  · intro parsed
    split at parsed
    · cases parsed
    · next name value sides =>
        split at parsed
        · cases parsed
        · next found named =>
            split at parsed
            · cases parsed
            · next read =>
                cases parsed
                exact ⟨name, value, sides, named, (literal value).mp read⟩
  · rintro ⟨name, value, sides, named, isLiteral⟩
    simp only [sides, named, (literal value).mpr isLiteral]

/-- A text is taken for a number exactly if it is one literal up to its comment. Only where there is
no comment is it all of the text; this holds for the value of an expectation as well. -/
theorem literal_read_before_comment (text : String) (word : Word) :
    (literal? text = some word ↔ IsLiteral (code text.toList) word) ∧
    ('#' ∉ text.toList → (literal? text = some word ↔ IsLiteral text.toList word)) ∧
    ∀ register, Expectation.parse text = .ok ⟨register, word⟩ ↔
      ∃ name value, Expectation.sides? text.toList = some (name, value) ∧
        Register.ofName? (String.ofList name) = some register ∧ IsLiteral (code value) word := by
  refine ⟨literal?_eq_some text word, fun plain => ?_, fun register => ?_⟩
  · have whole := code_append text.toList [] plain
    rw [List.append_nil, show code [] = [] from rfl, List.append_nil] at whole
    rw [literal?_eq_some, whole]
  · exact parse_eq_ok text register word

theorem negative_read_whole :
    '#' ∉ "-12".toList ∧ IsLiteral "-12".toList 0xFFFFFFF4 ∧
      ¬ IsLiteral "-12 ".toList 0xFFFFFFF4 := by
  obtain ⟨_, negative, _⟩ := literal_read_before_comment "-12" 0xFFFFFFF4
  obtain ⟨_, padded, _⟩ := literal_read_before_comment "-12 " 0xFFFFFFF4
  refine ⟨by decide, (negative (by decide)).mp (by decide +kernel), fun isLiteral => ?_⟩
  exact absurd ((padded (by decide)).mpr isLiteral) (by decide +kernel)

/-- What is behind the number is dropped as a comment, and the number is still accepted. -/
theorem comment_passes_for_number :
    ¬ (literal? "5#6" = some 5 ↔ IsLiteral "5#6".toList 5) ∧
      Expectation.parse "r0=5#6" = .ok ⟨.r0, 5⟩ := by
  refine ⟨fun same => ?_, by decide +kernel⟩
  have read : literal? "5#6" = some 5 := by decide +kernel
  exact isLiteral_plain 5 (same.mp read) (by decide)

end Assembly

end ToyComputer
