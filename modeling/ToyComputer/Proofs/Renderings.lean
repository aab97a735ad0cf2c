import ToyComputer.Instruction.Addressing
import ToyComputer.Proofs.Tables
import ToyComputer.Proofs.Tokens

/-!
Renderings: the texts that a word is shown as. Each of them is a literal of this word, and one field
where it stands in a table.
-/

namespace ToyComputer

namespace Word

def shown (word : Word) : List String :=
  word.hex :: toString word.toNat :: (word.negative?.map toString).toList

/-- What is ever shown of a word. Addresses have no leading zeros and no gap. -/
def renderings (word : Word) : List String := (Offset.value word).text :: word.shown

end Word

namespace Text

theorem numeralValue_leftpad (base width : Nat) (digits : List Char) :
    numeralValue base (digits.leftpad width '0') = numeralValue base digits := by
  have zeros (count : Nat) : numeralValue base (List.replicate count '0') = 0 := by
    induction count with
    | zero => rfl
    | succ count ih =>
        rw [List.replicate_succ', numeralValue_concat, ih, Nat.zero_mul]
        rfl
  have split : numeralValue base (digits.leftpad width '0') =
      digits.foldl (fun value digit => value * base + digitValue digit)
        (numeralValue base (List.replicate (width - digits.length) '0')) :=
    List.foldl_append
  rw [split, zeros]
  rfl

theorem isHexDigit_of_mem_padded (width number : Nat) (digit : Char)
    (member : digit ∈ hexDigitsPadded width number) : isHexDigit digit = true := by
  rcases List.mem_append.mp member with zero | digit
  · rw [List.eq_of_mem_replicate zero]
    rfl
  · exact isHexDigit_of_mem number _ digit

end Text

namespace Assembly

open Text

variable (word : Word)

theorem isLiteral_address : IsLiteral (Offset.value word).text.toList word := by
  have literal := isLiteral_hexDigits word.toNat word.toNat_lt
  rw [UInt32.ofNat_toNat] at literal
  simpa [Offset.text] using literal

theorem isLiteral_hex : IsLiteral word.hex.toList word := by
  have whole := List.take_append_drop 4 (hexDigitsPadded 8 word.toNat)
  have literal := isLiteral_parted ((hexDigitsPadded 8 word.toNat).take 4)
    ((hexDigitsPadded 8 word.toNat).drop 4) word.toNat word.toNat_lt
    (by
      rw [whole]
      exact isHexDigit_of_mem_padded 8 word.toNat)
    (by
      rw [whole]
      exact List.append_ne_nil_of_right_ne_nil _ (hexDigits_ne_nil word.toNat))
    (by
      rw [whole]
      exact (numeralValue_leftpad 16 8 _).trans (numeralValue_hexDigits word.toNat))
  rw [UInt32.ofNat_toNat] at literal
  simpa [Word.hex] using literal

theorem isLiteral_unsigned : IsLiteral (toString word.toNat).toList word := by
  have literal := isLiteral_decimal word.toNat word.toNat_lt
  rw [UInt32.ofNat_toNat] at literal
  rwa [Nat.toString_eq_ofList_toDigits, String.toList_ofList]

theorem isLiteral_signed (negative : Int) (below : word.negative? = some negative) :
    IsLiteral (toString negative).toList word := by
  have bound := word.toNat_lt
  unfold Word.negative? at below
  split at below
  · cases below
  · next large =>
      cases below
      have literal := isLiteral_negative (2 ^ 32 - word.toNat) (by omega)
      rw [show 2 ^ 32 - (2 ^ 32 - word.toNat) = word.toNat by omega, UInt32.ofNat_toNat] at literal
      have letters : (toString ((word.toNat : Int) - 0x100000000)).toList =
          '-' :: (toString (2 ^ 32 - word.toNat)).toList := by
        rw [Int.toString_eq_repr, Int.repr_eq_if, if_neg (by omega),
          show (-((word.toNat : Int) - 0x100000000)).toNat = 2 ^ 32 - word.toNat by omega]
        exact String.toList_append
      rwa [letters, Nat.toString_eq_ofList_toDigits, String.toList_ofList]

theorem isLiteral_renderings : ∀ text ∈ word.renderings, IsLiteral text.toList word := by
  intro text member
  rcases List.mem_cons.mp member with rfl | member
  · exact isLiteral_address word
  rcases List.mem_cons.mp member with rfl | member
  · exact isLiteral_hex word
  rcases List.mem_cons.mp member with rfl | member
  · exact isLiteral_unsigned word
  · obtain ⟨negative, below, rfl⟩ := Option.map_eq_some_iff.mp (Option.mem_toList.mp member)
    exact isLiteral_signed word negative below

variable {word} {text : String}

theorem IsLiteral.solid (isLiteral : IsLiteral text.toList word) : Solid text := by
  obtain ⟨literal, written, _⟩ := isLiteral
  refine ⟨?_, written.parts⟩
  obtain ⟨first, rest, letters, _⟩ := written.begins
  rintro rfl
  cases letters

theorem solid_hexDigitsPadded (width number : Nat) :
    Solid (String.ofList (hexDigitsPadded width number)) where
  present := by
    rw [Ne, ← String.toList_eq_nil_iff, String.toList_ofList]
    exact List.append_ne_nil_of_right_ne_nil _ (hexDigits_ne_nil number)
  parts c member := by
    rw [String.toList_ofList] at member
    have digit := isHexDigit_of_mem_padded width number c member
    exact Or.inr (hexadecimal_namePart c (isHexadecimalPart_of_isHexDigit c digit))

theorem solid_decimal (number : Nat) : Solid (toString number) where
  present := by
    rw [Ne, ← String.toList_eq_nil_iff, Nat.toString_eq_ofList_toDigits, String.toList_ofList]
    exact Nat.toDigits_ne_nil
  parts c member := by
    rw [Nat.toString_eq_ofList_toDigits, String.toList_ofList] at member
    exact Or.inr (digit_namePart c (isDigit_of_mem_decimal number c member))

end Assembly

end ToyComputer
