import ToyComputer.Text.Numeral

/-!
Numerals: the digits that a number is written with spell the number.
-/

namespace ToyComputer.Text

theorem numeralValue_concat (base : Nat) (digits : List Char) (digit : Char) :
    numeralValue base (digits ++ [digit]) = numeralValue base digits * base + digitValue digit := by
  simp [numeralValue]

theorem numeralValue_toDigits (base number : Nat) (large : 1 < base) (draw : Char → Char)
    (drawn : ∀ value < base, digitValue (draw value.digitChar) = value) :
    numeralValue base ((Nat.toDigits base number).map draw) = number := by
  induction number using Nat.strongRecOn with
  | ind number ih =>
      rw [Nat.toDigits_eq_if large]
      split
      · next small => simp [numeralValue, drawn number small]
      · next enough =>
          have smaller : number / base < number := Nat.div_lt_self (by omega) large
          have last : number % base < base := Nat.mod_lt number (by omega)
          rw [List.map_append, List.map_singleton, numeralValue_concat, ih _ smaller, drawn _ last]
          exact Nat.div_add_mod' number base

theorem mem_toDigits (base number : Nat) (large : 1 < base) (digit : Char)
    (member : digit ∈ Nat.toDigits base number) : ∃ value < base, digit = value.digitChar := by
  induction number using Nat.strongRecOn with
  | ind number ih =>
      rw [Nat.toDigits_eq_if large] at member
      split at member
      · next small => exact ⟨number, small, List.mem_singleton.mp member⟩
      · next enough =>
          rcases List.mem_append.mp member with early | last
          · exact ih _ (Nat.div_lt_self (by omega) large) early
          · exact ⟨_, Nat.mod_lt number (by omega), List.mem_singleton.mp last⟩

theorem numeralValue_decimal (number : Nat) :
    numeralValue 10 (Nat.toDigits 10 number) = number := by
  have spelled := numeralValue_toDigits 10 number (by decide) id (by decide)
  rwa [List.map_id] at spelled

theorem numeralValue_hexDigits (number : Nat) : numeralValue 16 (hexDigits number) = number :=
  numeralValue_toDigits 16 number (by decide) Char.toUpper (by decide)

theorem hexDigits_ne_nil (number : Nat) : hexDigits number ≠ [] := by
  intro none
  exact Nat.toDigits_ne_nil (List.map_eq_nil_iff.mp none)

theorem isHexDigit_of_mem (number : Nat) (digit : Char) (member : digit ∈ hexDigits number) :
    isHexDigit digit = true := by
  obtain ⟨plain, listed, rfl⟩ := List.mem_map.mp member
  obtain ⟨value, small, rfl⟩ := mem_toDigits 16 number (by decide) plain listed
  have drawn : ∀ value < 16, isHexDigit value.digitChar.toUpper = true := by decide
  exact drawn value small

end ToyComputer.Text
