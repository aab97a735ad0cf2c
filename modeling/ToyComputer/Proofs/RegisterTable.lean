import ToyComputer.Machine.Registers
import ToyComputer.Proofs.LoneLiterals
import ToyComputer.Proofs.Writing

/-!
The register table: what it shows of a register reads as the value of this register, also in an
expectation.
-/

namespace ToyComputer

open Assembly Text

namespace Registers

def named (registers : Registers) : List (String × Word) :=
  (Register.all.map fun r => (r.name, registers.get r)) ++ [("pc", registers.pc)]

section

variable (name : String) (value : Word) (solid : Solid name)

include solid

theorem tableRow_front : ∃ front,
    tableRow name value =
      front ++ (match value.negative? with
        | some negative => " (" ++ toString negative ++ ")"
        | none => "") ++ "\n" ∧
    StaysInLine front ∧ fields front = [name, value.hex, toString value.toNat] := by
  have hex := (isLiteral_hex value).solid
  have unsigned := (isLiteral_unsigned value).solid
  have colon : Gap ": " := ⟨by decide, by decide⟩
  have space : Gap " " := ⟨by decide, by decide⟩
  refine ⟨_, rfl, ?_, ?_⟩
  · simp only [staysInLine_append]
    exact ⟨⟨⟨⟨staysInLine_alignRight 3 name solid.staysInLine, colon.staysInLine⟩,
      hex.staysInLine⟩, space.staysInLine⟩, staysInLine_alignRight 10 _ unsigned.staysInLine⟩
  · rw [fields_append space, fields_append colon, fields_alignRight, fields_alignRight,
      solid.fields, hex.fields, unsigned.fields]
    rfl

theorem tableRow_eq : ∃ row,
    tableRow name value = row ++ "\n" ∧ StaysInLine row ∧ fields row = name :: value.shown := by
  obtain ⟨front, written, within, shows⟩ := tableRow_front name value solid
  cases below : value.negative? with
  | none =>
      rw [below] at written
      refine ⟨front ++ "", written, by rwa [String.append_empty], ?_⟩
      rw [String.append_empty, shows, Word.shown, below]
      rfl
  | some negative =>
      have signed := (isLiteral_signed value negative below).solid
      have opening : Gap " (" := ⟨by decide, by decide⟩
      have closing : Gap ")" := ⟨by decide, by decide⟩
      rw [below] at written
      refine ⟨front ++ (" (" ++ toString negative ++ ")"), written, ?_, ?_⟩
      · simp only [staysInLine_append]
        exact ⟨within, ⟨opening.staysInLine, signed.staysInLine⟩, closing.staysInLine⟩
      · rw [← String.append_assoc, ← String.append_assoc, fields_closed closing,
          fields_append opening, shows, signed.fields, Word.shown, below]
        rfl

end

theorem fields_tableRows (entries : List (String × Word))
    (solid : ∀ entry ∈ entries, Solid entry.1) :
    (lines (String.join (entries.map fun entry => tableRow entry.1 entry.2))).map fields =
      entries.map fun entry => entry.1 :: entry.2.shown := by
  induction entries with
  | nil => rfl
  | cons entry entries ih =>
      obtain ⟨here, others⟩ := List.forall_mem_cons.mp solid
      obtain ⟨row, written, within, shows⟩ := tableRow_eq entry.1 entry.2 here
      rw [List.map_cons, String.join_cons, written, lines_row row _ within, List.map_cons, shows,
        ih others, List.map_cons]

theorem solid_named (registers : Registers) : ∀ entry ∈ registers.named, Solid entry.1 := by
  intro entry member
  rcases List.mem_append.mp member with general | counter
  · obtain ⟨r, _, rfl⟩ := List.mem_map.mp general
    exact .of_isName (isName_register r)
  · rw [List.mem_singleton.mp counter]
    exact .of_isName (show isName "pc" = true by decide +kernel)

theorem fields_table (registers : Registers) :
    (lines registers.table).map fields =
      registers.named.map fun entry => entry.1 :: entry.2.shown := by
  have table : registers.table =
      String.join (registers.named.map fun entry => tableRow entry.1 entry.2) := by
    simp [Registers.table, named, String.join_append, Function.comp_def]
  rw [table, fields_tableRows _ registers.solid_named]

end Registers

namespace Expectation

theorem forall_whiteSpace (p : Char → Bool)
    (each : ∀ range ∈ whiteSpaceRanges, ∀ code ∈ List.range' range.1 (range.2 + 1 - range.1),
      p (Char.ofNat code) = true) (c : Char) (space : isWhiteSpace c = true) : p c = true := by
  -- What is true of the few white space characters is true of white space.
  obtain ⟨range, listed, inside⟩ := List.any_eq_true.mp space
  simp only [Bool.and_eq_true, decide_eq_true_eq] at inside
  have found := each range listed c.toNat (List.mem_range'_1.mpr (by omega))
  rwa [Char.ofNat_toNat] at found

theorem whiteSpace_parts (c : Char) (space : isWhiteSpace c = true) :
    isWordCharacter c = false ∧ isNamePart c = false ∧ c ≠ '-' := by
  have outside := forall_whiteSpace
    (fun c => !isWordCharacter c && !isNamePart c && c != '-') (by decide +kernel) c space
  simpa [and_assoc] using outside

theorem dropSpace_append (space rest : List Char) (blank : ∀ c ∈ space, isWhiteSpace c = true)
    (stops : Stops isWhiteSpace rest) : dropSpace (space ++ rest) = rest :=
  dropWhile_append_of_stops isWhiteSpace space rest blank stops

theorem dropSpace_solid (space text rest : List Char) (blank : ∀ c ∈ space, isWhiteSpace c = true)
    (filled : text ≠ []) (solid : ∀ c ∈ text, isWhiteSpace c = false) :
    dropSpace (space ++ (text ++ rest)) = text ++ rest := by
  obtain ⟨c, more, rfl⟩ := List.exists_cons_of_ne_nil filled
  exact dropSpace_append _ _ blank (stops_cons _ _ _ (solid c List.mem_cons_self))

theorem dropSpace_blank (space : List Char) (blank : ∀ c ∈ space, isWhiteSpace c = true) :
    dropSpace space = [] := by
  have dropped := dropSpace_append space [] blank (stops_nil _)
  rwa [List.append_nil] at dropped

theorem sides?_padded (name value : List Char) (named : name ≠ []) (filled : value ≠ [])
    (word : ∀ c ∈ name, isWordCharacter c = true) (solid : ∀ c ∈ value, isWhiteSpace c = false)
    (before behind between after : List Char)
    (blank : ∀ space ∈ [before, behind, between, after], ∀ c ∈ space, isWhiteSpace c = true) :
    sides? (before ++ (name ++ (behind ++ '=' :: (between ++ (value ++ after))))) =
      some (name, value) := by
  simp only [List.forall_mem_cons] at blank
  obtain ⟨blankBefore, blankBehind, blankBetween, blankAfter, _⟩ := blank
  have namedSolid : ∀ c ∈ name, isWhiteSpace c = false := fun c member =>
    eq_false_of_ne_true fun space =>
      Bool.false_ne_true ((whiteSpace_parts c space).1.symm.trans (word c member))
  have first := dropSpace_solid before name (behind ++ '=' :: (between ++ (value ++ after)))
    blankBefore named namedSolid
  -- The name ends at white space or the equals sign, neither of which is a word character.
  have ends : Stops isWordCharacter (behind ++ '=' :: (between ++ (value ++ after))) :=
    stops_append _ _ _ (fun c member => (whiteSpace_parts c (blankBehind c member)).1)
      (stops_cons _ _ _ (by decide))
  have second : dropSpace (behind ++ '=' :: (between ++ (value ++ after))) =
      '=' :: (between ++ (value ++ after)) :=
    dropSpace_append _ _ blankBehind (stops_cons _ _ _ (by decide))
  have third := dropSpace_solid between value after blankBetween filled solid
  have taken : (value ++ after).takeWhile (fun c => !isWhiteSpace c) = value := by
    have stops : Stops (fun c => !isWhiteSpace c) (after ++ []) :=
      stops_append _ _ _ (fun c member => by rw [blankAfter c member]; rfl) (stops_nil _)
    rw [List.append_nil] at stops
    exact takeWhile_append_of_stops _ _ _ (fun c member => by rw [solid c member]; rfl) stops
  simp only [sides?, first, takeWhile_append_of_stops _ name _ word ends,
    dropWhile_append_of_stops _ name _ word ends, second, third, taken, List.drop_left,
    dropSpace_blank after blankAfter]
  simp [named, filled]

theorem parse_padded (register : Register) (word : Word) (text : String)
    (isLiteral : IsLiteral text.toList word) (before behind between after : String)
    (blank : ∀ space ∈ [before, behind, between, after], ∀ c ∈ space.toList,
      isWhiteSpace c = true) :
    parse (before ++ register.name ++ behind ++ "=" ++ between ++ text ++ after) =
      .ok ⟨register, word⟩ := by
  have whole := code_of_plain text.toList (isLiteral_plain word isLiteral)
  have named : register.name.toList ≠ [] ∧ register.name.toList.all isWordCharacter = true := by
    cases register <;> decide
  have solid : ∀ c ∈ text.toList, isWhiteSpace c = false := by
    intro c member
    refine eq_false_of_ne_true fun space => ?_
    obtain ⟨_, noName, noMinus⟩ := whiteSpace_parts c space
    rcases isLiteral.solid.parts c member with minus | part
    · exact noMinus minus
    · exact Bool.false_ne_true (noName.symm.trans part)
  have letters : ∀ space ∈ [before, behind, between, after].map String.toList,
      ∀ c ∈ space, isWhiteSpace c = true :=
    List.forall_mem_map.mpr blank
  have sides := sides?_padded register.name.toList text.toList named.1
    (mt String.toList_eq_nil_iff.mp isLiteral.solid.present) (List.all_eq_true.mp named.2) solid
    before.toList behind.toList between.toList after.toList letters
  rw [parse_eq_ok]
  refine ⟨register.name.toList, text.toList, ?_, ?_, by rwa [whole]⟩
  · simpa [String.toList_append, List.append_assoc] using sides
  · rw [String.ofList_toList, Register.ofName?_name]

end Expectation

/-- Whatever is shown of a word reads as this word. A row of the register table shows of a value
nothing but such texts, and an expectation takes each of them, with any white space in it. -/
theorem renderings_read_back :
    (∀ word : Word, ∀ text ∈ word.renderings, literal? text = some word) ∧
    (∀ registers : Registers, (lines registers.table).map fields =
      (Register.all.map fun r => r.name :: (registers.get r).shown) ++
        ["pc" :: registers.pc.shown]) ∧
    (∀ word : Word, word.shown.length ≤ 3 ∧ word.shown ⊆ word.renderings) ∧
    ∀ (register : Register) (word : Word), ∀ text ∈ word.renderings,
      ∀ before behind between after : String,
        (∀ space ∈ [before, behind, between, after], ∀ c ∈ space.toList, isWhiteSpace c = true) →
        Expectation.parse (before ++ register.name ++ behind ++ "=" ++ between ++ text ++ after) =
          .ok ⟨register, word⟩ := by
  refine ⟨fun word text shown => ?_, fun registers => ?_, fun word => ?_, ?_⟩
  · have isLiteral := isLiteral_renderings word text shown
    rwa [literal?_eq_some, code_of_plain text.toList (isLiteral_plain word isLiteral)]
  · rw [registers.fields_table, Registers.named, List.map_append, List.map_map]
    rfl
  · refine ⟨?_, List.subset_cons_self _ _⟩
    cases below : word.negative? <;> simp [Word.shown, below]
  · intro register word text shown before behind between after blank
    exact Expectation.parse_padded register word text (isLiteral_renderings word text shown)
      before behind between after blank

theorem least_word_reads_back :
    Word.renderings 0x80000000 = ["0x80000000", "0x8000_0000", "2147483648", "-2147483648"] ∧
      literal? "-2147483648" = some 0x80000000 ∧
      Expectation.parse " r1\t= -2147483648\n" = .ok ⟨.r1, 0x80000000⟩ := by
  obtain ⟨read, _, _, expected⟩ := renderings_read_back
  have renderings : Word.renderings 0x80000000 =
      ["0x80000000", "0x8000_0000", "2147483648", "-2147483648"] := by
    decide +kernel
  have blank : ∀ space ∈ [" ", "\t", " ", "\n"], space.toList.all isWhiteSpace = true := by decide
  refine ⟨renderings, read 0x80000000 "-2147483648" (by rw [renderings]; decide), ?_⟩
  exact expected .r1 0x80000000 "-2147483648" (by rw [renderings]; decide) " " "\t" " " "\n"
    fun space listed => List.all_eq_true.mp (blank space listed)

end ToyComputer
