import ToyComputer.Proofs.Resolution

/-!
Parsing: which tokens are read as which operands, and as which line. What holds of all operands that
are read is shown along these readings, without the ways in which tokens can be wrong.
-/

namespace ToyComputer.Assembly

/-- The tokens are read as these operands where this is expected. -/
inductive Parses : Expected → List Token → List Operand → Prop where
  | empty : Parses (.operand false) [] []
  | last : Parses .comma [] []
  | space {expected : Expected} {rest : List Token} {operands : List Operand}
      (follow : Parses expected rest operands) : Parses expected (.space :: rest) operands
  | comma {rest : List Token} {operands : List Operand}
      (follow : Parses (.operand true) rest operands) : Parses .comma (.comma :: rest) operands
  | immediate {afterComma : Bool} {rest : List Token} {operands : List Operand} (word : Word)
      (follow : Parses .comma rest operands) :
      Parses (.operand afterComma) (.number word :: rest) (.immediate word :: operands)
  | register {afterComma : Bool} {rest : List Token} {operands : List Operand} (name : String)
      (operand : Operand) (named : operandOfName name = .ok operand)
      (follow : Parses .comma rest operands) :
      Parses (.operand afterComma) (.identifier name :: rest) (operand :: operands)
  | openBracket {afterComma : Bool} {rest : List Token} {operands : List Operand}
      (follow : Parses (.part []) rest operands) :
      Parses (.operand afterComma) (.openBracket :: rest) operands
  | value {parts : List AddressPart} {rest : List Token} {operands : List Operand} (word : Word)
      (follow : Parses (.part (.offset (.value word) :: parts)) rest operands) :
      Parses (.part parts) (.number word :: rest) operands
  | name {parts : List AddressPart} {rest : List Token} {operands : List Operand} (name : String)
      (part : AddressPart) (named : AddressPart.ofName name = .ok part)
      (follow : Parses (.part (part :: parts)) rest operands) :
      Parses (.part parts) (.identifier name :: rest) operands
  | closeBracket {parts : List AddressPart} {rest : List Token} {operands : List Operand}
      (address : Addressing) (gathered : addressOfParts parts.reverse = .ok address)
      (follow : Parses .comma rest operands) :
      Parses (.part parts) (.closeBracket :: rest) (.address address :: operands)

theorem prependOperand_eq_ok (first : Except SourceError Operand)
    (rest : Except SourceError (List Operand)) (operands : List Operand)
    (read : prependOperand first rest = .ok operands) :
    ∃ operand others, first = .ok operand ∧ rest = .ok others ∧ operands = operand :: others := by
  cases first with
  | error error => cases read
  | ok operand =>
      cases rest with
      | error error => cases read
      | ok others =>
          cases read
          exact ⟨operand, others, rfl, rfl, rfl⟩

theorem parses_of_operandsFrom (expected : Expected) (tokens : List Token)
    (operands : List Operand) (read : operandsFrom expected tokens = .ok operands) :
    Parses expected tokens operands := by
  -- By induction over the tokens: each step of a reading is one of its rules.
  induction tokens generalizing expected operands with
  | nil =>
      cases expected with
      | operand afterComma =>
          cases afterComma with
          | true => cases read
          | false => cases read; exact .empty
      | comma => cases read; exact .last
      | part parts => cases read
  | cons token rest ih =>
      cases token with
      | space => exact .space (ih expected operands read)
      | comma =>
          cases expected with
          | operand _ | part _ => cases read
          | comma => exact .comma (ih (.operand true) operands read)
      | number word =>
          cases expected with
          | operand _ =>
              obtain ⟨operand, others, made, more, rfl⟩ := prependOperand_eq_ok _ _ _ read
              cases made
              exact .immediate word (ih .comma others more)
          | comma => cases read
          | part parts => exact .value word (ih _ operands read)
      | identifier name =>
          cases expected with
          | operand _ =>
              obtain ⟨operand, others, made, more, rfl⟩ := prependOperand_eq_ok _ _ _ read
              exact .register name operand made (ih .comma others more)
          | comma => cases read
          | part parts =>
              rw [operandsFrom] at read
              cases found : AddressPart.ofName name with
              | error error => rw [found] at read; cases read
              | ok part =>
                  rw [found] at read
                  exact .name name part found (ih _ operands read)
      | openBracket =>
          cases expected with
          | operand _ => exact .openBracket (ih (.part []) operands read)
          | comma | part _ => cases read
      | closeBracket =>
          cases expected with
          | operand _ | comma => cases read
          | part parts =>
              obtain ⟨operand, others, made, more, rfl⟩ := prependOperand_eq_ok _ _ _ read
              cases gathered : addressOfParts parts.reverse with
              | error error => rw [gathered] at made; cases made
              | ok address =>
                  rw [gathered] at made
                  cases made
                  exact .closeBracket address gathered (ih .comma others more)
      | colon => cases expected <;> cases read

theorem Parses.operandsFrom {expected : Expected} {tokens : List Token} {operands : List Operand}
    (parses : Parses expected tokens operands) : operandsFrom expected tokens = .ok operands := by
  induction parses with
  | empty | last => rfl
  | space follow ih => exact ih
  | comma follow ih => exact ih
  | immediate word follow ih => rw [Assembly.operandsFrom, ih]; rfl
  | register name operand named follow ih => rw [Assembly.operandsFrom, ih, named]; rfl
  | openBracket follow ih => exact ih
  | value word follow ih => exact ih
  | name name part named follow ih => rw [Assembly.operandsFrom, named]; exact ih
  | closeBracket address gathered follow ih => rw [Assembly.operandsFrom, gathered, ih]; rfl

/-- What a token completes and what is expected behind it is told without the tokens that follow. -/
theorem Parses.first {expected : Expected} {token : Token} {rest : List Token}
    {operands : List Operand} (parses : Parses expected (token :: rest) operands) :
    ∃ inner made others, operands = made ++ others ∧ Parses inner rest others ∧
      ∀ tail more, Parses inner tail more → Parses expected (token :: tail) (made ++ more) := by
  cases parses with
  | space follow => exact ⟨_, [], _, rfl, follow, fun _ _ => .space⟩
  | comma follow => exact ⟨_, [], _, rfl, follow, fun _ _ => .comma⟩
  | immediate word follow => exact ⟨_, [_], _, rfl, follow, fun _ _ => .immediate word⟩
  | register name operand named follow =>
      exact ⟨_, [operand], _, rfl, follow, fun _ _ => .register name operand named⟩
  | openBracket follow => exact ⟨_, [], _, rfl, follow, fun _ _ => .openBracket⟩
  | value word follow => exact ⟨_, [], _, rfl, follow, fun _ _ => .value word⟩
  | name name part named follow =>
      exact ⟨_, [], _, rfl, follow, fun _ _ => .name name part named⟩
  | closeBracket address gathered follow =>
      exact ⟨_, [_], _, rfl, follow, fun _ _ => .closeBracket address gathered⟩

theorem Parses.behind {expected : Expected} {front tail : List Token} {operands : List Operand}
    (parses : Parses expected (front ++ tail) operands) :
    ∃ inner before rest, operands = before ++ rest ∧ Parses inner tail rest ∧
      ∀ other more, Parses inner other more →
        Parses expected (front ++ other) (before ++ more) := by
  induction front generalizing expected operands with
  | nil => exact ⟨expected, [], operands, rfl, parses, fun _ _ other => other⟩
  | cons token front ih =>
      obtain ⟨next, made, others, rfl, follow, first⟩ := parses.first
      obtain ⟨inner, before, rest, rfl, reads, replace⟩ := ih follow
      refine ⟨inner, made ++ before, rest, (List.append_assoc _ _ _).symm, reads, ?_⟩
      intro other more found
      rw [List.append_assoc]
      exact first _ _ (replace other more found)

def Expected.parts : Expected → List AddressPart
  | .part parts => parts
  | _ => []

theorem addressOfParts_eq_ok (parts : List AddressPart) (address : Addressing) :
    addressOfParts parts = .ok address ↔
      parts ≠ [] ∧ (parts.filterMap AddressPart.register?).length ≤ 2 ∧
        (parts.filterMap AddressPart.offset?).length ≤ 1 ∧
        address = ⟨(parts.filterMap AddressPart.register?)[0]?,
          (parts.filterMap AddressPart.register?)[1]?,
          (parts.filterMap AddressPart.offset?)[0]?⟩ := by
  constructor
  · intro gathered
    unfold addressOfParts at gathered
    simp only at gathered
    split at gathered
    · cases gathered
    · next single =>
        split at gathered
        · cases gathered
        · next pair =>
            split at gathered
            · cases gathered
            · next nonempty =>
                cases gathered
                refine ⟨?_, Nat.le_of_not_lt pair, Nat.le_of_not_lt single, rfl⟩
                rintro rfl
                exact nonempty rfl
  · rintro ⟨nonempty, pair, single, rfl⟩
    have filled : parts.isEmpty = false := List.isEmpty_eq_false_iff.mpr nonempty
    simp [addressOfParts, Nat.not_lt.mpr pair, Nat.not_lt.mpr single, filled]

theorem offset_of_part (parts : List AddressPart) (address : Addressing) (offset : Offset)
    (gathered : addressOfParts parts = .ok address) (member : .offset offset ∈ parts) :
    address.offset = some offset := by
  obtain ⟨_, _, single, rfl⟩ := (addressOfParts_eq_ok parts address).mp gathered
  have listed : offset ∈ parts.filterMap AddressPart.offset? :=
    List.mem_filterMap.mpr ⟨_, member, rfl⟩
  rcases offsets : parts.filterMap AddressPart.offset? with _ | ⟨first, _ | ⟨second, more⟩⟩
  · rw [offsets] at listed
    cases listed
  · rw [offsets, List.mem_singleton] at listed
    rw [listed]
    rfl
  · rw [offsets] at single
    simp at single

theorem offsets_le_cons (part : AddressPart) (parts : List AddressPart) :
    (parts.filterMap AddressPart.offset?).length ≤
      ((part :: parts).filterMap AddressPart.offset?).length :=
  ((List.sublist_cons_self part parts).filterMap AddressPart.offset?).length_le

theorem Parses.single {expected : Expected} {tokens : List Token} {operands : List Operand}
    (parses : Parses expected tokens operands) :
    (expected.parts.filterMap AddressPart.offset?).length ≤ 1 := by
  induction parses with
  | empty | last | comma | immediate | register | openBracket => exact Nat.zero_le 1
  | space follow ih => exact ih
  | value word follow ih => exact Nat.le_trans (offsets_le_cons _ _) ih
  | name name part named follow ih => exact Nat.le_trans (offsets_le_cons part _) ih
  | @closeBracket parts rest operands address gathered follow ih =>
      have single := ((addressOfParts_eq_ok parts.reverse address).mp gathered).2.2.1
      rwa [List.filterMap_reverse, List.length_reverse] at single

theorem ofName_eq_ok (name : String) (part : AddressPart)
    (named : AddressPart.ofName name = .ok part) :
    name ≠ "pc" ∧ ((∃ register, Register.ofName? name = some register ∧ part = .register register) ∨
      (Register.ofName? name = none ∧ part = .offset (.label name))) := by
  unfold AddressPart.ofName at named
  split at named
  · cases named
  · next noCounter =>
      split at named
      · next register found =>
          cases named
          exact ⟨noCounter, Or.inl ⟨register, found, rfl⟩⟩
      · next noRegister =>
          cases named
          exact ⟨noCounter, Or.inr ⟨noRegister, rfl⟩⟩

theorem operandOfName_eq_ok (name : String) (operand : Operand) :
    operandOfName name = .ok operand ↔
      ∃ register : Register, register.name = name ∧ operand = .register register := by
  constructor
  · intro named
    unfold operandOfName at named
    split at named
    · cases named
    · split at named
      · next register found =>
          cases named
          exact ⟨register, Register.name_of_ofName? found, rfl⟩
      · cases named
  · rintro ⟨register, rfl, rfl⟩
    have noCounter : register.name ≠ "pc" := by cases register <;> decide
    simp [operandOfName, noCounter, Register.ofName?_name]

def Gap (tokens : List Token) : Prop := tokens = [] ∨ tokens = [.space]

def labelTokens : Option String → List Token
  | none => []
  | some label => [.identifier label, .colon]

/-- A line is its label and its instruction, each of which may be missing, with gaps before them. -/
structure LineShape (tokens : List Token) (line : Line) (lead gap rest : List Token) : Prop where
  tokens : tokens = lead ++ (labelTokens line.label ++ (gap ++ rest))
  lead : Gap lead
  gap : Gap gap
  operation : Line.operationOfTokens rest = .ok line.operation

theorem dropSpace_gap (tokens : List Token) :
    ∃ gap, Gap gap ∧ tokens = gap ++ Line.dropSpace tokens := by
  unfold Line.dropSpace
  split
  · exact ⟨[.space], Or.inr rfl, rfl⟩
  · exact ⟨[], Or.inl rfl, rfl⟩

theorem takeLabel_labelTokens (tokens : List Token) :
    tokens = labelTokens (Line.takeLabel tokens).1 ++ (Line.takeLabel tokens).2 := by
  unfold Line.takeLabel
  split <;> rfl

theorem shape_of_ofTokens (tokens : List Token) (line : Line)
    (read : Line.ofTokens tokens = .ok line) :
    ∃ lead gap rest, LineShape tokens line lead gap rest := by
  obtain ⟨lead, leads, split⟩ := dropSpace_gap tokens
  obtain ⟨gap, gaps, behind⟩ := dropSpace_gap (Line.takeLabel (Line.dropSpace tokens)).2
  have label := takeLabel_labelTokens (Line.dropSpace tokens)
  simp only [Line.ofTokens] at read
  cases found : Line.operationOfTokens
      (Line.dropSpace (Line.takeLabel (Line.dropSpace tokens)).2) with
  | error error => rw [found] at read; cases read
  | ok operation =>
      rw [found] at read
      cases read
      refine ⟨lead, gap, _, ?_, leads, gaps, found⟩
      rw [← behind, ← label, ← split]

theorem operationOfTokens_eq_ok (tokens : List Token) (operation : Option Operation)
    (read : Line.operationOfTokens tokens = .ok operation) :
    (tokens = [] ∧ operation = none) ∨
    ∃ mnemonic rest operands found, tokens = .identifier mnemonic :: rest ∧
      operation = some found ∧ Parses (.operand false) rest operands ∧
      found.opcode.mnemonic = mnemonic ∧ found.operands = operands := by
  unfold Line.operationOfTokens at read
  split at read
  · cases read
    exact Or.inl ⟨rfl, rfl⟩
  · next mnemonic rest =>
      right
      split at read
      · cases read
      · next operands parsed =>
          cases resolved : resolve mnemonic operands with
          | error error => rw [resolved] at read; cases read
          | ok found =>
              rw [resolved] at read
              cases read
              exact ⟨mnemonic, rest, operands, found, rfl, rfl, parses_of_operandsFrom _ _ _ parsed,
                (resolve_eq_ok mnemonic operands found).mp resolved⟩
  · cases read

theorem bare_of_operation (tokens : List Token) (operation : Option Operation)
    (read : Line.operationOfTokens tokens = .ok operation) :
    Line.dropSpace tokens = tokens ∧ Line.takeLabel tokens = (none, tokens) := by
  obtain ⟨rfl, _⟩ | ⟨mnemonic, rest, operands, found, rfl, _, parses, _⟩ :=
    operationOfTokens_eq_ok tokens operation read
  · exact ⟨rfl, rfl⟩
  · refine ⟨rfl, ?_⟩
    cases parses <;> rfl

theorem LineShape.ofTokens {tokens lead gap rest : List Token} {line : Line}
    (shape : LineShape tokens line lead gap rest) : Line.ofTokens tokens = .ok line := by
  obtain ⟨rfl, leads, gaps, read⟩ := shape
  obtain ⟨label, operation⟩ := line
  obtain ⟨noSpace, noLabel⟩ := bare_of_operation rest operation read
  have behind : Line.dropSpace (gap ++ rest) = rest := by
    rcases gaps with rfl | rfl
    · exact noSpace
    · rfl
  have parted :
      let split := Line.takeLabel (Line.dropSpace (lead ++ (labelTokens label ++ (gap ++ rest))))
      Line.dropSpace split.2 = rest ∧ split.1 = label := by
    cases label with
    | some label => rcases leads with rfl | rfl <;> exact ⟨behind, rfl⟩
    | none =>
        have dropped (tokens : List Token) : Line.dropSpace (.space :: tokens) = tokens := rfl
        have spaced : Line.takeLabel (.space :: rest) = (none, .space :: rest) := rfl
        rcases leads with rfl | rfl <;> rcases gaps with rfl | rfl <;>
          simp [labelTokens, noSpace, noLabel, dropped, spaced]
  simp only [Line.ofTokens, parted.1, parted.2, read]
  rfl

end ToyComputer.Assembly
