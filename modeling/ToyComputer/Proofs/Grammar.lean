import Mathlib.Data.List.Forall2
import ToyComputer.Proofs.Parsing

/-!
Grammar: the lines that are accepted, told from their tokens without the reader that goes through
them. An operand list is its operands with single commas between them, once all spaces are gone.
-/

namespace ToyComputer

theorem Register.ofName?_eq_none (name : String) :
    ofName? name = none ↔ ∀ register : Register, register.name ≠ name := by
  constructor
  · rintro missing register rfl
    rw [ofName?_name] at missing
    cases missing
  · intro other
    cases found : ofName? name with
    | none => rfl
    | some register => exact absurd (name_of_ofName? found) (other register)

def Operation.written (operation : Operation) : Opcode × List Operand :=
  (operation.opcode, operation.operands)

namespace Assembly

/-- A token between brackets, and what it adds to the address. The name of a register is never
taken for a label. -/
inductive IsPart : Token → AddressPart → Prop where
  | value (word : Word) : IsPart (.number word) (.offset (.value word))
  | register (register : Register) : IsPart (.identifier register.name) (.register register)
  | label (name : String) (noCounter : name ≠ "pc")
      (noRegister : ∀ register : Register, register.name ≠ name) :
      IsPart (.identifier name) (.offset (.label name))

/-- The tokens of one operand, without spaces. -/
inductive IsOperand : List Token → Operand → Prop where
  | immediate (word : Word) : IsOperand [.number word] (.immediate word)
  | register (register : Register) : IsOperand [.identifier register.name] (.register register)
  | address (body : List Token) (parts : List AddressPart) (each : List.Forall₂ IsPart body parts)
      (nonempty : parts ≠ []) (registers : (parts.filterMap AddressPart.register?).length ≤ 2)
      (offsets : (parts.filterMap AddressPart.offset?).length ≤ 1) :
      IsOperand (.openBracket :: (body ++ [.closeBracket]))
        (.address ⟨(parts.filterMap AddressPart.register?)[0]?,
          (parts.filterMap AddressPart.register?)[1]?,
          (parts.filterMap AddressPart.offset?)[0]?⟩)

def unspaced (tokens : List Token) : List Token := tokens.filter (· ≠ .space)

/-- Any number of operands, with no comma before the first or after the last. -/
def ListsOperands (tokens : List Token) (operands : List Operand) : Prop :=
  ∃ groups, List.Forall₂ IsOperand groups operands ∧
    unspaced tokens = [Token.comma].intercalate groups

inductive IsInstruction : List Token → Option (Opcode × List Operand) → Prop where
  | none : IsInstruction [] none
  | some {mnemonic : String} {rest : List Token} {operands : List Operand} (opcode : Opcode)
      (member : opcode ∈ Opcode.alternatives mnemonic) (listed : ListsOperands rest operands)
      (fits : operands.map Operand.kind = opcode.pattern) :
      IsInstruction (.identifier mnemonic :: rest) (some (opcode, operands))

/-- The tokens of a line with this label and this instruction. -/
def IsLine (tokens : List Token) (label : Option String)
    (instruction : Option (Opcode × List Operand)) : Prop :=
  ∃ lead gap rest, Gap lead ∧ Gap gap ∧ tokens = lead ++ (labelTokens label ++ (gap ++ rest)) ∧
    IsInstruction rest instruction

theorem isPart_iff (name : String) (part : AddressPart) :
    IsPart (.identifier name) part ↔ AddressPart.ofName name = .ok part := by
  constructor
  · intro isPart
    cases isPart with
    | register register =>
        have noCounter : register.name ≠ "pc" := by cases register <;> decide
        simp [AddressPart.ofName, noCounter, Register.ofName?_name]
    | label _ noCounter noRegister =>
        simp [AddressPart.ofName, noCounter, (Register.ofName?_eq_none name).mpr noRegister]
  · intro named
    obtain ⟨noCounter, ⟨register, found, rfl⟩ | ⟨missing, rfl⟩⟩ := ofName_eq_ok name part named
    · rw [← Register.name_of_ofName? found]
      exact .register register
    · exact .label name noCounter ((Register.ofName?_eq_none name).mp missing)

theorem unspaced_cons (token : Token) (tokens : List Token) (solid : token ≠ .space) :
    unspaced (token :: tokens) = token :: unspaced tokens := by
  simp [unspaced, solid]

theorem operandsFrom_unspaced (expected : Expected) (tokens : List Token) :
    operandsFrom expected (unspaced tokens) = operandsFrom expected tokens := by
  induction tokens generalizing expected with
  | nil => rfl
  | cons token tokens ih =>
      by_cases solid : token = .space
      · rw [solid]
        exact ih expected
      · rw [unspaced_cons token tokens solid]
        cases token <;> simp only [operandsFrom, ih]

def afterCommas (groups : List (List Token)) : List Token :=
  groups.flatMap fun group => .comma :: group

theorem intercalate_comma (group : List Token) (groups : List (List Token)) :
    [Token.comma].intercalate (group :: groups) = group ++ afterCommas groups := by
  induction groups generalizing group with
  | nil => simp [afterCommas]
  | cons next groups ih =>
      rw [List.intercalate_cons_cons, ih next]
      simp [afterCommas]

theorem operandsFrom_isPart (seen : List AddressPart) (token : Token) (part : AddressPart)
    (isPart : IsPart token part) (rest : List Token) :
    operandsFrom (.part seen) (token :: rest) = operandsFrom (.part (part :: seen)) rest := by
  cases token with
  | number word => cases isPart; rw [operandsFrom]
  | identifier name => rw [operandsFrom, (isPart_iff name part).mp isPart]
  | _ => cases isPart

theorem operandsFrom_body (seen : List AddressPart) (body : List Token) (parts : List AddressPart)
    (each : List.Forall₂ IsPart body parts) (rest : List Token) :
    operandsFrom (.part seen) (body ++ rest) = operandsFrom (.part (parts.reverse ++ seen)) rest := by
  induction each generalizing seen with
  | nil => rfl
  | @cons token part body parts isPart each ih =>
      calc
        _ = operandsFrom (.part (part :: seen)) (body ++ rest) :=
          operandsFrom_isPart seen token part isPart (body ++ rest)
        _ = operandsFrom (.part (parts.reverse ++ part :: seen)) rest := ih (part :: seen)
        _ = operandsFrom (.part ((part :: parts).reverse ++ seen)) rest := by
          rw [List.reverse_cons, List.append_assoc, List.singleton_append]

theorem operandsFrom_group (afterComma : Bool) (group : List Token) (operand : Operand)
    (isOperand : IsOperand group operand) (rest : List Token) :
    operandsFrom (.operand afterComma) (group ++ rest) =
      prependOperand (.ok operand) (operandsFrom .comma rest) := by
  cases isOperand with
  | immediate word => simp [operandsFrom]
  | register register =>
      have named : operandOfName register.name = .ok (.register register) :=
        (operandOfName_eq_ok _ _).mpr ⟨register, rfl, rfl⟩
      simp [operandsFrom, named]
  | address body parts each nonempty registers offsets =>
      have gathered := (addressOfParts_eq_ok parts _).mpr ⟨nonempty, registers, offsets, rfl⟩
      calc
        _ = operandsFrom (.part []) (body ++ .closeBracket :: rest) := by
          simp [operandsFrom]
        _ = operandsFrom (.part parts.reverse) (.closeBracket :: rest) := by
          rw [operandsFrom_body [] body parts each, List.append_nil]
        _ = _ := by
          rw [operandsFrom, List.reverse_reverse, gathered]
          rfl

theorem operandsFrom_afterCommas (groups : List (List Token)) (operands : List Operand)
    (each : List.Forall₂ IsOperand groups operands) :
    operandsFrom .comma (afterCommas groups) = .ok operands := by
  induction each with
  | nil => rfl
  | @cons group operand groups operands isOperand each ih =>
      calc
        _ = operandsFrom (.operand true) (group ++ afterCommas groups) := by
          simp [afterCommas, operandsFrom]
        _ = prependOperand (.ok operand) (operandsFrom .comma (afterCommas groups)) :=
          operandsFrom_group true group operand isOperand (afterCommas groups)
        _ = .ok (operand :: operands) := by
          rw [ih]
          rfl

/-- What is still to come of an operand list, told from inside of it. -/
def Remains : Expected → List Token → List Operand → Prop
  | .operand afterComma, tokens, operands =>
    ∃ groups, List.Forall₂ IsOperand groups operands ∧
      tokens = [Token.comma].intercalate groups ∧ (afterComma = true → groups ≠ [])
  | .comma, tokens, operands =>
    ∃ groups, List.Forall₂ IsOperand groups operands ∧ tokens = afterCommas groups
  | .part seen, tokens, operands =>
    ∃ body parts address others groups, List.Forall₂ IsPart body parts ∧
      addressOfParts (seen.reverse ++ parts) = .ok address ∧ operands = .address address :: others ∧
      List.Forall₂ IsOperand groups others ∧
      tokens = body ++ .closeBracket :: afterCommas groups

theorem Remains.operand {afterComma : Bool} {group rest : List Token} {operand : Operand}
    {operands : List Operand} (isOperand : IsOperand group operand)
    (follow : Remains .comma rest operands) :
    Remains (.operand afterComma) (group ++ rest) (operand :: operands) := by
  obtain ⟨groups, each, rfl⟩ := follow
  exact ⟨group :: groups, .cons isOperand each, (intercalate_comma group groups).symm,
    fun _ => List.cons_ne_nil _ _⟩

theorem Remains.part {seen : List AddressPart} {token : Token} {part : AddressPart}
    {rest : List Token} {operands : List Operand} (isPart : IsPart token part)
    (follow : Remains (.part (part :: seen)) rest operands) :
    Remains (.part seen) (token :: rest) operands := by
  obtain ⟨body, parts, address, others, groups, each, gathered, rfl, listed, rfl⟩ := follow
  rw [List.reverse_cons, List.append_assoc, List.singleton_append] at gathered
  exact ⟨token :: body, part :: parts, address, others, groups, .cons isPart each, gathered, rfl,
    listed, rfl⟩

theorem Remains.brackets {afterComma : Bool} {rest : List Token} {operands : List Operand}
    (inside : Remains (.part []) rest operands) :
    Remains (.operand afterComma) (.openBracket :: rest) operands := by
  obtain ⟨body, parts, address, others, groups, each, gathered, rfl, listed, rfl⟩ := inside
  obtain ⟨nonempty, registers, offsets, rfl⟩ := (addressOfParts_eq_ok parts address).mp gathered
  have isOperand := IsOperand.address body parts each nonempty registers offsets
  have closed : Remains (.operand afterComma) _ _ :=
    Remains.operand isOperand ⟨groups, listed, rfl⟩
  simpa using closed

theorem Parses.remains {expected : Expected} {tokens : List Token} {operands : List Operand}
    (parses : Parses expected tokens operands) : Remains expected (unspaced tokens) operands := by
  -- By induction over the reading. What was read before matters to the rest only through the parts
  -- of an open address and through a comma that waits for its operand.
  induction parses with
  | empty => exact ⟨[], .nil, rfl, nofun⟩
  | last => exact ⟨[], .nil, rfl⟩
  | space follow ih => exact ih
  | @comma rest operands follow ih =>
      obtain ⟨groups, each, listed, nonempty⟩ := ih
      obtain ⟨group, groups, rfl⟩ := List.exists_cons_of_ne_nil (nonempty rfl)
      refine ⟨group :: groups, each, ?_⟩
      rw [unspaced_cons .comma rest nofun, listed, intercalate_comma]
      rfl
  | immediate word follow ih => exact Remains.operand (.immediate word) ih
  | register name operand named follow ih =>
      obtain ⟨register, rfl, rfl⟩ := (operandOfName_eq_ok name operand).mp named
      exact Remains.operand (.register register) ih
  | openBracket follow ih => exact Remains.brackets ih
  | value word follow ih => exact Remains.part (.value word) ih
  | name name part named follow ih => exact Remains.part ((isPart_iff name part).mpr named) ih
  | @closeBracket parts rest operands address gathered follow ih =>
      obtain ⟨groups, each, listed⟩ := ih
      refine ⟨[], [], address, operands, groups, .nil, ?_, rfl, each, ?_⟩
      · rw [List.append_nil]
        exact gathered
      · rw [unspaced_cons .closeBracket rest nofun, listed]
        rfl

/-- The reader takes exactly the operand lists. -/
theorem operandsOfTokens_eq_ok (tokens : List Token) (operands : List Operand) :
    operandsOfTokens tokens = .ok operands ↔ ListsOperands tokens operands := by
  constructor
  · intro read
    obtain ⟨groups, each, listed, _⟩ := (parses_of_operandsFrom _ tokens operands read).remains
    exact ⟨groups, each, listed⟩
  · rintro ⟨groups, each, listed⟩
    rw [operandsOfTokens, ← operandsFrom_unspaced, listed]
    cases each with
    | nil => rfl
    | @cons group operand groups operands isOperand each =>
        rw [intercalate_comma, operandsFrom_group false group operand isOperand,
          operandsFrom_afterCommas groups operands each]
        rfl

theorem isInstruction_iff (tokens : List Token) (instruction : Option (Opcode × List Operand)) :
    IsInstruction tokens instruction ↔
      ∃ operation, Line.operationOfTokens tokens = .ok operation ∧
        operation.map Operation.written = instruction := by
  constructor
  · intro isInstruction
    cases isInstruction with
    | none => exact ⟨none, rfl, rfl⟩
    | @some mnemonic rest operands opcode member listed fits =>
        obtain ⟨operation, rfl, rfl⟩ := opcode.exists_operation operands fits
        have read := (operandsOfTokens_eq_ok rest operation.operands).mpr listed
        have resolved := (resolve_eq_ok mnemonic operation.operands operation).mpr
          ⟨Opcode.mem_alternatives.mp member, rfl⟩
        refine ⟨some operation, ?_, rfl⟩
        simp only [Line.operationOfTokens, read, resolved]
        rfl
  · rintro ⟨operation, read, rfl⟩
    obtain ⟨rfl, rfl⟩ | ⟨mnemonic, rest, operands, found, rfl, rfl, parses, named, rfl⟩ :=
      operationOfTokens_eq_ok tokens operation read
    · exact .none
    · exact .some found.opcode (Opcode.mem_alternatives.mpr named)
        ((operandsOfTokens_eq_ok rest found.operands).mp parses.operandsFrom) found.kinds_operands

theorem isLine_iff (tokens : List Token) (label : Option String)
    (instruction : Option (Opcode × List Operand)) :
    IsLine tokens label instruction ↔
      ∃ line, Line.ofTokens tokens = .ok line ∧ line.label = label ∧
        line.operation.map Operation.written = instruction := by
  constructor
  · rintro ⟨lead, gap, rest, leads, gaps, split, isInstruction⟩
    obtain ⟨operation, read, written⟩ := (isInstruction_iff rest instruction).mp isInstruction
    have shape : LineShape tokens ⟨label, operation⟩ lead gap rest := ⟨split, leads, gaps, read⟩
    exact ⟨⟨label, operation⟩, shape.ofTokens, rfl, written⟩
  · rintro ⟨line, read, rfl, written⟩
    obtain ⟨lead, gap, rest, split, leads, gaps, found⟩ := shape_of_ofTokens tokens line read
    exact ⟨lead, gap, rest, leads, gaps, split,
      (isInstruction_iff rest instruction).mpr ⟨line.operation, found, written⟩⟩

/-- A line is accepted exactly if the grammar has it, and then what is read is what was written: the
label, and an operation whose opcode is the mnemonic's and whose operands are the ones listed. -/
theorem lines_accepted_exactly (tokens : List Token) :
    ((∃ line, Line.ofTokens tokens = .ok line) ↔
      ∃ label instruction, IsLine tokens label instruction) ∧
    ∀ label instruction, IsLine tokens label instruction ↔
      ∃ line, Line.ofTokens tokens = .ok line ∧ line.label = label ∧
        line.operation.map Operation.written = instruction := by
  refine ⟨⟨?_, ?_⟩, isLine_iff tokens⟩
  · rintro ⟨line, read⟩
    exact ⟨line.label, line.operation.map Operation.written,
      (isLine_iff tokens _ _).mpr ⟨line, read, rfl, rfl⟩⟩
  · rintro ⟨label, instruction, isLine⟩
    obtain ⟨line, read, _⟩ := (isLine_iff tokens label instruction).mp isLine
    exact ⟨line, read⟩

end Assembly

end ToyComputer
