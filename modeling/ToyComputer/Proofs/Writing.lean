import ToyComputer.Proofs.Parsing
import ToyComputer.Proofs.Renderings
import ToyComputer.Proofs.Scanning

/-!
Writing: an operation written as a line of source reads as the same operation, and every operation
that a line reads as can be written.
-/

namespace ToyComputer

namespace Assembly

/-- A name that is read as a label where it stands in an address. -/
def IsLabel (name : String) : Prop :=
  isName name = true ∧ name ≠ "pc" ∧ Register.ofName? name = none

end Assembly

open Assembly

/-- Brackets hold something, and the first register in them is the base. -/
structure Addressing.Writable (address : Addressing) : Prop where
  present : address.base.isSome ∨ address.index.isSome ∨ address.offset.isSome
  ordered : address.index.isSome → address.base.isSome
  named : ∀ label, address.label? = some label → IsLabel label

def Operation.Writable (operation : Operation) : Prop :=
  ∀ address, operation.address? = some address → address.Writable

def Operand.Writable : Operand → Prop
  | .address target => target.Writable
  | _ => True

theorem Operation.writable_iff (operation : Operation) :
    operation.Writable ↔ ∀ operand ∈ operation.operands, operand.Writable := by
  cases operation with
  | copy target source =>
      cases source <;> simp [Writable, address?, operands, Operand.Writable, Source.operand]
  | flexible op target left right =>
      cases right <;> simp [Writable, address?, operands, Operand.Writable, Source.operand]
  | _ => simp [Writable, address?, operands, Operand.Writable]

namespace Assembly

open Text

namespace AddressPart

def text : AddressPart → String
  | register r => r.name
  | offset o => o.text

def token : AddressPart → Token
  | register r => .identifier r.name
  | offset (.value word) => .number word
  | offset (.label name) => .identifier name

def Writable : AddressPart → Prop
  | offset (.label name) => IsLabel name
  | _ => True

end AddressPart

def partsOf (address : Addressing) : List AddressPart :=
  (address.base.map AddressPart.register).toList ++
    (address.index.map AddressPart.register).toList ++
    (address.offset.map AddressPart.offset).toList

def tokensOf : Operand → List Token
  | .register r => [.identifier r.name]
  | .immediate value => [.number value]
  | .address address =>
    .openBracket :: [.space].intercalate ((partsOf address).map fun part => [part.token]) ++
      [.closeBracket]

theorem isName_register (r : Register) : isName r.name = true := by
  cases r <;> decide +kernel

theorem isName_mnemonic (opcode : Opcode) : isName opcode.mnemonic = true := by
  have all : ∀ opcode ∈ Opcode.all, isName opcode.mnemonic = true := by decide +kernel
  exact all opcode (Opcode.mem_all opcode)

theorem spells_part (part : AddressPart) (writable : part.Writable) :
    Spells part.text.toList [part.token] := by
  cases part with
  | register r => exact spells_name r.name (isName_register r)
  | offset o =>
      cases o with
      | value word => exact spells_literal _ word (isLiteral_address word)
      | label name => exact spells_name name writable.1

theorem parts_ne_nil (address : Addressing) (writable : address.Writable) :
    partsOf address ≠ [] := by
  have present := writable.present
  intro none
  simp only [partsOf, List.append_eq_nil_iff, Option.toList_eq_nil_iff,
    Option.map_eq_none_iff] at none
  simp [none] at present

theorem writable_parts (address : Addressing) (writable : address.Writable) :
    ∀ part ∈ partsOf address, part.Writable := by
  intro part member
  cases part with
  | register r => trivial
  | offset o =>
      cases o with
      | value word => trivial
      | label name =>
          apply writable.named name
          have offset : address.offset = some (.label name) := by simpa [partsOf] using member
          simp [Addressing.label?, offset]

theorem spells_parts (address : Addressing) (writable : address.Writable) :
    Spells (" ".intercalate address.parts).toList
      ([.space].intercalate ((partsOf address).map fun part => [part.token])) := by
  have texts : address.parts = (partsOf address).map AddressPart.text := by
    simp [Addressing.parts, partsOf, Function.comp_def, AddressPart.text,
      Option.toList_map]
  have spelled := spells_intercalate [' '] [.space] separates_space
    ((partsOf address).map fun part => (part.text.toList, [part.token]))
    (by simpa using parts_ne_nil address writable)
    (by
      intro piece member
      obtain ⟨part, listed, rfl⟩ := List.mem_map.mp member
      exact spells_part part (writable_parts address writable part listed))
  simpa [String.toList_intercalate, texts, Function.comp_def] using spelled

theorem spells_operand (operand : Operand) (writable : operand.Writable) :
    Spells operand.text.toList (tokensOf operand) := by
  cases operand with
  | register r => exact spells_name r.name (isName_register r)
  | immediate value => exact spells_literal _ value (isLiteral_unsigned value)
  | address target =>
      have spelled := (spells_parts target writable).bracketed
      simpa [Operand.text, Addressing.text, tokensOf] using spelled

theorem operandsFrom_space (expected : Expected) (rest : List Token) :
    operandsFrom expected (.space :: rest) = operandsFrom expected rest := by
  rw [operandsFrom]

theorem operandsFrom_part (seen : List AddressPart) (part : AddressPart) (writable : part.Writable)
    (rest : List Token) :
    operandsFrom (.part seen) (part.token :: rest) = operandsFrom (.part (part :: seen)) rest := by
  cases part with
  | register r =>
      have noCounter : r.name ≠ "pc" := by cases r <;> decide
      simp [AddressPart.token, operandsFrom, AddressPart.ofName, noCounter, Register.ofName?_name]
  | offset o =>
      cases o with
      | value word => simp [AddressPart.token, operandsFrom]
      | label name =>
          obtain ⟨_, noCounter, noRegister⟩ := writable
          simp [AddressPart.token, operandsFrom, AddressPart.ofName, noCounter, noRegister]

theorem operandsFrom_parts (seen parts : List AddressPart)
    (writable : ∀ part ∈ parts, part.Writable) (rest : List Token) :
    operandsFrom (.part seen) ([.space].intercalate (parts.map fun part => [part.token]) ++ rest) =
      operandsFrom (.part (parts.reverse ++ seen)) rest := by
  induction parts generalizing seen with
  | nil => rfl
  | cons part parts ih =>
      obtain ⟨head, legal⟩ := List.forall_mem_cons.mp writable
      have tail := ih (part :: seen) legal
      cases parts with
      | nil => simp [List.intercalate_singleton, operandsFrom_part seen part head]
      | cons next parts =>
          rw [List.map_cons] at tail
          rw [List.map_cons, List.map_cons, List.intercalate_cons_cons, List.append_assoc,
            List.append_assoc, List.singleton_append, operandsFrom_part seen part head,
            List.singleton_append, operandsFrom_space, tail]
          simp

theorem addressOfParts_partsOf (address : Addressing) (writable : address.Writable) :
    addressOfParts (partsOf address) = .ok address := by
  have nonempty := parts_ne_nil address writable
  obtain ⟨base, index, offset⟩ := address
  have ordered := writable.ordered
  cases base with
  | some register => cases index <;> cases offset <;> rfl
  | none =>
      cases index with
      | some register => cases ordered rfl
      | none =>
          cases offset with
          | none => exact absurd rfl nonempty
          | some offset => rfl

theorem operandsFrom_operand (afterComma : Bool) (operand : Operand) (writable : operand.Writable)
    (rest : List Token) :
    operandsFrom (.operand afterComma) (tokensOf operand ++ rest) =
      prependOperand (.ok operand) (operandsFrom .comma rest) := by
  cases operand with
  | register r =>
      have noCounter : r.name ≠ "pc" := by cases r <;> decide
      simp [tokensOf, operandsFrom, operandOfName, noCounter, Register.ofName?_name]
  | immediate value => simp [tokensOf, operandsFrom]
  | address target =>
      have read := operandsFrom_parts [] (partsOf target) (writable_parts target writable)
        (.closeBracket :: rest)
      simp only [tokensOf, List.cons_append, List.append_assoc, List.nil_append, operandsFrom]
      rw [read, operandsFrom, List.append_nil, List.reverse_reverse,
        addressOfParts_partsOf target writable]
      rfl

theorem operandsFrom_operands (afterComma : Bool) (operands : List Operand)
    (nonempty : operands ≠ []) (writable : ∀ operand ∈ operands, operand.Writable) :
    operandsFrom (.operand afterComma) ([.comma, .space].intercalate (operands.map tokensOf)) =
      .ok operands := by
  induction operands generalizing afterComma with
  | nil => exact absurd rfl nonempty
  | cons operand operands ih =>
      obtain ⟨head, legal⟩ := List.forall_mem_cons.mp writable
      cases operands with
      | nil =>
          have read := operandsFrom_operand afterComma operand head []
          rw [List.append_nil] at read
          rw [List.map_singleton, List.intercalate_singleton, read]
          rfl
      | cons next operands =>
          have tail := ih true (by simp) legal
          rw [List.map_cons] at tail
          rw [List.map_cons, List.map_cons, List.intercalate_cons_cons, List.append_assoc,
            operandsFrom_operand afterComma operand head, List.cons_append, operandsFrom,
            List.singleton_append, operandsFrom_space, tail]
          rfl

def lineTokens (operation : Operation) : List Token :=
  .identifier operation.opcode.mnemonic ::
    match operation.operands with
    | [] => []
    | operands => .space :: [.comma, .space].intercalate (operands.map tokensOf)

theorem spells_operation (operation : Operation) (writable : operation.Writable) :
    Spells operation.text.toList (lineTokens operation) := by
  have mnemonic := spells_name _ (isName_mnemonic operation.opcode)
  have legal := (Operation.writable_iff operation).mp writable
  unfold Operation.text lineTokens
  cases written : operation.operands with
  | nil => exact mnemonic
  | cons operand operands =>
      rw [written] at legal
      have list := spells_intercalate [',', ' '] [.comma, .space] separates_comma
        ((operand :: operands).map fun operand => (operand.text.toList, tokensOf operand)) (by simp)
        (by
          intro piece member
          obtain ⟨one, listed, rfl⟩ := List.mem_map.mp member
          exact spells_operand one (legal one listed))
      have line := mnemonic.join separates_space list
      simpa [String.toList_intercalate, Function.comp_def] using line

theorem ofString_of_scans (text : String) (tokens : List Token) (scans : Scans text.toList tokens) :
    Line.ofString text = Line.ofTokens tokens := by
  have scanned := scans 0
  unfold Line.ofString Token.ofLine Cursor.ofString
  cases spans : Token.scanAll ⟨0, text.toList⟩ with
  | error error => rw [spans] at scanned; cases scanned
  | ok spans' =>
      rw [spans] at scanned
      cases scanned
      rfl

theorem ofTokens_lineTokens (operation : Operation) (writable : operation.Writable) :
    Line.ofTokens (lineTokens operation) = .ok ⟨none, some operation⟩ := by
  have legal := (Operation.writable_iff operation).mp writable
  have resolved := resolve_operands operation
  unfold lineTokens
  cases written : operation.operands with
  | nil =>
      rw [written] at resolved
      simp [Line.ofTokens, Line.takeLabel, Line.dropSpace, Line.operationOfTokens, operandsOfTokens,
        operandsFrom, resolved, Except.map]
  | cons operand operands =>
      rw [written] at resolved legal
      have read := operandsFrom_operands false (operand :: operands) (by simp) legal
      simp only [Line.ofTokens, Line.takeLabel, Line.dropSpace, Line.operationOfTokens,
        operandsOfTokens, operandsFrom_space, read, resolved, Except.map]

theorem ofString_text (operation : Operation) (writable : operation.Writable) :
    Line.ofString operation.text = .ok ⟨none, some operation⟩ := by
  have spelled := (spells_operation operation writable).scans [] [] (stops_nil _) scans_nil
  rw [List.append_nil, List.append_nil] at spelled
  rw [ofString_of_scans _ _ spelled, ofTokens_lineTokens operation writable]

theorem mem_of_offset (parts : List AddressPart) (o : Offset)
    (member : o ∈ parts.filterMap AddressPart.offset?) : AddressPart.offset o ∈ parts := by
  obtain ⟨part, listed, read⟩ := List.mem_filterMap.mp member
  cases part with
  | register r => cases read
  | offset other => cases read; exact listed

theorem writable_of_addressOfParts (parts : List AddressPart) (address : Addressing)
    (writable : ∀ part ∈ parts, part.Writable) (read : addressOfParts parts = .ok address) :
    address.Writable := by
  obtain ⟨nonempty, _, _, rfl⟩ := (addressOfParts_eq_ok parts address).mp read
  constructor
  · cases parts with
    | nil => exact absurd rfl nonempty
    | cons part parts =>
        cases part with
        | register r => exact Or.inl rfl
        | offset o => exact Or.inr (Or.inr rfl)
  · intro second
    have inside : 1 < (parts.filterMap AddressPart.register?).length := by
      simpa using second
    simp only [List.getElem?_eq_getElem (Nat.lt_of_succ_lt inside), Option.isSome_some]
  · intro label waits
    have offset : (parts.filterMap AddressPart.offset?)[0]? = some (.label label) := by
      unfold Addressing.label? at waits
      split at waits
      · next found => cases waits; exact found
      · cases waits
    exact writable _ (mem_of_offset parts _ (List.mem_of_getElem? offset))

theorem writable_of_ofName (name : String) (part : AddressPart) (named : isName name = true)
    (read : AddressPart.ofName name = .ok part) : part.Writable := by
  obtain ⟨noCounter, ⟨r, _, rfl⟩ | ⟨noRegister, rfl⟩⟩ := ofName_eq_ok name part read
  · trivial
  · exact ⟨named, noCounter, noRegister⟩

theorem names_behind {token : Token} {tokens : List Token}
    (names : ∀ name, Token.identifier name ∈ token :: tokens → isName name = true) :
    ∀ name, Token.identifier name ∈ tokens → isName name = true :=
  fun name member => names name (List.mem_cons_of_mem _ member)

theorem Parses.writable {expected : Expected} {tokens : List Token} {operands : List Operand}
    (parses : Parses expected tokens operands)
    (names : ∀ name, Token.identifier name ∈ tokens → isName name = true)
    (writable : ∀ part ∈ expected.parts, part.Writable) :
    ∀ operand ∈ operands, operand.Writable := by
  induction parses with
  | empty | last => exact nofun
  | space follow ih | openBracket follow ih => exact ih (names_behind names) writable
  | comma follow ih => exact ih (names_behind names) nofun
  | immediate word follow ih =>
      exact List.forall_mem_cons.mpr ⟨trivial, ih (names_behind names) nofun⟩
  | register name operand named follow ih =>
      obtain ⟨r, _, rfl⟩ := (operandOfName_eq_ok name operand).mp named
      exact List.forall_mem_cons.mpr ⟨trivial, ih (names_behind names) nofun⟩
  | value word follow ih =>
      exact ih (names_behind names) (List.forall_mem_cons.mpr ⟨trivial, writable⟩)
  | name name part named follow ih =>
      have head := writable_of_ofName name part (names name List.mem_cons_self) named
      exact ih (names_behind names) (List.forall_mem_cons.mpr ⟨head, writable⟩)
  | @closeBracket parts rest operands address gathered follow ih =>
      have head := writable_of_addressOfParts parts.reverse address
        (fun part member => writable part (List.mem_reverse.mp member)) gathered
      exact List.forall_mem_cons.mpr ⟨head, ih (names_behind names) nofun⟩

theorem dropSpace_suffix (tokens : List Token) : Line.dropSpace tokens <:+ tokens := by
  unfold Line.dropSpace
  split
  · exact List.suffix_cons _ _
  · exact List.suffix_refl _

theorem takeLabel_suffix (tokens : List Token) : (Line.takeLabel tokens).2 <:+ tokens := by
  unfold Line.takeLabel
  split
  · next name rest => exact ⟨[.identifier name, .colon], rfl⟩
  · exact List.suffix_refl _

theorem names_of_ofLine (text : String) (spans : List (Spanned Token))
    (scanned : Token.ofLine text = .ok spans) (name : String)
    (member : Token.identifier name ∈ spans.map Spanned.content) : isName name = true := by
  obtain ⟨span, listed, identifies⟩ := List.mem_map.mp member
  exact isName_of_ofLine text spans scanned span listed name identifies

theorem writable_of_operationOfTokens (tokens : List Token) (operation : Operation)
    (names : ∀ name, Token.identifier name ∈ tokens → isName name = true)
    (read : Line.operationOfTokens tokens = .ok (some operation)) : operation.Writable := by
  obtain ⟨_, none⟩ | ⟨mnemonic, rest, operands, found, rfl, same, parses, _, written⟩ :=
    operationOfTokens_eq_ok tokens (some operation) read
  · cases none
  · cases same
    rw [Operation.writable_iff, written]
    exact parses.writable (names_behind names) nofun

theorem writable_of_ofString (text : String) (line : Line) (operation : Operation)
    (read : Line.ofString text = .ok line) (present : line.operation = some operation) :
    operation.Writable := by
  unfold Line.ofString at read
  cases scanned : Token.ofLine text with
  | error error => rw [scanned] at read; cases read
  | ok spans =>
      simp only [scanned, Line.ofTokens] at read
      have names := names_of_ofLine text spans scanned
      cases found : Line.operationOfTokens
          (Line.dropSpace (Line.takeLabel (Line.dropSpace (spans.map Spanned.content))).2) with
      | error error => rw [found] at read; cases read
      | ok operation? =>
          rw [found] at read
          cases read
          obtain rfl : operation? = some operation := present
          apply writable_of_operationOfTokens _ operation ?_ found
          intro name member
          have behind := (takeLabel_suffix _).mem ((dropSpace_suffix _).mem member)
          exact names name ((dropSpace_suffix _).mem behind)

theorem isName_of_label (text : String) (line : Line) (label : String)
    (read : Line.ofString text = .ok line) (named : line.label = some label) :
    isName label = true := by
  unfold Line.ofString at read
  cases scanned : Token.ofLine text with
  | error error => rw [scanned] at read; cases read
  | ok spans =>
      simp only [scanned, Line.ofTokens] at read
      cases found : Line.operationOfTokens
          (Line.dropSpace (Line.takeLabel (Line.dropSpace (spans.map Spanned.content))).2) with
      | error error => rw [found] at read; cases read
      | ok operation? =>
          rw [found] at read
          cases read
          apply names_of_ofLine text spans scanned label
          apply (dropSpace_suffix _).mem
          simp only [Line.takeLabel] at named
          split at named
          · next name rest begins =>
              cases named
              rw [begins]
              exact List.mem_cons_self
          · cases named

/-- The text of an operation reads as this operation exactly if its address has a part, no index
without a base, and a label that is no other name. Whatever a line reads as is of this kind. -/
theorem text_reads_back (operation : Operation) :
    (Line.ofString operation.text = .ok ⟨none, some operation⟩ ↔ operation.Writable) ∧
    ∀ text line, Line.ofString text = .ok line → line.operation = some operation →
      operation.Writable ∧ Line.ofString operation.text = .ok ⟨none, some operation⟩ := by
  refine ⟨⟨fun read => writable_of_ofString _ _ operation read rfl, ofString_text operation⟩, ?_⟩
  intro text line read present
  have writable := writable_of_ofString text line operation read present
  exact ⟨writable, ofString_text operation writable⟩

theorem address_text_reads_back :
    (Operation.store .word ⟨some .r1, some .r2, some (.label "end")⟩ .r3).text =
        "sw [r1 r2 end], r3" ∧
      Line.ofString "loop:  sw [end r1 r2], r3 # x" =
        .ok ⟨some "loop", some (.store .word ⟨some .r1, some .r2, some (.label "end")⟩ .r3)⟩ ∧
      Line.ofString "sw [r1 r2 end], r3" =
        .ok ⟨none, some (.store .word ⟨some .r1, some .r2, some (.label "end")⟩ .r3)⟩ := by
  have written : (Operation.store .word ⟨some .r1, some .r2, some (.label "end")⟩ .r3).text =
      "sw [r1 r2 end], r3" := by
    decide +kernel
  have read : Line.ofString "loop:  sw [end r1 r2], r3 # x" =
      .ok ⟨some "loop", some (.store .word ⟨some .r1, some .r2, some (.label "end")⟩ .r3)⟩ := by
    decide +kernel
  obtain ⟨_, again⟩ := text_reads_back
    (.store .word ⟨some .r1, some .r2, some (.label "end")⟩ .r3)
  obtain ⟨_, same⟩ := again _ _ read rfl
  rw [written] at same
  exact ⟨written, read, same⟩

end Assembly

end ToyComputer
