import ToyComputer.Proofs.Parsing
import ToyComputer.Proofs.References
import ToyComputer.Proofs.Renaming

/-!
Relabelling: a line with other names for its labels is read as it was, with the other names in it.
The names in brackets are those of labels where they are not those of registers, and no other name
of a line is exchanged but the one that it defines.
-/

namespace ToyComputer

section

variable (name : String → String)

def Offset.rename : Offset → Offset
  | .value word => .value word
  | .label old => .label (name old)

def Addressing.rename (address : Addressing) : Addressing :=
  { address with offset := address.offset.map (Offset.rename name) }

def Operand.rename : Operand → Operand
  | .address place => .address (place.rename name)
  | operand => operand

def Operation.rename (operation : Operation) : Operation :=
  match operation.address? with
  | none => operation
  | some address => operation.withAddress (address.rename name)

theorem Operation.operands_rename (operation : Operation) :
    (operation.rename name).operands = operation.operands.map (Operand.rename name) := by
  cases operation with
  | copy target source => cases source <;> rfl
  | flexible op target left right => cases right <;> rfl
  | _ => rfl

theorem Operation.opcode_rename (operation : Operation) :
    (operation.rename name).opcode = operation.opcode := by
  unfold Operation.rename
  split
  · rfl
  · exact Operation.opcode_withAddress _ operation

theorem Operation.size_rename (operation : Operation) :
    (operation.rename name).size = operation.size := by
  rw [Operation.size, Operation.opcode_rename, Operation.size]

theorem Addressing.label?_rename (address : Addressing) :
    (address.rename name).label? = address.label?.map name := by
  obtain ⟨base, index, offset⟩ := address
  rcases offset with _ | word | label <;> rfl

theorem Operation.label?_rename (operation : Operation) :
    (operation.rename name).label? = operation.label?.map name := by
  cases operation <;> first | rfl | exact Addressing.label?_rename name _

theorem Operation.withTarget_rename (operation : Operation) (target : Word) :
    (operation.rename name).withTarget target = operation.withTarget target := by
  cases operation <;> rfl

theorem Addressing.rename_of_no_label (address : Addressing) (ready : address.label? = none) :
    address.rename name = address := by
  obtain ⟨base, index, offset⟩ := address
  rcases offset with _ | word | label
  · rfl
  · rfl
  · cases ready

theorem Operation.withAddress_self (operation : Operation) (address : Addressing)
    (named : operation.address? = some address) : operation.withAddress address = operation := by
  cases operation <;> cases named <;> rfl

theorem Operation.rename_of_no_label (operation : Operation) (ready : operation.label? = none) :
    operation.rename name = operation := by
  unfold Operation.rename
  split
  · rfl
  · next address named =>
      rw [Operation.label?, named, Option.bind_some] at ready
      rw [address.rename_of_no_label name ready, operation.withAddress_self address named]

theorem Operation.address?_of_operand (operation : Operation) (address : Addressing)
    (member : .address address ∈ operation.operands) : operation.address? = some address := by
  cases operation with
  | copy target source => cases source <;> simp [operands, Source.operand] at member
  | flexible op target left right => cases right <;> simp [operands, Source.operand] at member
  | _ => simp_all [operands, address?]

end

namespace Assembly

open Text

section

variable (name : String → String)

def AddressPart.rename : AddressPart → AddressPart
  | .register r => .register r
  | .offset o => .offset (o.rename name)

def Expected.rename : Expected → Expected
  | .part parts => .part (parts.map (AddressPart.rename name))
  | expected => expected

def Line.rename (line : Line) : Line :=
  ⟨line.label.map name, line.operation.map (Operation.rename name)⟩

def Expected.region : Expected → Region
  | .part _ => .brackets
  | .operand _ | .comma => .body

theorem addressOfParts_rename (parts : List AddressPart) :
    addressOfParts (parts.map (AddressPart.rename name)) =
      (addressOfParts parts).map (Addressing.rename name) := by
  have registers : (parts.map (AddressPart.rename name)).filterMap AddressPart.register? =
      parts.filterMap AddressPart.register? := by
    rw [List.filterMap_map]
    apply List.filterMap_congr
    rintro (register | offset) _ <;> rfl
  have offsets : (parts.map (AddressPart.rename name)).filterMap AddressPart.offset? =
      (parts.filterMap AddressPart.offset?).map (Offset.rename name) := by
    rw [List.filterMap_map, List.map_filterMap]
    apply List.filterMap_congr
    rintro (register | offset) _ <;> rfl
  simp only [addressOfParts, registers, offsets, List.length_map, List.isEmpty_map,
    List.getElem?_map]
  split
  · rfl
  · split
    · rfl
    · split <;> rfl

theorem relabel_kept (region : Region) (token : Token) (rest : List Token)
    (kept : labelHere? region token rest.head? = none) :
    relabel name region (token :: rest) = token :: relabel name (region.behind token) rest := by
  rw [relabel, kept]

theorem legal_behind {name : String → String} {region : Region} {token : Token}
    {rest : List Token} (legal : ∀ label ∈ labelsIn region (token :: rest), IsLabel (name label)) :
    ∀ label ∈ labelsIn (region.behind token) rest, IsLabel (name label) :=
  fun label member => legal label (List.mem_append_right _ member)

theorem ofName_of_isLabel (label : String) (legal : IsLabel label) :
    AddressPart.ofName label = .ok (.offset (.label label)) := by
  obtain ⟨_, noCounter, noRegister⟩ := legal
  rw [AddressPart.ofName, if_neg noCounter, noRegister]

/-- The operands are read as before, with other names for the labels in them. -/
theorem Parses.relabel {expected : Expected} {tokens : List Token} {operands : List Operand}
    (parses : Parses expected tokens operands)
    (legal : ∀ label ∈ labelsIn expected.region tokens, IsLabel (name label)) :
    Parses (expected.rename name) (relabel name expected.region tokens)
      (operands.map (Operand.rename name)) := by
  induction parses with
  | empty => exact .empty
  | last => exact .last
  | @space expected rest operands follow ih =>
      cases expected <;> exact .space (ih (legal_behind legal))
  | comma follow ih => exact .comma (ih (legal_behind legal))
  | immediate word follow ih => exact .immediate word (ih (legal_behind legal))
  | register register operand named follow ih =>
      obtain ⟨r, _, rfl⟩ := (operandOfName_eq_ok register operand).mp named
      exact .register register (.register r) named (ih (legal_behind legal))
  | openBracket follow ih => exact .openBracket (ih (legal_behind legal))
  | value word follow ih => exact .value word (ih (legal_behind legal))
  | name old part named follow ih =>
      have later := ih (legal_behind legal)
      obtain ⟨_, ⟨r, isRegister, rfl⟩ | ⟨noRegister, rfl⟩⟩ := ofName_eq_ok old part named
      · have kept (next : Option Token) : labelHere? .brackets (.identifier old) next = none := by
          simp [labelHere?, isRegister]
        rw [Expected.region, relabel_kept name _ _ _ (kept _)]
        exact .name old (.register r) named later
      · have here (next : Option Token) :
            labelHere? .brackets (.identifier old) next = some old := by
          simp [labelHere?, noRegister]
        have isLabel := legal old (List.mem_append_left _ (by
          rw [Expected.region, here]
          exact List.mem_singleton_self _))
        simp only [Expected.region, Assembly.relabel, here]
        exact .name (name old) (.offset (.label (name old))) (ofName_of_isLabel _ isLabel) later
  | closeBracket address gathered follow ih =>
      refine .closeBracket (address.rename name) ?_ (ih (legal_behind legal))
      rw [← List.map_reverse, addressOfParts_rename, gathered]
      rfl

end

theorem apart_of_other (token next : Token) (other : ∀ word, token ≠ .number word) :
    Apart token next :=
  fun word _ number _ => absurd number (other word)

theorem Parses.apart {expected : Expected} {tokens : List Token} {operands : List Operand}
    (parses : Parses expected tokens operands) : tokens.IsChain Apart := by
  -- An address with a number in it has no label, and between operands there are commas.
  induction parses with
  | empty | last => exact .nil
  | space follow ih | comma follow ih | register name operand named follow ih
  | openBracket follow ih | name old part named follow ih
  | closeBracket address gathered follow ih =>
      exact List.isChain_cons.mpr ⟨fun next _ => apart_of_other _ next nofun, ih⟩
  | immediate word follow ih =>
      refine List.isChain_cons.mpr ⟨?_, ih⟩
      rintro next first other name _ rfl
      cases follow <;> cases first
  | value word follow ih =>
      refine List.isChain_cons.mpr ⟨?_, ih⟩
      rintro next first other name _ rfl noRegister
      cases follow with
      | name old part named follow =>
          cases first
          obtain ⟨_, ⟨r, isRegister, _⟩ | ⟨_, rfl⟩⟩ := ofName_eq_ok name part named
          · rw [noRegister] at isRegister
            cases isRegister
          · exact absurd follow.single (by simp [Expected.parts, AddressPart.offset?])
      | _ => cases first

theorem Parses.labels {expected : Expected} {tokens : List Token} {operands : List Operand}
    (parses : Parses expected tokens operands) (label : String)
    (member : .offset (.label label) ∈ expected.parts ∨ label ∈ labelsIn expected.region tokens) :
    ∃ address, .address address ∈ operands ∧ address.label? = some label := by
  induction parses with
  | empty | last => rcases member with member | member <;> cases member
  | @space expected rest operands follow ih => cases expected <;> exact ih member
  | comma follow ih | openBracket follow ih => exact ih member
  | immediate word follow ih | register name operand named follow ih =>
      obtain ⟨address, listed, waits⟩ := ih member
      exact ⟨address, List.mem_cons_of_mem _ listed, waits⟩
  | value word follow ih => exact ih (member.imp_left (List.mem_cons_of_mem _))
  | name old part named follow ih =>
      apply ih
      rcases member with gathered | member
      · exact Or.inl (List.mem_cons_of_mem _ gathered)
      · rcases List.mem_append.mp member with here | later
        · rw [Option.mem_toList] at here
          obtain ⟨same, ⟨front, _⟩ | ⟨_, noRegister⟩⟩ := labelHere?_eq_some _ _ _ _ here
          · cases front
          · cases same
            obtain ⟨_, ⟨r, isRegister, _⟩ | ⟨_, rfl⟩⟩ := ofName_eq_ok label part named
            · rw [noRegister] at isRegister
              cases isRegister
            · exact Or.inl List.mem_cons_self
        · exact Or.inr later
  | @closeBracket parts rest operands address gathered follow ih =>
      rcases member with inside | later
      · have offset := offset_of_part parts.reverse address (.label label) gathered
          (List.mem_reverse.mpr inside)
        exact ⟨address, List.mem_cons_self, by rw [Addressing.label?, offset]⟩
      · obtain ⟨other, listed, waits⟩ := ih (Or.inr later)
        exact ⟨other, List.mem_cons_of_mem _ listed, waits⟩

def Line.labels (line : Line) : List String :=
  line.label.toList ++ (line.operation.bind Operation.label?).toList

def regionBehind : Option String → Region
  | none => .front
  | some _ => .body

theorem regionBehind_ne (label : Option String) : regionBehind label ≠ .brackets := by
  cases label <;> nofun

theorem labelHere?_mnemonic (region : Region) (outside : region ≠ .brackets) (mnemonic : String)
    (rest : List Token) (operands : List Operand) (parses : Parses (.operand false) rest operands) :
    labelHere? region (.identifier mnemonic) rest.head? = none ∧
      region.behind (.identifier mnemonic) = .body := by
  cases region with
  | front => exact ⟨by cases parses <;> rfl, rfl⟩
  | body => exact ⟨rfl, rfl⟩
  | brackets => exact absurd rfl outside

section

variable (tokens : List Token) (operation : Option Operation)
  (read : Line.operationOfTokens tokens = .ok operation)

include read

theorem apart_of_operation : tokens.IsChain Apart := by
  obtain ⟨rfl, _⟩ | ⟨mnemonic, rest, operands, found, rfl, _, parses, _⟩ :=
    operationOfTokens_eq_ok tokens operation read
  · exact .nil
  · exact List.isChain_cons.mpr ⟨fun next _ => apart_of_other _ next nofun, parses.apart⟩

variable (region : Region) (outside : region ≠ .brackets)

include outside

theorem labels_of_operation (label : String) (member : label ∈ labelsIn region tokens) :
    operation.bind Operation.label? = some label := by
  obtain ⟨rfl, _⟩ | ⟨mnemonic, rest, operands, found, rfl, rfl, parses, _, written⟩ :=
    operationOfTokens_eq_ok tokens operation read
  · cases member
  · obtain ⟨kept, behind⟩ := labelHere?_mnemonic region outside mnemonic rest operands parses
    rw [labelsIn, kept, behind] at member
    obtain ⟨address, listed, waits⟩ := parses.labels label (Or.inr member)
    rw [← written] at listed
    rw [Option.bind_some, Operation.label?, found.address?_of_operand address listed,
      Option.bind_some, waits]

theorem operationOfTokens_relabel (name : String → String)
    (legal : ∀ label, operation.bind Operation.label? = some label → IsLabel (name label)) :
    Line.operationOfTokens (relabel name region tokens) =
      .ok (operation.map (Operation.rename name)) := by
  have named := labels_of_operation tokens operation read region outside
  obtain ⟨rfl, rfl⟩ | ⟨mnemonic, rest, operands, found, rfl, rfl, parses, spelled, written⟩ :=
    operationOfTokens_eq_ok tokens operation read
  · rfl
  · obtain ⟨kept, behind⟩ := labelHere?_mnemonic region outside mnemonic rest operands parses
    have renamed := (parses.relabel name fun label member => legal label (named label (by
      rw [labelsIn, kept, behind]
      exact List.mem_append_right _ member))).operandsFrom
    have resolved : resolve mnemonic (operands.map (Operand.rename name)) =
        .ok (found.rename name) := by
      rw [resolve_eq_ok, Operation.opcode_rename, Operation.operands_rename, written]
      exact ⟨spelled, rfl⟩
    rw [relabel_kept name region _ _ kept, behind]
    simp only [Line.operationOfTokens, operandsOfTokens]
    rw [show operandsFrom (.operand false) (relabel name .body rest) = _ from renamed]
    simp only [resolved]
    rfl

end

section

variable (lead gap rest : List Token) (label : Option String) (leads : Gap lead) (gaps : Gap gap)

include leads gaps

theorem apart_of_shape (apart : rest.IsChain Apart) :
    (lead ++ (labelTokens label ++ (gap ++ rest))).IsChain Apart := by
  have spaced (tokens front : List Token) (gaps : Gap front) (apart : tokens.IsChain Apart) :
      (front ++ tokens).IsChain Apart := by
    rcases gaps with rfl | rfl
    · exact apart
    · exact List.isChain_cons.mpr ⟨fun next _ => apart_of_other _ next nofun, apart⟩
  apply spaced _ lead leads
  have behind := spaced rest gap gaps apart
  cases label with
  | none => exact behind
  | some label =>
      exact List.isChain_cons.mpr ⟨fun next _ => apart_of_other _ next nofun,
        List.isChain_cons.mpr ⟨fun next _ => apart_of_other _ next nofun, behind⟩⟩

theorem labelsIn_shape :
    labelsIn .front (lead ++ (labelTokens label ++ (gap ++ rest))) =
      label.toList ++ labelsIn (regionBehind label) rest := by
  rcases leads with rfl | rfl <;> rcases gaps with rfl | rfl <;> cases label <;> rfl

theorem relabel_shape (name : String → String) :
    relabel name .front (lead ++ (labelTokens label ++ (gap ++ rest))) =
      lead ++
        (labelTokens (label.map name) ++ (gap ++ relabel name (regionBehind label) rest)) := by
  rcases leads with rfl | rfl <;> rcases gaps with rfl | rfl <;> cases label <;> rfl

end

/-- A line reads as before, with the other names for its labels. -/
theorem ofTokens_relabel (name : String → String) (tokens : List Token) (line : Line)
    (read : Line.ofTokens tokens = .ok line)
    (legal : ∀ label ∈ line.labels, IsLabel (name label)) :
    tokens.IsChain Apart ∧ (∀ label ∈ labelsIn .front tokens, label ∈ line.labels) ∧
      Line.ofTokens (relabel name .front tokens) = .ok (line.rename name) := by
  obtain ⟨lead, gap, rest, shape⟩ := shape_of_ofTokens tokens line read
  obtain ⟨rfl, leads, gaps, found⟩ := shape
  have outside := regionBehind_ne line.label
  have apart := apart_of_operation rest line.operation found
  have labels := labels_of_operation rest line.operation found _ outside
  have renamed := operationOfTokens_relabel rest line.operation found _ outside name
    fun label waits => legal label (List.mem_append_right _ (Option.mem_toList.mpr waits))
  refine ⟨apart_of_shape lead gap rest line.label leads gaps apart, ?_, ?_⟩
  · rw [labelsIn_shape lead gap rest line.label leads gaps]
    intro label member
    rcases List.mem_append.mp member with defined | referred
    · exact List.mem_append_left _ defined
    · exact List.mem_append_right _ (Option.mem_toList.mpr (labels label referred))
  · rw [relabel_shape lead gap rest line.label leads gaps]
    exact LineShape.ofTokens ⟨rfl, leads, gaps, renamed⟩

theorem ofString_renameLine (name : String → String) (text : List Char) (line : Line)
    (read : Line.ofString (String.ofList text) = .ok line)
    (legal : ∀ label ∈ line.labels, IsLabel (name label)) :
    Line.ofString (String.ofList (renameLine name text)) = .ok (line.rename name) ∧
      (renameLine name text = [] ↔ text = []) ∧ ('\n' ∉ text → '\n' ∉ renameLine name text) := by
  rw [ofString_eq, String.toList_ofList] at read ⊢
  cases scanned : contentsFrom ⟨0, text⟩ with
  | error error => rw [scanned] at read; cases read
  | ok tokens =>
      rw [scanned] at read
      obtain ⟨apart, labels, parsed⟩ := ofTokens_relabel name tokens line read legal
      obtain ⟨contents, kept⟩ := contents_renameLine name text tokens scanned apart
        fun label member => (legal label (labels label member)).1
      rw [contents]
      exact ⟨parsed, kept⟩

end Assembly

end ToyComputer
