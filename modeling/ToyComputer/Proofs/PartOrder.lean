import Mathlib.Algebra.GroupWithZero.Nat
import Mathlib.Data.List.Perm.Basic
import ToyComputer.Proofs.Faults
import ToyComputer.Proofs.Grammar

/-!
Part order: what stands between the brackets of an address can be put into any order. The address is
the sum of its parts, and which register is the base and which the index is lost in the sum.
-/

namespace ToyComputer

def Offset.word (places : String → Word) : Offset → Word
  | value word => word
  | label name => places name

/-- The address with places put in for labels. -/
def Addressing.located (places : String → Word) (address : Addressing) : Addressing :=
  { address with offset := address.offset.map fun offset => .value (offset.word places) }

theorem sum_of_single {α : Type} (word : α → Word) (items : List α) (single : items.length ≤ 1) :
    (items.map fun item => (word item).toNat).sum = ((items[0]?.map word).getD 0).toNat := by
  match items, single with
  | [], _ => rfl
  | [item], _ => simp

theorem sum_of_pair {α : Type} (word : α → Word) (items : List α) (pair : items.length ≤ 2) :
    (items.map fun item => (word item).toNat).sum =
      ((items[0]?.map word).getD 0).toNat + ((items[1]?.map word).getD 0).toNat := by
  match items, pair with
  | [], _ => rfl
  | [item], _ => simp
  | [first, second], _ => simp

namespace Assembly

def bracketed (body : List Token) : List Token := .openBracket :: (body ++ [.closeBracket])

theorem unspaced_bracketed (body : List Token) :
    unspaced (bracketed body) = bracketed (unspaced body) := by
  simp [unspaced, bracketed]

theorem bracketed_injective (body other : List Token) (same : bracketed body = bracketed other) :
    body = other := by
  simpa [bracketed] using same

/-- Brackets are read as an address exactly if each token between them is a part. -/
theorem bracketed_eq_ok (body : List Token) (address : Addressing) :
    operandsOfTokens (bracketed body) = .ok [.address address] ↔
      ∃ parts, List.Forall₂ IsPart (unspaced body) parts ∧ addressOfParts parts = .ok address := by
  rw [operandsOfTokens_eq_ok]
  constructor
  · rintro ⟨groups, each, listed⟩
    rw [unspaced_bracketed] at listed
    cases each with
    | cons isOperand others =>
        cases others
        rw [List.intercalate_singleton] at listed
        cases isOperand with
        | address content parts each nonempty registers offsets =>
            have same := bracketed_injective _ content listed
            exact ⟨parts, same ▸ each,
              (addressOfParts_eq_ok parts _).mpr ⟨nonempty, registers, offsets, rfl⟩⟩
  · rintro ⟨parts, each, gathered⟩
    obtain ⟨nonempty, registers, offsets, rfl⟩ := (addressOfParts_eq_ok parts address).mp gathered
    refine ⟨[bracketed (unspaced body)], .cons ?_ .nil, ?_⟩
    · exact .address (unspaced body) parts each nonempty registers offsets
    · rw [unspaced_bracketed, List.intercalate_singleton]

theorem gathered_perm (parts others : List AddressPart) (reordered : parts.Perm others)
    (address : Addressing) (gathered : addressOfParts parts = .ok address) :
    ∃ permuted, addressOfParts others = .ok permuted ∧ permuted.offset = address.offset := by
  obtain ⟨nonempty, pair, single, rfl⟩ := (addressOfParts_eq_ok parts address).mp gathered
  have registers := reordered.filterMap AddressPart.register?
  have offsets := reordered.filterMap AddressPart.offset?
  have filled : others ≠ [] := fun empty => nonempty (empty ▸ reordered).eq_nil
  refine ⟨_, (addressOfParts_eq_ok others _).mpr ⟨filled, registers.length_eq ▸ pair,
    offsets.length_eq ▸ single, rfl⟩, ?_⟩
  have same : parts.filterMap AddressPart.offset? = others.filterMap AddressPart.offset? := by
    rcases listed : parts.filterMap AddressPart.offset? with _ | ⟨offset, _ | ⟨second, more⟩⟩
    · rw [listed] at offsets
      exact offsets.nil_eq
    · rw [listed] at offsets
      exact offsets.singleton_eq
    · rw [listed] at single
      simp at single
  rw [same]

theorem label_of_name (body : List Token) (parts : List AddressPart)
    (each : List.Forall₂ IsPart body parts) (name : String) (member : .identifier name ∈ body)
    (noRegister : Register.ofName? name = none) : .offset (.label name) ∈ parts := by
  induction each with
  | nil => cases member
  | @cons token part body parts isPart each ih =>
      rcases List.mem_cons.mp member with rfl | behind
      · cases isPart with
        | register register =>
            rw [Register.ofName?_name] at noRegister
            cases noRegister
        | label _ _ _ => exact List.mem_cons_self
      · exact List.mem_cons_of_mem part (ih behind)

theorem operandsFrom_bracketed (afterComma : Bool) (body back : List Token) (address : Addressing)
    (read : operandsOfTokens (bracketed body) = .ok [.address address]) :
    operandsFrom (.operand afterComma) (bracketed body ++ back) =
      prependOperand (.ok (.address address)) (operandsFrom .comma back) := by
  obtain ⟨parts, each, gathered⟩ := (bracketed_eq_ok body address).mp read
  obtain ⟨nonempty, registers, offsets, rfl⟩ := (addressOfParts_eq_ok parts address).mp gathered
  have isOperand := IsOperand.address (unspaced body) parts each nonempty registers offsets
  have split : unspaced (bracketed body ++ back) = bracketed (unspaced body) ++ unspaced back := by
    rw [← unspaced_bracketed]
    exact List.filter_append _ _
  calc operandsFrom (.operand afterComma) (bracketed body ++ back)
      = operandsFrom (.operand afterComma) (bracketed (unspaced body) ++ unspaced back) := by
        rw [← split, operandsFrom_unspaced]
    _ = prependOperand (.ok (.address _)) (operandsFrom .comma (unspaced back)) :=
        operandsFrom_group afterComma _ _ isOperand (unspaced back)
    _ = prependOperand (.ok (.address _)) (operandsFrom .comma back) := by
        rw [operandsFrom_unspaced]

theorem exchange_bracketed (front body other back : List Token) (address permuted : Addressing)
    (operands : List Operand)
    (read : operandsOfTokens (bracketed body) = .ok [.address address])
    (alike : operandsOfTokens (bracketed other) = .ok [.address permuted])
    (listed : operandsOfTokens (front ++ (bracketed body ++ back)) = .ok operands) :
    ∃ before after, operands = before ++ .address address :: after ∧
      operandsOfTokens (front ++ (bracketed other ++ back)) =
        .ok (before ++ .address permuted :: after) := by
  obtain ⟨inner, before, rest, rfl, reads, replace⟩ :=
    (parses_of_operandsFrom _ _ operands listed).behind
  have opened : ∃ afterComma, inner = .operand afterComma := by
    cases reads
    exact ⟨_, rfl⟩
  obtain ⟨afterComma, rfl⟩ := opened
  have found := reads.operandsFrom
  rw [operandsFrom_bracketed afterComma body back address read] at found
  obtain ⟨_, after, made, behind, rfl⟩ := prependOperand_eq_ok _ _ rest found
  cases made
  refine ⟨before, after, rfl, (replace _ _ (parses_of_operandsFrom _ _ _ ?_)).operandsFrom⟩
  rw [operandsFrom_bracketed afterComma other back permuted alike, behind]
  rfl

end Assembly

namespace Machine

open Assembly

variable (machine : Machine) (places : String → Word)

def adds : AddressPart → Nat
  | .register register => (machine.registers.get register).toNat
  | .offset offset => (offset.word places).toNat

/-- What a token between brackets is worth: the value of the register that it names, the number that
it is, or the place of the label. Spaces are worth nothing. -/
def worth : Token → Nat
  | .number word => word.toNat
  | .identifier name =>
    match Register.ofName? name with
    | some register => (machine.registers.get register).toNat
    | none => (places name).toNat
  | _ => 0

theorem worth_isPart (token : Token) (part : AddressPart)
    (isPart : IsPart token part) : machine.worth places token = machine.adds places part := by
  cases isPart with
  | value word => rfl
  | register register => simp only [worth, Register.ofName?_name, adds]
  | label name noCounter noRegister =>
      simp only [worth, (Register.ofName?_eq_none name).mpr noRegister, adds, Offset.word]

theorem sum_worth (body : List Token) (parts : List AddressPart)
    (each : List.Forall₂ IsPart (unspaced body) parts) :
    (body.map (machine.worth places)).sum = (parts.map (machine.adds places)).sum := by
  induction body generalizing parts with
  | nil =>
      cases each
      rfl
  | cons token body ih =>
      by_cases solid : token = .space
      · subst solid
        rw [List.map_cons, List.sum_cons, ih parts each]
        exact Nat.zero_add _
      · rw [unspaced_cons token body solid] at each
        cases each with
        | cons isPart others =>
            rw [List.map_cons, List.map_cons, List.sum_cons, List.sum_cons, ih _ others,
              machine.worth_isPart places token _ isPart]

theorem sum_adds (parts : List AddressPart) :
    (parts.map (machine.adds places)).sum =
      ((parts.filterMap AddressPart.register?).map fun register =>
        (machine.registers.get register).toNat).sum +
      ((parts.filterMap AddressPart.offset?).map fun offset =>
        (offset.word places).toNat).sum := by
  induction parts with
  | nil => rfl
  | cons part parts ih =>
      cases part <;>
        simp only [List.map_cons, List.sum_cons, List.filterMap_cons,
          AddressPart.register?, AddressPart.offset?, adds, ih] <;>
        omega

theorem effectiveAddress_located (base index : Option Register) (offset : Option Offset) :
    ∃ place,
      machine.effectiveAddress (Addressing.located places ⟨base, index, offset⟩) = .ok place ∧
      place.toNat = (((base.map machine.registers.get).getD 0).toNat +
        ((index.map machine.registers.get).getD 0).toNat +
        ((offset.map (Offset.word places)).getD 0).toNat) % 2 ^ 32 := by
  have total (first second third : Word) : (third + first + second).toNat =
      (first.toNat + second.toNat + third.toNat) % 2 ^ 32 := by
    rw [UInt32.toNat_add, UInt32.toNat_add]
    omega
  cases offset with
  | none => exact ⟨_, rfl, UInt32.toNat_add _ _⟩
  | some offset => exact ⟨_, rfl, total _ _ _⟩

/-- The address is the sum of what was written between the brackets, whatever became its base and
its index. -/
theorem effectiveAddress_gathered (parts : List AddressPart) (address : Addressing)
    (gathered : addressOfParts parts = .ok address) :
    ∃ place, machine.effectiveAddress (address.located places) = .ok place ∧
      place.toNat = (parts.map (machine.adds places)).sum % 2 ^ 32 := by
  obtain ⟨_, pair, single, rfl⟩ := (addressOfParts_eq_ok parts address).mp gathered
  rw [machine.sum_adds places, sum_of_pair machine.registers.get _ pair,
    sum_of_single (Offset.word places) _ single]
  exact machine.effectiveAddress_located places _ _ _

theorem located_of_ready (address : Addressing) (ready : address.label? = none) :
    address.located places = address := by
  rcases address with ⟨base, index, _ | (word | label)⟩
  · rfl
  · rfl
  · cases ready

theorem effectiveAddress_reordered (parts others : List AddressPart)
    (reordered : parts.Perm others) (address permuted : Addressing)
    (gathered : addressOfParts parts = .ok address)
    (alike : addressOfParts others = .ok permuted) :
    ∃ place, machine.effectiveAddress (address.located places) = .ok place ∧
      machine.effectiveAddress (permuted.located places) = .ok place ∧
      place.toNat = (parts.map (machine.adds places)).sum % 2 ^ 32 := by
  obtain ⟨place, told, total⟩ := machine.effectiveAddress_gathered places parts address gathered
  obtain ⟨other, otherTold, otherTotal⟩ :=
    machine.effectiveAddress_gathered places others permuted alike
  have same : other = place := by
    apply UInt32.toNat_inj.mp
    rw [otherTotal, total, (reordered.map (machine.adds places)).sum_nat]
  exact ⟨place, told, same ▸ otherTold, total⟩

theorem effectiveAddress_perm (parts others : List AddressPart)
    (reordered : parts.Perm others) (address permuted : Addressing)
    (gathered : addressOfParts parts = .ok address)
    (alike : addressOfParts others = .ok permuted)
    (offset : permuted.offset = address.offset) :
    machine.effectiveAddress permuted = machine.effectiveAddress address := by
  have label : permuted.label? = address.label? := by
    rw [Addressing.label?, Addressing.label?, offset]
  rcases machine.effectiveAddress_cases address with ⟨name, waits, failed⟩ | ⟨ready, _⟩
  · rcases machine.effectiveAddress_cases permuted with ⟨other, same, alsoFailed⟩ | ⟨ready, _⟩
    · rw [label, waits] at same
      cases same
      rw [failed, alsoFailed]
    · rw [label, waits] at ready
      cases ready
  · obtain ⟨place, told, otherTold, _⟩ := machine.effectiveAddress_reordered (fun _ => 0) parts
      others reordered address permuted gathered alike
    rw [located_of_ready _ address ready] at told
    rw [located_of_ready _ permuted (label.trans ready)] at otherTold
    rw [told, otherTold]

end Machine

namespace Assembly

/-- What stands between the brackets of an address can be put into any order, wherever the address
stands. Every order is read as an address, and all of them are the same place: the sum of what its
numbers, registers and labels are worth, each as often as it was written. Where one order waits for
a label, so do the others. -/
theorem part_order_immaterial (body other : List Token) (address : Addressing)
    (reordered : (unspaced body).Perm (unspaced other))
    (read : operandsOfTokens (bracketed body) = .ok [.address address]) :
    ∃ permuted, operandsOfTokens (bracketed other) = .ok [.address permuted] ∧
      (∀ front back operands,
        operandsOfTokens (front ++ (bracketed body ++ back)) = .ok operands →
          ∃ before after, operands = before ++ .address address :: after ∧
            operandsOfTokens (front ++ (bracketed other ++ back)) =
              .ok (before ++ .address permuted :: after)) ∧
      ∀ machine : Machine,
        machine.effectiveAddress permuted = machine.effectiveAddress address ∧
        (∀ name, .identifier name ∈ body → Register.ofName? name = none →
          machine.effectiveAddress address = .error (.unresolvedLabel name)) ∧
        ∀ places, ∃ place, machine.effectiveAddress (address.located places) = .ok place ∧
          machine.effectiveAddress (permuted.located places) = .ok place ∧
          place.toNat = (body.map (machine.worth places)).sum % 2 ^ 32 := by
  obtain ⟨parts, each, gathered⟩ := (bracketed_eq_ok body address).mp read
  obtain ⟨others, otherEach, partsReordered⟩ := List.perm_comp_forall₂ reordered.symm each
  obtain ⟨permuted, alike, offset⟩ :=
    gathered_perm parts others partsReordered.symm address gathered
  have otherRead := (bracketed_eq_ok other permuted).mpr ⟨others, otherEach, alike⟩
  refine ⟨permuted, otherRead, ?_, ?_⟩
  · intro front back operands listed
    exact exchange_bracketed front body other back address permuted operands read otherRead listed
  · intro machine
    refine ⟨machine.effectiveAddress_perm parts others partsReordered.symm address permuted gathered
      alike offset, ?_, ?_⟩
    · intro name member noRegister
      have kept : .identifier name ∈ unspaced body := by simpa [unspaced] using member
      have label := label_of_name (unspaced body) parts each name kept noRegister
      have waits := offset_of_part parts address _ gathered label
      rw [Machine.effectiveAddress, waits]
    · intro places
      rw [machine.sum_worth places body parts each]
      exact machine.effectiveAddress_reordered places parts others partsReordered.symm address
        permuted gathered alike

def farAhead : Machine := { Machine.empty with registers := Registers.initial.set .r1 0x20000000 }

theorem exchanged_registers_same_place :
    operandsOfTokens (bracketed [.identifier "r1", .identifier "top", .identifier "sp"]) =
        .ok [.address ⟨some .r1, some .sp, some (.label "top")⟩] ∧
      ∃ permuted,
        operandsOfTokens
            (bracketed [.identifier "sp", .space, .identifier "top", .identifier "r1"]) =
          .ok [.address permuted] ∧
        farAhead.effectiveAddress permuted = .error (.unresolvedLabel "top") ∧
        ∃ place, farAhead.effectiveAddress (permuted.located fun _ => 0x10) = .ok place ∧
          place.toNat = 0x10000010 := by
  have read : operandsOfTokens (bracketed [.identifier "r1", .identifier "top", .identifier "sp"]) =
      .ok [.address ⟨some .r1, some .sp, some (.label "top")⟩] := by decide
  obtain ⟨permuted, reread, _, same⟩ := part_order_immaterial
    [.identifier "r1", .identifier "top", .identifier "sp"]
    [.identifier "sp", .space, .identifier "top", .identifier "r1"] _ (by decide) read
  obtain ⟨equal, waits, placed⟩ := same farAhead
  obtain ⟨place, _, told, total⟩ := placed fun _ => 0x10
  exact ⟨read, permuted, reread, equal.trans (waits "top" (by decide) (by decide)), place, told,
    total.trans (by decide +kernel)⟩

end Assembly

end ToyComputer
