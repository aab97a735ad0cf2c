import Mathlib.Algebra.GroupWithZero.Nat
import Mathlib.Algebra.Ring.Int.Defs
import ToyComputer.Proofs.Faults
import ToyComputer.Proofs.Overflow

/-!
Arithmetic: what an operation on registers writes is the exact result modulo the number of words.
Words are read as unsigned numbers, and in two's complement by the signed shift alone.
-/

namespace ToyComputer

namespace Word

def signed (a : Word) : Int := a.negative?.getD a.toNat

/-- The word is this number modulo the number of words. -/
def IsResidue (a : Word) (exact : Int) : Prop := (a.toNat : Int) = exact % 2 ^ 32

end Word

def truth (holds : Prop) [Decidable holds] : Int := if holds then 0 else 0xFFFFFFFF

/-- The exact result. Shift amounts count modulo 32, and a shift to the right rounds down. -/
def FlexibleOp.exact (a b : Word) : FlexibleOp → Int
  | add => a.toNat + b.toNat
  | and => (a.toNat &&& b.toNat : Nat)
  | or => (a.toNat ||| b.toNat : Nat)
  | xor => (a.toNat ^^^ b.toNat : Nat)
  | lshift => a.toNat * 2 ^ (b.toNat % 32)
  | zrshift => Int.fdiv a.toNat (2 ^ (b.toNat % 32))
  | rshift => Int.fdiv a.signed (2 ^ (b.toNat % 32))

def RegisterOp.exact (a b : Word) : RegisterOp → Int
  | sub => a.toNat - b.toNat
  | mul => a.toNat * b.toNat
  | div => (a.toNat / b.toNat : Nat)
  | mod => (a.toNat % b.toNat : Nat)
  | eq => truth (a.toNat = b.toNat)
  | neq => truth (a.toNat ≠ b.toNat)
  | gt => truth (b.toNat < a.toNat)
  | lt => truth (a.toNat < b.toNat)
  | gte => truth (b.toNat ≤ a.toNat)
  | lte => truth (a.toNat ≤ b.toNat)

namespace Word

variable (a b : Word)

theorem isResidue_self : a.IsResidue a.toNat := by
  have inside := a.toNat_lt
  unfold IsResidue
  omega

theorem isResidue_add : (add a b).value.IsResidue (a.toNat + b.toNat) := by
  unfold IsResidue
  rw [add, UInt32.toNat_add]
  omega

theorem isResidue_sub : (sub a b).value.IsResidue (a.toNat - b.toNat) := by
  have inside := b.toNat_lt
  unfold IsResidue
  rw [sub, UInt32.toNat_sub]
  omega

theorem isResidue_neg : (-a).IsResidue (-a.toNat) := by
  have inside := a.toNat_lt
  unfold IsResidue
  rw [UInt32.toNat_neg, UInt32.size]
  omega

theorem isResidue_mul : (mul a b).value.IsResidue (a.toNat * b.toNat) := by
  have lower : (mul a b).value.toNat = a.toNat * b.toNat % 2 ^ 32 := by
    rw [mul, UInt64.toNat_toUInt32, UInt64.toNat_mul, UInt32.toNat_toUInt64, UInt32.toNat_toUInt64]
    exact Nat.mod_mod_of_dvd _ (by decide)
  rw [IsResidue, lower]
  norm_cast

theorem toNat_amount : (b % 32).toNat % 32 = b.toNat % 32 := by
  rw [UInt32.toNat_mod]
  exact Nat.mod_mod _ _

theorem isResidue_shiftLeft : (shiftLeft a b).IsResidue (a.toNat * 2 ^ (b.toNat % 32)) := by
  rw [IsResidue, shiftLeft, UInt32.toNat_shiftLeft, toNat_amount, Nat.shiftLeft_eq]
  norm_cast

theorem fdiv_power (n : Int) (places : Nat) : Int.fdiv n (2 ^ places) = n / (2 ^ places : Nat) := by
  rw [Int.fdiv_eq_ediv_of_nonneg n (Int.pow_nonneg (by decide)), Int.natCast_pow]
  rfl

theorem isResidue_shiftRight :
    (shiftRight a b).IsResidue (Int.fdiv a.toNat (2 ^ (b.toNat % 32))) := by
  have shifted : (shiftRight a b).toNat = a.toNat / 2 ^ (b.toNat % 32) := by
    rw [shiftRight, UInt32.toNat_shiftRight, toNat_amount, Nat.shiftRight_eq_div_pow]
  rw [fdiv_power, ← Int.natCast_ediv, ← shifted]
  exact isResidue_self _

theorem signed_cases :
    (a.toNat < 0x80000000 ∧ a.signed = a.toNat) ∨
      (0x80000000 ≤ a.toNat ∧ a.signed = a.toNat - 0x100000000) := by
  unfold signed negative?
  split
  · next small => exact Or.inl ⟨small, rfl⟩
  · next large => exact Or.inr ⟨Nat.le_of_not_lt large, rfl⟩

theorem signed_eq : a.signed = a.toBitVec.toInt := by
  rw [BitVec.toInt_eq_toNat_cond, UInt32.toNat_toBitVec]
  rcases a.signed_cases with ⟨small, unsigned⟩ | ⟨large, negative⟩
  · rw [unsigned, if_pos (by omega)]
  · rw [negative, if_neg (by omega)]
    rfl

theorem isResidue_signed : a.IsResidue a.signed := by
  have inside := a.toNat_lt
  unfold IsResidue
  rcases a.signed_cases with ⟨_, unsigned⟩ | ⟨_, negative⟩
  · rw [unsigned]
    omega
  · rw [negative]
    omega

theorem isResidue_shiftRightSigned :
    (shiftRightSigned a b).IsResidue (Int.fdiv a.signed (2 ^ (b.toNat % 32))) := by
  have amount : (b % 32).toNat = b.toNat % 32 := UInt32.toNat_mod b 32
  have shifted : (shiftRightSigned a b).signed = Int.fdiv a.signed (2 ^ (b.toNat % 32)) :=
    calc (shiftRightSigned a b).signed
        = (a.toBitVec.sshiftRight (b % 32).toNat).toInt := signed_eq _
      _ = a.toBitVec.toInt / (2 ^ (b % 32).toNat : Nat) := by
        rw [BitVec.toInt_sshiftRight, Int.shiftRight_eq_div_pow]
      _ = Int.fdiv a.signed (2 ^ (b.toNat % 32)) := by rw [fdiv_power, amount, signed_eq]
  rw [← shifted]
  exact isResidue_signed _

end Word

theorem Word.isResidue_ofBool (holds : Prop) [Decidable holds] (told : Bool)
    (tells : told = true ↔ holds) : (Word.ofBool told).IsResidue (truth holds) := by
  unfold truth Word.ofBool
  by_cases held : holds
  · rw [if_pos held, if_pos (tells.mpr held)]
    rfl
  · rw [if_neg held, if_neg (mt tells.mp held)]
    rfl

theorem FlexibleOp.eval_exact (op : FlexibleOp) (a b : Word) :
    (op.eval a b).value.IsResidue (op.exact a b) := by
  cases op with
  | add => exact Word.isResidue_add a b
  | and =>
      rw [exact, ← UInt32.toNat_and]
      exact Word.isResidue_self (a &&& b)
  | or =>
      rw [exact, ← UInt32.toNat_or]
      exact Word.isResidue_self (a ||| b)
  | xor =>
      rw [exact, ← UInt32.toNat_xor]
      exact Word.isResidue_self (a ^^^ b)
  | lshift => exact Word.isResidue_shiftLeft a b
  | zrshift => exact Word.isResidue_shiftRight a b
  | rshift => exact Word.isResidue_shiftRightSigned a b

theorem RegisterOp.eval_exact (op : RegisterOp) (a b : Word)
    (divisible : op = .div ∨ op = .mod → b ≠ 0) :
    ∃ computed, op.eval a b = .ok computed ∧ computed.value.IsResidue (op.exact a b) := by
  cases op with
  | sub => exact ⟨_, rfl, Word.isResidue_sub a b⟩
  | mul => exact ⟨_, rfl, Word.isResidue_mul a b⟩
  | div =>
      refine ⟨_, if_neg (divisible (Or.inl rfl)), ?_⟩
      rw [exact, ← UInt32.toNat_div]
      exact Word.isResidue_self (a / b)
  | mod =>
      refine ⟨_, if_neg (divisible (Or.inr rfl)), ?_⟩
      rw [exact, ← UInt32.toNat_mod]
      exact Word.isResidue_self (a % b)
  | eq => exact ⟨_, rfl, Word.isResidue_ofBool _ _ (by simp [UInt32.toNat_inj])⟩
  | neq => exact ⟨_, rfl, Word.isResidue_ofBool _ _ (by simp [UInt32.toNat_inj])⟩
  | gt => exact ⟨_, rfl, Word.isResidue_ofBool _ _ (by simp [UInt32.lt_iff_toNat_lt])⟩
  | lt => exact ⟨_, rfl, Word.isResidue_ofBool _ _ (by simp [UInt32.lt_iff_toNat_lt])⟩
  | gte => exact ⟨_, rfl, Word.isResidue_ofBool _ _ (by simp [UInt32.le_iff_toNat_le])⟩
  | lte => exact ⟨_, rfl, Word.isResidue_ofBool _ _ (by simp [UInt32.le_iff_toNat_le])⟩

/-- The comparisons of which exactly one holds of any two words. -/
def orderings : List RegisterOp := [.eq, .gt, .lt]

def opposites : List (RegisterOp × RegisterOp) := [(.eq, .neq), (.gt, .lte), (.lt, .gte)]

theorem ordering_single (a b : Word) :
    ∃ op ∈ orderings, op.eval a b = .ok ⟨0, none⟩ ∧
      ∀ other ∈ orderings, other ≠ op → other.eval a b = .ok ⟨0xFFFFFFFF, none⟩ := by
  rcases Nat.lt_trichotomy a.toNat b.toNat with less | same | more
  · have apart : a ≠ b := fun same => Nat.ne_of_lt less (congrArg UInt32.toNat same)
    refine ⟨.lt, by decide, ?_, ?_⟩
    · simp [RegisterOp.eval, Word.ofBool, UInt32.lt_iff_toNat_lt, less]
    · simp [orderings, RegisterOp.eval, Word.ofBool, UInt32.lt_iff_toNat_lt, apart,
        Nat.lt_asymm less]
  · obtain rfl := UInt32.toNat_inj.mp same
    refine ⟨.eq, by decide, ?_, ?_⟩
    · simp [RegisterOp.eval, Word.ofBool]
    · simp [orderings, RegisterOp.eval, Word.ofBool]
  · have apart : a ≠ b := fun same => Nat.ne_of_gt more (congrArg UInt32.toNat same)
    refine ⟨.gt, by decide, ?_, ?_⟩
    · simp [RegisterOp.eval, Word.ofBool, UInt32.lt_iff_toNat_lt, more]
    · simp [orderings, RegisterOp.eval, Word.ofBool, UInt32.lt_iff_toNat_lt, apart,
        Nat.lt_asymm more]

theorem opposites_differ (a b : Word) (first second : RegisterOp)
    (opposed : (first, second) ∈ opposites) :
    ∃ told, first.eval a b = .ok ⟨Word.ofBool told, none⟩ ∧
      second.eval a b = .ok ⟨Word.ofBool (!told), none⟩ := by
  simp only [opposites, List.mem_cons, List.not_mem_nil, or_false, Prod.mk.injEq] at opposed
  rcases opposed with ⟨rfl, rfl⟩ | ⟨rfl, rfl⟩ | ⟨rfl, rfl⟩
  · exact ⟨a == b, rfl, rfl⟩
  · refine ⟨decide (b < a), rfl, ?_⟩
    rw [← decide_not, RegisterOp.eval, decide_eq_decide.mpr UInt32.not_lt]
  · refine ⟨decide (a < b), rfl, ?_⟩
    rw [← decide_not, RegisterOp.eval, decide_eq_decide.mpr UInt32.not_lt]

/-- An operation with an immediate word, and the one that has a register in its place. -/
inductive Operation.FromRegister (word : Word) (register : Register) :
    Operation → Operation → Prop where
  | copy (target : Register) :
      FromRegister word register (.copy target (.immediate word))
        (.copy target (.register register))
  | flexible (op : FlexibleOp) (target left : Register) :
      FromRegister word register (.flexible op target left (.immediate word))
        (.flexible op target left (.register register))

namespace Machine

/-- The register that an operation on registers assigns to, and the exact result that goes there. -/
def assignment? (machine : Machine) : Operation → Option (Register × Int)
  | .copy target source => some (target, (machine.source source).toNat)
  | .flexible op target left right =>
    some (target, op.exact (machine.registers.get left) (machine.source right))
  | .registers op target left right =>
    some (target, op.exact (machine.registers.get left) (machine.registers.get right))
  | .negate register => some (register, -(machine.registers.get register).toNat)
  | .flow target => some (target, truth (machine.overflow = true))
  | _ => none

/-- What is left behind an instruction that did nothing but assign to a register and to the flag. -/
def assigned (machine : Machine) (instruction : Instruction) (target : Register) (value : Word)
    (overflow : Bool) : Machine :=
  { machine with
    registers := { machine.registers.set target value with pc := machine.behind instruction }
    overflow }

theorem perform_assignment (machine : Machine) (next : Word) (operation : Operation)
    (target : Register) (exact : Int)
    (assigns : machine.assignment? operation = some (target, exact))
    (divisible : machine.dividesByZero operation = false) :
    ∃ value overflow, value.IsResidue exact ∧
      machine.perform next operation =
        (.ok { result := some (target, value), overflow }, machine.memory) := by
  cases operation with
  | copy target source =>
      cases assigns
      exact ⟨machine.source source, none, Word.isResidue_self _, rfl⟩
  | flexible op target left right =>
      cases assigns
      exact ⟨_, _, op.eval_exact (machine.registers.get left) (machine.source right), rfl⟩
  | registers op target left right =>
      cases assigns
      have nonzero : op = .div ∨ op = .mod → machine.registers.get right ≠ 0 := by
        rintro (rfl | rfl) <;> exact bne_iff_ne.mp (by simpa [dividesByZero] using divisible)
      obtain ⟨computed, evaluated, residue⟩ := op.eval_exact (machine.registers.get left) _ nonzero
      exact ⟨computed.value, computed.overflow, residue, by rw [perform, evaluated]; rfl⟩
  | negate register =>
      cases assigns
      exact ⟨_, none, Word.isResidue_neg _, rfl⟩
  | flow target =>
      cases assigns
      exact ⟨_, none, Word.isResidue_ofBool _ machine.overflow Iff.rfl, rfl⟩
  | store width target source | load width target source | jump target
  | jumpIfZero register target | call target | ret => cases assigns

theorem exactResult?_of_assignment (machine : Machine) (operation : Operation) (target : Register)
    (exact : Int) (assigns : machine.assignment? operation = some (target, exact))
    (reports : operation.opcode ∈ reportingOpcodes) :
    machine.exactResult? operation = some exact := by
  cases operation with
  | flexible op target left right =>
      cases op with
      | add => cases assigns; rfl
      | _ => cases right <;> simp [reportingOpcodes, Operation.opcode] at reports
  | registers op target left right =>
      cases op with
      | sub | mul => cases assigns; rfl
      | _ => simp [reportingOpcodes, Operation.opcode] at reports
  | _ => simp [reportingOpcodes, Operation.opcode] at reports

/-- The flag tells of the exact result after an addition, a subtraction or a multiplication, and
stays as it is after anything else. -/
theorem step_assignment (machine : Machine) (instruction : Instruction) (target : Register)
    (exact : Int) (found : machine.instruction? = some instruction)
    (assigns : machine.assignment? instruction.operation = some (target, exact))
    (divisible : machine.dividesByZero instruction.operation = false) :
    ∃ value, value.IsResidue exact ∧
      machine.step = (.ok .continuing, machine.assigned instruction target value
        (if instruction.operation.opcode ∈ reportingOpcodes then isOutside exact
          else machine.overflow)) := by
  obtain ⟨value, overflow, residue, performed⟩ := machine.perform_assignment
    (machine.behind instruction) instruction.operation target exact assigns divisible
  have told := machine.overflow_perform _ instruction.operation _ machine.memory performed
  refine ⟨value, residue, ?_⟩
  rw [step_of_effect machine instruction machine.memory found _ performed]
  by_cases reports : instruction.operation.opcode ∈ reportingOpcodes
  · have result := machine.exactResult?_of_assignment _ target exact assigns reports
    rw [commit, told, result, if_pos reports]
    rfl
  · have result := (machine.exactResult?_eq_none instruction.operation).mpr reports
    rw [commit, told, result, if_neg reports]
    rfl

theorem step_division (machine : Machine) (instruction : Instruction)
    (found : machine.instruction? = some instruction)
    (zero : machine.dividesByZero instruction.operation = true) :
    machine.step = (.error .divisionByZero, machine) := by
  apply machine.step_of_fault instruction machine.memory found
  generalize instruction.operation = operation at zero
  cases operation with
  | registers op target left right =>
      cases op with
      | div | mod => rw [perform, RegisterOp.eval, if_pos (beq_iff_eq.mp zero)]; rfl
      | _ => cases zero
  | _ => cases zero

/-- A comparison of two registers writes this word. -/
def Tells (machine : Machine) (op : RegisterOp) (left right : Register) (word : Word) : Prop :=
  ∀ next target, machine.perform next (.registers op target left right) =
    (.ok { result := some (target, word) }, machine.memory)

theorem tells_of_eval (machine : Machine) (op : RegisterOp) (left right : Register) (word : Word)
    (evaluated : op.eval (machine.registers.get left) (machine.registers.get right) =
      .ok ⟨word, none⟩) : machine.Tells op left right word := by
  intro next target
  rw [perform, evaluated]
  rfl

theorem orderings_tell (machine : Machine) (left right : Register) :
    ∃ op ∈ orderings, machine.Tells op left right 0 ∧
      ∀ other ∈ orderings, other ≠ op → machine.Tells other left right 0xFFFFFFFF := by
  obtain ⟨op, member, holds, fail⟩ :=
    ordering_single (machine.registers.get left) (machine.registers.get right)
  refine ⟨op, member, machine.tells_of_eval op left right 0 holds, ?_⟩
  intro other listed apart
  exact machine.tells_of_eval other left right _ (fail other listed apart)

theorem opposites_tell (machine : Machine) (left right : Register) (first second : RegisterOp)
    (opposed : (first, second) ∈ opposites) :
    (machine.Tells first left right 0 ∧ machine.Tells second left right 0xFFFFFFFF) ∨
      (machine.Tells first left right 0xFFFFFFFF ∧ machine.Tells second left right 0) := by
  obtain ⟨told, one, other⟩ := opposites_differ (machine.registers.get left)
    (machine.registers.get right) first second opposed
  cases told with
  | true => exact Or.inl ⟨machine.tells_of_eval _ _ _ _ one, machine.tells_of_eval _ _ _ _ other⟩
  | false => exact Or.inr ⟨machine.tells_of_eval _ _ _ _ one, machine.tells_of_eval _ _ _ _ other⟩

theorem step_fromRegister (machine : Machine) (program : Program) (immediate twin : Instruction)
    (word : Word) (register : Register) (held : machine.registers.get register = word)
    (found : machine.instruction? = some immediate)
    (other : { machine with program }.instruction? = some twin)
    (same : Operation.FromRegister word register immediate.operation twin.operation) :
    ∃ target value overflow,
      machine.step = (.ok .continuing, machine.assigned immediate target value overflow) ∧
      { machine with program }.step =
        (.ok .continuing, { machine with program }.assigned twin target value overflow) := by
  subst held
  obtain ⟨operation, line⟩ := immediate
  obtain ⟨operation', line'⟩ := twin
  cases same with
  | copy target =>
      exact ⟨target, _, machine.overflow,
        step_of_effect machine _ machine.memory found _ rfl,
        step_of_effect { machine with program } _ machine.memory other _ rfl⟩
  | flexible op target left =>
      exact ⟨target, _, _, step_of_effect machine _ machine.memory found _ rfl,
        step_of_effect { machine with program } _ machine.memory other _ rfl⟩

/-- An operation on registers computes the exact function of numbers, whichever registers it names.
It leaves all but its target, the flag and the program counter alone, and fails only where it would
divide by zero. An immediate word does what the same word does in a register. -/
theorem register_operations_exact (machine : Machine) :
    (∀ instruction target exact, machine.instruction? = some instruction →
      machine.assignment? instruction.operation = some (target, exact) →
        (machine.dividesByZero instruction.operation = true →
          machine.step = (.error .divisionByZero, machine)) ∧
        (machine.dividesByZero instruction.operation = false →
          ∃ value, value.IsResidue exact ∧
            machine.step = (.ok .continuing, machine.assigned instruction target value
              (if instruction.operation.opcode ∈ reportingOpcodes then isOutside exact
                else machine.overflow)))) ∧
      (∀ left right,
        (∃ op ∈ orderings, machine.Tells op left right 0 ∧
          ∀ other ∈ orderings, other ≠ op → machine.Tells other left right 0xFFFFFFFF) ∧
        ∀ first second, (first, second) ∈ opposites →
          (machine.Tells first left right 0 ∧ machine.Tells second left right 0xFFFFFFFF) ∨
            (machine.Tells first left right 0xFFFFFFFF ∧ machine.Tells second left right 0)) ∧
      ∀ program immediate twin register, machine.instruction? = some immediate →
        { machine with program }.instruction? = some twin →
        Operation.FromRegister (machine.registers.get register) register immediate.operation
          twin.operation →
        ∃ target value overflow,
          machine.step = (.ok .continuing, machine.assigned immediate target value overflow) ∧
          { machine with program }.step =
            (.ok .continuing, { machine with program }.assigned twin target value overflow) := by
  refine ⟨?_, ?_, ?_⟩
  · intro instruction target exact found assigns
    exact ⟨machine.step_division instruction found,
      machine.step_assignment instruction target exact found assigns⟩
  · intro left right
    exact ⟨machine.orderings_tell left right, machine.opposites_tell left right⟩
  · intro program immediate twin register found other same
    exact machine.step_fromRegister program immediate twin _ register rfl found other same

def halving (amount : Source) : Instruction := ⟨.flexible .rshift .r1 .r1 amount, 0⟩

def halves (amount : Source) : Machine :=
  { start (Program.ofList [(0, halving amount)] {}) with
    registers := (Registers.initial.set .r1 0x80000001).set .r2 33 }

theorem halves_exact :
    (∃ value, value.IsResidue (-1073741824) ∧
      (halves (.immediate 33)).step = (.ok .continuing,
        (halves (.immediate 33)).assigned (halving (.immediate 33)) .r1 value false)) ∧
      ∃ target value overflow,
        (halves (.immediate 33)).step = (.ok .continuing,
          (halves (.immediate 33)).assigned (halving (.immediate 33)) target value overflow) ∧
        (halves (.register .r2)).step = (.ok .continuing,
          (halves (.register .r2)).assigned (halving (.register .r2)) target value overflow) := by
  obtain ⟨exact, _, immediate⟩ := register_operations_exact (halves (.immediate 33))
  have found : (halves (.immediate 33)).instruction? = some (halving (.immediate 33)) := by
    decide +kernel
  have other : (halves (.register .r2)).instruction? = some (halving (.register .r2)) := by
    decide +kernel
  exact ⟨(exact _ .r1 (-1073741824) found (by decide +kernel)).2 rfl,
    immediate (halves (.register .r2)).program _ _ .r2 found other (.flexible .rshift .r1 .r1)⟩

end Machine

end ToyComputer
