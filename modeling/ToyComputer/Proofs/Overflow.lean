import ToyComputer.Proofs.Steps

/-!
The overflow flag: it tells of the last addition, subtraction or multiplication that was completed
whether its exact result was out of reach of a word. Nothing else that happens to a machine touches
the flag, and until there is such a result it is clear.
-/

namespace ToyComputer

def isOutside (exact : Int) : Bool := decide (exact < 0 ∨ 0xFFFFFFFF < exact)

namespace Word

variable (a b : Word)

theorem overflow_add : (add a b).overflow = isOutside (a.toNat + b.toNat) := by
  have := a.toNat_lt
  have := b.toNat_lt
  simp only [add, isOutside, UInt32.lt_iff_toNat_lt, UInt32.toNat_add, decide_eq_decide]
  omega

theorem overflow_sub : (sub a b).overflow = isOutside (a.toNat - b.toNat) := by
  have := a.toNat_lt
  simp only [sub, isOutside, UInt32.lt_iff_toNat_lt, decide_eq_decide]
  omega

theorem overflow_mul : (mul a b).overflow = isOutside (a.toNat * b.toNat) := by
  -- The product of two words fits into twice the width, so nothing of it is lost before its upper
  -- half is looked at.
  have wide : a.toNat * b.toNat < 2 ^ 64 := by
    calc a.toNat * b.toNat < 2 ^ 32 * 2 ^ 32 := Nat.mul_lt_mul_of_lt_of_lt a.toNat_lt b.toNat_lt
      _ = 2 ^ 64 := by decide
  have upper : ((a.toUInt64 * b.toUInt64) >>> 32).toNat = a.toNat * b.toNat / 2 ^ 32 := by
    rw [UInt64.toNat_shiftRight, UInt64.toNat_mul, UInt32.toNat_toUInt64, UInt32.toNat_toUInt64,
      Nat.mod_eq_of_lt wide, Nat.shiftRight_eq_div_pow]
    rfl
  have half : (mul a b).overflow = true ↔ a.toNat * b.toNat / 2 ^ 32 ≠ 0 := by
    rw [← upper, mul, bne_iff_ne, Ne, ← UInt64.toNat_inj]
    rfl
  rw [Bool.eq_iff_iff, half, isOutside, decide_eq_true_iff, ← Int.natCast_mul]
  omega

end Word

def reportingOpcodes : List Opcode :=
  [.flexible .add .register, .flexible .add .immediate, .registers .sub, .registers .mul]

/-- What happens to a machine: a key arrives, a value is written from outside, or it takes a step. -/
inductive Incident where
  | key (key : UInt8)
  | poke (address value : Word)
  | step
  deriving DecidableEq, Repr

namespace Machine

def undergo (machine : Machine) : Incident → Machine
  | .key key => (machine.pushKey key).2
  | .poke address value => (machine.poke address value).2
  | .step => machine.step.2

/-- The exact sum, difference or product that an operation asks for. -/
def exactResult? (machine : Machine) : Operation → Option Int
  | .flexible .add _ left right =>
    some ((machine.registers.get left).toNat + (machine.source right).toNat)
  | .registers .sub _ left right =>
    some ((machine.registers.get left).toNat - (machine.registers.get right).toNat)
  | .registers .mul _ left right =>
    some ((machine.registers.get left).toNat * (machine.registers.get right).toNat)
  | _ => none

/-- The exact result of the instruction that the next step completes, if it is one of those. -/
def completed? (machine : Machine) : Option Int :=
  match machine.step.1 with
  | .ok .continuing => machine.instruction?.bind fun instruction =>
      machine.exactResult? instruction.operation
  | _ => none

def results (machine : Machine) : List Incident → List Int
  | [] => []
  | .step :: later => machine.completed?.toList ++ (machine.undergo .step).results later
  | incident :: later => (machine.undergo incident).results later

theorem exactResult?_eq_none (machine : Machine) (operation : Operation) :
    machine.exactResult? operation = none ↔ operation.opcode ∉ reportingOpcodes := by
  cases operation with
  | flexible op target left right =>
      cases op <;> cases right <;>
        simp [exactResult?, reportingOpcodes, Operation.opcode, Source.form]
  | registers op target left right =>
      cases op <;> simp [exactResult?, reportingOpcodes, Operation.opcode]
  | _ => simp [exactResult?, reportingOpcodes, Operation.opcode]

theorem overflow_perform (machine : Machine) (next : Word) (operation : Operation) (effect : Effect)
    (memory : Memory) (performed : machine.perform next operation = (.ok effect, memory)) :
    effect.overflow = (machine.exactResult? operation).map isOutside := by
  cases operation with
  | flexible op target left right =>
      cases performed
      cases op with
      | add => exact congrArg some (Word.overflow_add _ _)
      | _ => rfl
  | registers op target left right =>
      simp only [perform, Prod.mk.injEq] at performed
      cases op with
      | sub => cases performed.1; exact congrArg some (Word.overflow_sub _ _)
      | mul => cases performed.1; exact congrArg some (Word.overflow_mul _ _)
      | div | mod =>
          simp only [RegisterOp.eval] at performed
          split at performed
          · cases performed.1
          · cases performed.1; rfl
      | _ => cases performed.1; rfl
  | copy target source | negate register | flow target => cases performed; rfl
  | jump target =>
      simp only [perform, Prod.mk.injEq] at performed
      obtain ⟨place, _, rfl⟩ := effect_of_jump machine target effect performed.1
      rfl
  | jumpIfZero register target =>
      simp only [perform] at performed
      split at performed
      · obtain ⟨place, _, rfl⟩ := effect_of_jump machine target effect (Prod.mk.inj performed).1
        rfl
      · cases performed; rfl
  | store width target source | load width target source | call target =>
      simp only [perform] at performed
      split at performed
      · cases performed
      · split at performed <;> cases performed
        rfl
  | ret =>
      simp only [perform] at performed
      split at performed <;> cases performed
      rfl

def flagAfter (flag : Bool) (results : List Int) : Bool :=
  (results.getLast?.map isOutside).getD flag

theorem flagAfter_append (flag : Bool) (earlier later : List Int) :
    flagAfter flag (earlier ++ later) = flagAfter (flagAfter flag earlier) later := by
  simp only [flagAfter, List.getLast?_append]
  cases later.getLast? <;> rfl

theorem flagAfter_clear (results : List Int) :
    flagAfter false results = results.getLast?.any isOutside := by
  rw [flagAfter]
  cases results.getLast? <;> rfl

theorem completed?_of_effect (machine after : Machine) (instruction : Instruction)
    (found : machine.instruction? = some instruction)
    (stepped : machine.step = (.ok .continuing, after)) :
    machine.completed? = machine.exactResult? instruction.operation := by
  simp only [completed?, stepped, found, Option.bind_some]

theorem completed?_of_stopped (machine : Machine) (stopped : machine.step.1 ≠ .ok .continuing) :
    machine.completed? = none := by
  unfold completed?
  split
  · next executed => exact absurd executed stopped
  · rfl

theorem overflow_step (machine : Machine) :
    machine.step.2.overflow = flagAfter machine.overflow machine.completed?.toList := by
  rcases step_cases machine with ⟨_, stepped⟩ | ⟨_, fault, memory, _, _, stepped⟩ |
    ⟨instruction, effect, memory, found, performed, stepped⟩
  · rw [completed?_of_stopped machine (by simp [stepped]), stepped]
    rfl
  · rw [completed?_of_stopped machine (by simp [stepped]), stepped]
    rfl
  · rw [completed?_of_effect machine _ instruction found stepped, stepped]
    have reported := overflow_perform machine _ _ effect memory performed
    simp only [commit, reported, flagAfter]
    cases machine.exactResult? instruction.operation <;> rfl

theorem overflow_undergo (machine : Machine) (incident : Incident) (later : List Incident) :
    ∃ completed, machine.results (incident :: later) =
        completed ++ (machine.undergo incident).results later ∧
      (machine.undergo incident).overflow = flagAfter machine.overflow completed := by
  cases incident with
  | key key => exact ⟨[], rfl, rfl⟩
  | poke address value => exact ⟨[], rfl, rfl⟩
  | step => exact ⟨machine.completed?.toList, rfl, machine.overflow_step⟩

theorem overflow_foldl (machine : Machine) (incidents : List Incident) :
    (incidents.foldl undergo machine).overflow =
      flagAfter machine.overflow (machine.results incidents) := by
  induction incidents generalizing machine with
  | nil => rfl
  | cons incident later ih =>
      obtain ⟨completed, split, overflow⟩ := machine.overflow_undergo incident later
      rw [List.foldl_cons, ih, split, flagAfter_append, overflow]

theorem step_flow (machine : Machine) (instruction : Instruction) (target : Register)
    (found : machine.instruction? = some instruction)
    (flow : instruction.operation = .flow target) :
    ∃ after, machine.step = (.ok .continuing, after) ∧
      after.registers.get target = Word.ofBool machine.overflow := by
  refine ⟨_, step_of_effect machine instruction machine.memory found
    { result := some (target, Word.ofBool machine.overflow) } (by rw [flow]; rfl), ?_⟩
  exact Registers.get_set_self _ _ _

theorem completed?_of_silent (machine : Machine) (instruction : Instruction)
    (found : machine.instruction? = some instruction)
    (silent : instruction.operation.opcode ∉ reportingOpcodes) : machine.completed? = none := by
  simp only [completed?, found, Option.bind_some, (machine.exactResult?_eq_none _).mpr silent]
  split <;> rfl

/-- The flag keeps what there is to tell of the latest result, whatever happens in between. -/
theorem overflow_history (program : Program) (incidents : List Incident) :
    let machine := incidents.foldl undergo (start program)
    let latest := ((start program).results incidents).getLast?
    machine.overflow = latest.any isOutside ∧
      (∀ instruction target, machine.instruction? = some instruction →
        instruction.operation = .flow target →
          ∃ after, machine.step = (.ok .continuing, after) ∧
            after.registers.get target = if latest.any isOutside then 0 else 0xFFFFFFFF) ∧
      (∀ fault, machine.step.1 = .error fault → machine.step.2.overflow = machine.overflow) ∧
      ∀ instruction, machine.instruction? = some instruction →
        instruction.operation.opcode ∉ reportingOpcodes →
          machine.step.2.overflow = machine.overflow := by
  intro machine latest
  have history : machine.overflow = latest.any isOutside := by
    rw [overflow_foldl]
    exact flagAfter_clear _
  refine ⟨history, ?_, ?_, ?_⟩
  · intro instruction target found flow
    obtain ⟨after, stepped, told⟩ := machine.step_flow instruction target found flow
    exact ⟨after, stepped, by rw [told, history, Word.ofBool]⟩
  · intro fault failed
    rw [overflow_step, completed?_of_stopped machine (by simp [failed])]
    rfl
  · intro instruction found silent
    rw [overflow_step, completed?_of_silent machine instruction found silent]
    rfl

def borrows : Program :=
  Program.ofList
    [(0, ⟨.copy .r1 (.immediate 1), 0⟩), (6, ⟨.registers .sub .r1 .r0 .r1, 1⟩),
      (10, ⟨.flow .r2, 2⟩)] {}

def zeroDivision : Program :=
  Program.ofList [(0, ⟨.registers .div .r0 .r0 .r1, 0⟩)] {}

theorem overflow_borrows :
    let machine := [.step, .key 7, .step, .poke 0 5].foldl undergo (start borrows)
    (start borrows).results [.step, .key 7, .step, .poke 0 5] = [-1] ∧
      (∃ after, machine.step = (.ok .continuing, after) ∧ after.registers.get .r2 = 0) ∧
      machine.step.2.overflow = machine.overflow ∧
      (start zeroDivision).step.1 = .error .divisionByZero ∧
      (start zeroDivision).step.2.overflow = false := by
  intro machine
  have found : machine.instruction? = some ⟨.flow .r2, 2⟩ := by decide +kernel
  have results : (start borrows).results [.step, .key 7, .step, .poke 0 5] = [-1] := by
    decide +kernel
  have division : (start zeroDivision).instruction? =
      some ⟨.registers .div .r0 .r0 .r1, 0⟩ := by decide +kernel
  have failed := congrArg Prod.fst
    (step_of_fault (start zeroDivision) _ _ division .divisionByZero rfl)
  obtain ⟨_, flow, _, silent⟩ := overflow_history borrows [.step, .key 7, .step, .poke 0 5]
  rw [results] at flow
  exact ⟨results, flow _ .r2 found rfl, silent _ found (by decide), failed,
    (overflow_history zeroDivision []).2.2.1 _ failed⟩

end Machine

end ToyComputer
