import ToyComputer.Proofs.Cells

/-!
The call stack: as long as a program leaves the stack to calls and returns, it holds the return
addresses of the calls that are pending, and each return goes on where the innermost of them is to go
on. It ends where the addresses end.
-/

namespace ToyComputer

namespace Operation

/-- The register that an operation changes. Calls and returns move the stack pointer. -/
def destination? : Operation → Option Register
  | copy target _ | load _ target _ | flexible _ target _ _ | registers _ target _ _ => some target
  | negate register => some register
  | flow target => some target
  | call _ | ret => some .sp
  | store .. | jump _ | jumpIfZero .. => none

def isCall : Operation → Bool
  | call _ => true
  | _ => false

def isReturn : Operation → Bool
  | ret => true
  | _ => false

theorem eq_call (operation : Operation) (call : operation.isCall) :
    ∃ target, operation = .call target := by
  unfold isCall at call
  split at call
  · exact ⟨_, rfl⟩
  · cases call

theorem eq_ret (operation : Operation) (ret : operation.isReturn) : operation = .ret := by
  unfold isReturn at ret
  split at ret
  · rfl
  · cases ret

end Operation

namespace Machine

section

variable (machine : Machine) (next : Word) (memory : Memory)

theorem destination_perform (operation : Operation) (effect : Effect)
    (performed : machine.perform next operation = (.ok effect, memory)) :
    effect.result.map Prod.fst = operation.destination? := by
  cases operation with
  | copy target source | flexible op target left right | negate register | flow target =>
      cases performed
      rfl
  | registers op target left right =>
      obtain ⟨evaluated, _⟩ := Prod.mk.inj performed
      cases result : op.eval (machine.registers.get left) (machine.registers.get right) with
      | error fault => rw [result] at evaluated; cases evaluated
      | ok computed => rw [result] at evaluated; cases evaluated; rfl
  | store width target source | load width target source | call target =>
      simp only [perform] at performed
      split at performed
      · cases performed
      · split at performed <;> cases performed
        rfl
  | jump target =>
      simp only [perform, Prod.mk.injEq] at performed
      obtain ⟨place, _, rfl⟩ := effect_of_jump machine target effect performed.1
      rfl
  | jumpIfZero register target =>
      simp only [perform] at performed
      split at performed
      · rw [Prod.mk.injEq] at performed
        obtain ⟨place, _, rfl⟩ := effect_of_jump machine target effect performed.1
        rfl
      · cases performed
        rfl
  | ret =>
      simp only [perform] at performed
      split at performed <;> cases performed
      rfl

theorem get_commit_of_ne (effect : Effect) (register : Register)
    (other : effect.result.map Prod.fst ≠ some register) :
    (machine.commit effect next memory).registers.get register =
      machine.registers.get register := by
  rcases effect with ⟨_ | ⟨target, value⟩, overflow, place⟩
  · rfl
  · have distinct : target ≠ register := fun same => other (congrArg some same)
    exact Registers.get_set_of_ne machine.registers value distinct

theorem get_commit (effect : Effect) (register : Register) (value : Word)
    (result : effect.result = some (register, value)) :
    (machine.commit effect next memory).registers.get register = value := by
  rcases effect with ⟨changed, overflow, place⟩
  cases result
  exact Registers.get_set_self machine.registers register value

theorem perform_call (target : Addressing) (effect : Effect)
    (performed : machine.perform next (.call target) = (.ok effect, memory)) :
    machine.memory.writeWord (machine.registers.get .sp).toNat next = (.ok (), memory) ∧
      effect.result = some (.sp, machine.registers.get .sp + 4) := by
  simp only [perform] at performed
  split at performed
  · cases performed
  · split at performed
    · cases performed
    · next written =>
        cases performed
        exact ⟨written, rfl⟩

end

def operation? (machine : Machine) : Option Operation :=
  machine.instruction?.map Instruction.operation

theorem operation?_of_found (machine : Machine) (instruction : Instruction) (operation : Operation)
    (found : machine.instruction? = some instruction) (named : instruction.operation = operation) :
    machine.operation? = some operation := by
  rw [operation?, found, Option.map_some, named]

def calls (machines : List Machine) : Nat :=
  machines.countP fun machine => machine.operation?.any Operation.isCall

def returns (machines : List Machine) : Nat :=
  machines.countP fun machine => machine.operation?.any Operation.isReturn

/-- The return addresses that are pending behind the next instruction, the innermost last. -/
def pend (pending : List Word) (machine : Machine) : List Word :=
  match machine.instruction? with
  | none => pending
  | some instruction =>
    match instruction.operation with
    | .call _ => pending ++ [machine.behind instruction]
    | .ret => pending.dropLast
    | _ => pending

/-- The return addresses of the calls that machines have executed and not returned from. -/
def pending (machines : List Machine) : List Word := machines.foldl pend []

section

variable (earlier : List Machine) (machine : Machine) (operation : Operation)
  (next : machine.operation? = some operation)

include next

theorem calls_append :
    calls (earlier ++ [machine]) = calls earlier + operation.isCall.toNat := by
  cases call : operation.isCall <;> simp [calls, next, call]

theorem returns_append :
    returns (earlier ++ [machine]) = returns earlier + operation.isReturn.toNat := by
  cases ret : operation.isReturn <;> simp [returns, next, ret]

end

/-- The next instruction leaves the stack to calls and returns, and returns only from a call. -/
structure Orderly (earlier : List Machine) (machine : Machine) : Prop where
  pointer : ∀ operation, machine.operation? = some operation →
    operation.destination? = some .sp → operation.isCall ∨ operation.isReturn
  stores : ∀ width target source, machine.operation? = some (.store width target source) →
    ∀ store ∈ machine.stores, store.1 < 0xF0000000
  returns : machine.operation? = some .ret → returns earlier < calls earlier

/-- What a program becomes by orderly instructions, with the machines that executed them. Keys may be
typed at any time. -/
inductive Executes (program : Program) : List Machine → Machine → Prop where
  | start : Executes program [] (start program)
  | step (earlier : List Machine) (machine after : Machine)
    (before : Executes program earlier machine) (orderly : Orderly earlier machine)
    (stepped : machine.step = (.ok .continuing, after)) :
    Executes program (earlier ++ [machine]) after
  | pushKey (earlier : List Machine) (machine : Machine) (key : UInt8)
    (before : Executes program earlier machine) :
    Executes program earlier (machine.pushKey key).2

/-- The stack holds what is pending. -/
structure Stacked (earlier : List Machine) (machine : Machine) : Prop where
  balanced : returns earlier + (pending earlier).length = calls earlier
  room : (pending earlier).length ≤ 0x4000000
  pointer : (machine.registers.get .sp).toNat =
    (0xF0000000 + 4 * (pending earlier).length) % 0x100000000
  held : ∀ i address, (pending earlier)[i]? = some address →
    machine.memory.peekWord? (0xF0000000 + 4 * i) = some address

theorem stacked_start (program : Program) : Stacked [] (start program) where
  balanced := rfl
  room := Nat.zero_le _
  pointer := rfl
  held := by simp [pending]

theorem stacked_pushKey (earlier : List Machine) (machine : Machine) (key : UInt8)
    (stacked : Stacked earlier machine) : Stacked earlier (machine.pushKey key).2 where
  balanced := stacked.balanced
  room := stacked.room
  pointer := stacked.pointer
  held := stacked.held

theorem stores_below {earlier : List Machine} {machine : Machine}
    (orderly : Orderly earlier machine) (instruction : Instruction)
    (found : machine.instruction? = some instruction)
    (stays : instruction.operation.isCall = false) (store : Nat × UInt8)
    (member : store ∈ machine.storesOf (machine.behind instruction) instruction.operation) :
    store.1 < 0xF0000000 := by
  rcases instruction with ⟨operation, line⟩
  cases operation with
  | store width target source =>
      apply orderly.stores width target source
      · exact operation?_of_found machine _ _ found rfl
      · rw [stores, found]
        exact member
  | call target => cases stays
  | copy target source | load width target source | flexible op target left right
  | registers op target left right | negate register | flow target | jump target
  | jumpIfZero register target | ret => cases member

section

variable {earlier : List Machine} {machine : Machine} (stacked : Stacked earlier machine)

include stacked

theorem perform_call_free (next : Word) (target : Addressing) (place : Word)
    (named : machine.effectiveAddress target = .ok place)
    (free : (pending earlier).length < 0x4000000) :
    ∃ effect memory, machine.perform next (.call target) = (.ok effect, memory) ∧
      effect.target = some place := by
  have pointer := stacked.pointer
  have length : next.bytes.length = 4 := rfl
  obtain ⟨after, written⟩ := Memory.writeBytes_of_fits machine.memory
    (machine.registers.get .sp).toNat next.bytes
    (by unfold Location.memoryStart; omega) (by unfold Location.memoryEnd; omega)
  simp only [perform, named, Memory.writeWord, written]
  exact ⟨_, _, rfl, rfl⟩

theorem perform_call_full (next : Word) (target : Addressing) (place : Word)
    (named : machine.effectiveAddress target = .ok place)
    (full : (pending earlier).length = 0x4000000) :
    machine.perform next (.call target) = (.error (.illegalAddress 0), machine.memory) := by
  -- Where the stack is full, its pointer has wrapped around to where nothing answers.
  have wrapped : (machine.registers.get .sp).toNat = 0 := by
    have pointer := stacked.pointer
    omega
  simp only [perform, named, wrapped]
  -- The first of the four bytes is refused, so none of them is written.
  rfl

theorem room_of_call (next : Word) (memory : Memory) (target : Addressing) (effect : Effect)
    (performed : machine.perform next (.call target) = (.ok effect, memory)) :
    (pending earlier).length < 0x4000000 := by
  apply Nat.lt_of_le_of_ne stacked.room
  intro full
  cases named : machine.effectiveAddress target with
  | error fault => simp [perform, named] at performed
  | ok place =>
      rw [perform_call_full stacked next target place named full] at performed
      cases performed

theorem pointer_ret (called : 0 < (pending earlier).length) :
    (machine.registers.get .sp - 4).toNat =
      0xF0000000 + 4 * ((pending earlier).length - 1) := by
  have room := stacked.room
  have pointer := stacked.pointer
  have below : (machine.registers.get .sp - 4).toNat =
      (0x100000000 - 4 + (machine.registers.get .sp).toNat) % 0x100000000 := UInt32.toNat_sub _ _
  omega

theorem perform_ret (next address : Word) (innermost : (pending earlier).getLast? = some address) :
    let sp := machine.registers.get .sp - 4
    machine.perform next .ret =
      (.ok { result := some (.sp, sp), target := some address }, machine.memory) := by
  intro sp
  have called : 0 < (pending earlier).length := by
    apply List.length_pos_iff.mpr
    intro none
    rw [none] at innermost
    cases innermost
  have top : machine.memory.peekWord? sp.toNat = some address := by
    rw [pointer_ret stacked called]
    apply stacked.held
    rw [← innermost, List.getLast?_eq_getElem?]
  simp only [perform]
  rw [Memory.readWord_of_peekWord? _ _ _ top]

theorem step_call (instruction : Instruction) (found : machine.instruction? = some instruction)
    (target : Addressing) (call : instruction.operation = .call target) (place : Word)
    (named : machine.effectiveAddress target = .ok place)
    (free : (pending earlier).length < 0x4000000) :
    ∃ after, machine.step = (.ok .continuing, after) ∧ after.registers.pc = place := by
  obtain ⟨effect, memory, performed, moved⟩ :=
    perform_call_free stacked (machine.behind instruction) target place named free
  rw [← call] at performed
  refine ⟨_, step_of_effect machine instruction memory found effect performed, ?_⟩
  rw [pc_commit, moved, Option.getD_some]

theorem held_of_agree (after : Memory)
    (agree : ∀ place, 0xF0000000 ≤ place → place < 0xF0000000 + 4 * (pending earlier).length →
      after.peek? place = machine.memory.peek? place)
    (i : Nat) (address : Word) (listed : (pending earlier)[i]? = some address) :
    after.peekWord? (0xF0000000 + 4 * i) = some address := by
  have inside : i < (pending earlier).length := (List.getElem?_eq_some_iff.mp listed).1
  rw [Memory.peekWord?_congr machine.memory after]
  · exact stacked.held i address listed
  · intro place above below
    apply agree place <;> omega

theorem held_of_written (after : Memory) (next : Word)
    (written : machine.memory.writeWord (0xF0000000 + 4 * (pending earlier).length) next =
      (.ok (), after))
    (i : Nat) (address : Word) (listed : (pending earlier ++ [next])[i]? = some address) :
    after.peekWord? (0xF0000000 + 4 * i) = some address := by
  by_cases older : i < (pending earlier).length
  · rw [List.getElem?_append_left older] at listed
    apply held_of_agree stacked after _ i address listed
    intro place _ below
    have kept := Memory.peek?_writeBytes_of_lt machine.memory _ place next.bytes below
    rw [Memory.writeWord] at written
    rwa [written] at kept
  · have inside := (List.getElem?_eq_some_iff.mp listed).1
    rw [List.length_append, List.length_singleton] at inside
    have last : i = (pending earlier).length := by omega
    rw [last, List.getElem?_concat_length] at listed
    rw [last, ← Option.some.inj listed]
    apply Memory.peekWord?_writeWord machine.memory after _ _ _ written
    unfold Location.memoryStart
    omega

variable (instruction : Instruction) (effect : Effect) (memory : Memory)
  (found : machine.instruction? = some instruction)
  (performed : machine.perform (machine.behind instruction) instruction.operation =
    (.ok effect, memory))

include found performed

theorem stacked_call (target : Addressing) (call : instruction.operation = .call target) :
    Stacked (earlier ++ [machine])
      (machine.commit effect (machine.behind instruction) memory) := by
  have next := operation?_of_found machine instruction _ found call
  rw [call] at performed
  have free := room_of_call stacked _ memory target effect performed
  obtain ⟨written, moved⟩ := perform_call machine _ memory target effect performed
  have pended : pending (earlier ++ [machine]) =
      pending earlier ++ [machine.behind instruction] := by
    simp [pending, pend, found, call]
  -- There is room, so the pointer has not wrapped around yet. Behind this call it may have.
  have place : (machine.registers.get .sp).toNat =
      0xF0000000 + 4 * (pending earlier).length := by
    have pointer := stacked.pointer
    omega
  rw [place] at written
  constructor
  · rw [calls_append earlier machine _ next, returns_append earlier machine _ next, pended,
      List.length_append, List.length_singleton, ← stacked.balanced]
    rfl
  · rw [pended, List.length_append, List.length_singleton]
    exact free
  · rw [pended, get_commit machine _ memory effect .sp _ moved, UInt32.toNat_add, place,
      List.length_append, List.length_singleton]
    rfl
  · rw [pended]
    exact held_of_written stacked memory _ written

theorem stacked_ret (ret : instruction.operation = .ret)
    (called : returns earlier < calls earlier) :
    Stacked (earlier ++ [machine])
      (machine.commit effect (machine.behind instruction) memory) := by
  have next := operation?_of_found machine instruction _ found ret
  have balanced := stacked.balanced
  have pended : pending (earlier ++ [machine]) = (pending earlier).dropLast := by
    simp [pending, pend, found, ret]
  have some : pending earlier ≠ [] := by
    intro none
    rw [none, List.length_nil] at balanced
    omega
  have positive := List.length_pos_iff.mpr some
  rw [ret, perform_ret stacked _ _ (List.getLast?_eq_some_getLast some)] at performed
  obtain ⟨rfl, rfl⟩ : _ = effect ∧ machine.memory = memory := by
    simpa using performed
  constructor
  · rw [calls_append earlier machine _ next, returns_append earlier machine _ next, pended,
      List.length_dropLast]
    simp only [Operation.isCall, Operation.isReturn, Bool.toNat_true, Bool.toNat_false]
    omega
  · have room := stacked.room
    rw [pended, List.length_dropLast]
    omega
  · have room := stacked.room
    rw [pended, get_commit machine _ machine.memory _ .sp _ rfl, List.length_dropLast,
      pointer_ret stacked positive]
    omega
  · intro i address listed
    rw [pended, List.getElem?_dropLast] at listed
    split at listed
    · exact stacked.held i address listed
    · cases listed

theorem stacked_other (orderly : Orderly earlier machine)
    (stays : instruction.operation.isCall = false) (goes : instruction.operation.isReturn = false) :
    Stacked (earlier ++ [machine])
      (machine.commit effect (machine.behind instruction) memory) := by
  have next := operation?_of_found machine instruction _ found rfl
  have pended : pending (earlier ++ [machine]) = pending earlier := by
    simp only [pending, List.foldl_append, List.foldl_cons, List.foldl_nil, pend, found]
    split
    · next call => rw [call] at stays; cases stays
    · next ret => rw [ret] at goes; cases goes
    · rfl
  constructor
  · rw [calls_append earlier machine _ next, returns_append earlier machine _ next, stays, goes,
      pended]
    exact stacked.balanced
  · rw [pended]
    exact stacked.room
  · rw [pended, get_commit_of_ne]
    · exact stacked.pointer
    · rw [destination_perform machine _ memory _ effect performed]
      intro moved
      have := orderly.pointer _ next moved
      simp [stays, goes] at this
  · rw [pended]
    apply held_of_agree stacked
    -- What a store touches lies below the stack, and nothing else touches memory at all.
    intro place above _
    have kept := peek?_perform machine (machine.behind instruction) instruction.operation place
    rw [performed] at kept
    apply kept
    intro store member
    have below := stores_below orderly instruction found stays store member
    omega

end

theorem orderly_call (earlier : List Machine) (machine : Machine) (instruction : Instruction)
    (found : machine.instruction? = some instruction) (target : Addressing)
    (call : instruction.operation = .call target) : Orderly earlier machine := by
  have next := operation?_of_found machine instruction _ found call
  constructor
  · intro operation named _
    rw [next] at named
    cases named
    exact Or.inl rfl
  · intro width target source named
    rw [next] at named
    cases named
  · intro named
    rw [next] at named
    cases named

theorem stacked_step (earlier : List Machine) (machine after : Machine)
    (stacked : Stacked earlier machine) (orderly : Orderly earlier machine)
    (stepped : machine.step = (.ok .continuing, after)) :
    Stacked (earlier ++ [machine]) after := by
  obtain ⟨instruction, effect, memory, found, performed, rfl⟩ :=
    step_continuing machine after stepped
  by_cases call : instruction.operation.isCall
  · obtain ⟨target, called⟩ := Operation.eq_call _ call
    exact stacked_call stacked instruction effect memory found performed target called
  · by_cases ret : instruction.operation.isReturn
    · have returned := Operation.eq_ret _ ret
      have called := orderly.returns (operation?_of_found machine instruction _ found returned)
      exact stacked_ret stacked instruction effect memory found performed returned called
    · exact stacked_other stacked instruction effect memory found performed orderly
        (Bool.eq_false_iff.mpr call) (Bool.eq_false_iff.mpr ret)

theorem stacked_executes {program : Program} {earlier : List Machine} {machine : Machine}
    (executes : Executes program earlier machine) : Stacked earlier machine := by
  induction executes with
  | start => exact stacked_start program
  | step earlier machine after _ orderly stepped ih =>
      exact stacked_step earlier machine after ih orderly stepped
  | pushKey earlier machine key _ ih => exact stacked_pushKey earlier machine key ih

/-- A program that leaves the stack to calls and returns finds it in order: it holds the addresses
behind the pending calls, the stack pointer is behind them, and a return goes on at the innermost.
There is room for `0x4000000` of them, which is `2 ^ 26`. A call beyond that fails at the address 0,
and one whose target still waits for its label fails for that reason at any depth. Both leave the
machine as it is. -/
theorem stack_discipline (program : Program) (earlier : List Machine) (machine : Machine)
    (executes : Executes program earlier machine) :
    let depth := calls earlier - returns earlier
    returns earlier ≤ calls earlier ∧ depth ≤ 0x4000000 ∧
      (machine.registers.get .sp).toNat = (0xF0000000 + 4 * depth) % 0x100000000 ∧
      (pending earlier).length = depth ∧
      (∀ i < depth, machine.memory.peekWord? (0xF0000000 + 4 * i) = (pending earlier)[i]?) ∧
      (machine.operation? = some .ret → 0 < depth →
        ∃ after, machine.step = (.ok .continuing, after) ∧
          (pending earlier).getLast? = some after.registers.pc) ∧
      ∀ target, machine.operation? = some (.call target) →
        (∀ place, machine.effectiveAddress target = .ok place →
          (depth < 0x4000000 → ∃ after, machine.step = (.ok .continuing, after) ∧
            after.registers.pc = place) ∧
          (depth = 0x4000000 → machine.step = (.error (.illegalAddress 0), machine))) ∧
        ∀ fault, machine.effectiveAddress target = .error fault →
          machine.step = (.error fault, machine) := by
  intro depth
  have stacked := stacked_executes executes
  have balanced := stacked.balanced
  have length : (pending earlier).length = depth := by omega
  refine ⟨by omega, length ▸ stacked.room, length ▸ stacked.pointer, length, ?_, ?_, ?_⟩
  · intro i inside
    rw [← length] at inside
    rw [List.getElem?_eq_getElem inside]
    exact stacked.held i _ (List.getElem?_eq_getElem inside)
  · intro ret called
    obtain ⟨instruction, found, operation⟩ := Option.map_eq_some_iff.mp ret
    have some : pending earlier ≠ [] := by
      apply List.ne_nil_of_length_pos
      omega
    have innermost := List.getLast?_eq_some_getLast some
    have performed := perform_ret stacked (machine.behind instruction) _ innermost
    rw [← operation] at performed
    exact ⟨_, step_of_effect machine instruction _ found _ performed, innermost⟩
  · intro target call
    obtain ⟨instruction, found, operation⟩ := Option.map_eq_some_iff.mp call
    refine ⟨fun place named => ⟨fun free => ?_, fun full => ?_⟩, fun fault unnamed => ?_⟩
    · exact step_call stacked instruction found target operation place named (length ▸ free)
    · have performed := perform_call_full stacked (machine.behind instruction) target place named
        (length.trans full)
      rw [← operation] at performed
      exact step_of_fault machine instruction _ found _ performed
    · apply step_of_fault machine instruction machine.memory found fault
      simp only [operation, perform, unnamed]

def callsReturn : Program :=
  Program.ofList [(0, ⟨.call { offset := some (.value 8) }, 0⟩), (8, ⟨.ret, 1⟩)] {}

def callsItself : Program := Program.ofList [(0, ⟨.call { offset := some (.value 0) }, 0⟩)] {}

theorem executes_callsReturn : ∃ after, Executes callsReturn [start callsReturn] after ∧
    after.operation? = some .ret := by
  have found : (start callsReturn).instruction? =
      some ⟨.call { offset := some (.value 8) }, 0⟩ := by decide +kernel
  have orderly := orderly_call [] (start callsReturn) _ found { offset := some (.value 8) } rfl
  exact ⟨_, Executes.step [] _ _ Executes.start orderly (step_of_effect _ _ _ found _ rfl),
    by decide +kernel⟩

theorem callsItself_next (machine : Machine) (loaded : machine.program = callsItself)
    (here : machine.registers.pc = 0) :
    machine.instruction? = some ⟨.call { offset := some (.value 0) }, 0⟩ := by
  rw [instruction?, loaded, here]
  decide +kernel

theorem executes_callsItself (count : Nat) (room : count ≤ 0x4000000) :
    ∃ earlier machine, Executes callsItself earlier machine ∧
      calls earlier - returns earlier = count ∧
      machine.program = callsItself ∧ machine.registers.pc = 0 := by
  induction count with
  | zero => exact ⟨[], start callsItself, Executes.start, rfl, rfl, rfl⟩
  | succ count ih =>
      obtain ⟨earlier, machine, executes, depth, loaded, here⟩ := ih (Nat.le_of_succ_le room)
      have found := callsItself_next machine loaded here
      have orderly := orderly_call earlier machine _ found _ rfl
      have stacked := stacked_executes executes
      have balanced := stacked.balanced
      obtain ⟨after, stepped, there⟩ :=
        step_call stacked _ found _ rfl 0 rfl (by omega)
      have next := operation?_of_found machine _ _ found rfl
      refine ⟨_, after, Executes.step _ _ _ executes orderly stepped, ?_, ?_, there⟩
      · rw [calls_append earlier machine _ next, returns_append earlier machine _ next]
        simp only [Operation.isCall, Operation.isReturn, Bool.toNat_true, Bool.toNat_false]
        omega
      · rw [← loaded, ← program_step machine, stepped]

theorem calls_stacked :
    (∃ machine, Executes callsReturn [start callsReturn] machine ∧
      (machine.registers.get .sp).toNat = 0xF0000004 ∧
      machine.memory.peekWord? 0xF0000000 = some 7 ∧
      ∃ after, machine.step = (.ok .continuing, after) ∧ some 7 = some after.registers.pc) ∧
    ∃ earlier machine, Executes callsItself earlier machine ∧
      calls earlier - returns earlier = 0x4000000 ∧ machine.registers.get .sp = 0 ∧
      machine.step = (.error (.illegalAddress 0), machine) := by
  constructor
  · have depth : calls [start callsReturn] - returns [start callsReturn] = 1 := by decide +kernel
    have addresses : pending [start callsReturn] = [7] := by decide +kernel
    obtain ⟨machine, executes, ret⟩ := executes_callsReturn
    obtain ⟨_, _, pointer, _, held, returned, _⟩ :=
      stack_discipline callsReturn [start callsReturn] machine executes
    rw [depth] at pointer held returned
    rw [addresses] at held returned
    exact ⟨machine, executes, pointer, held 0 Nat.one_pos, returned ret Nat.one_pos⟩
  · obtain ⟨earlier, machine, executes, full, loaded, here⟩ :=
      executes_callsItself 0x4000000 (Nat.le_refl _)
    have next := operation?_of_found machine _ _ (callsItself_next machine loaded here) rfl
    obtain ⟨_, _, pointer, _, _, _, call⟩ := stack_discipline callsItself earlier machine executes
    rw [full] at pointer
    exact ⟨earlier, machine, executes, full, UInt32.toNat_inj.mp pointer,
      ((call _ next).1 0 rfl).2 full⟩

end Machine

end ToyComputer
