import ToyComputer.Proofs.Events

/-!
Arrival: when a key arrives makes no difference to a step that does not read the keyboard, nor to
any step while the keyboard is neither empty nor full. Such steps can be moved past the key one by
one.
-/

namespace ToyComputer

/-- Reads of these addresses cannot tell whether one more key is pending: they leave the keyboard
alone, or it has a key for them anyway and room for another. -/
def Keyboard.Unnoticed (keyboard : Keyboard) (addresses : List Nat) : Prop :=
  (keyboardStatus ∉ addresses ∧ keyboardData ∉ addresses) ∨
    (0 < keyboard.size ∧ keyboard.size < keyboardCapacity)

theorem Keyboard.Unnoticed.of_subset {keyboard : Keyboard} {addresses : List Nat}
    (unnoticed : keyboard.Unnoticed addresses) (fewer : List Nat) (subset : fewer ⊆ addresses) :
    keyboard.Unnoticed fewer := by
  rcases unnoticed with ⟨status, data⟩ | between
  · exact Or.inl ⟨fun member => status (subset member), fun member => data (subset member)⟩
  · exact Or.inr between

theorem at?_eq_keyboardStatus (address : Nat) :
    Location.at? address = some .keyboardStatus ↔ address = keyboardStatus := by
  unfold Location.at? keyboardStatus Location.memoryStart Location.memoryEnd
  split
  · constructor
    · intro found; cases found
    · intro same; omega
  · split <;> simp_all

namespace Memory

def Commutes {α : Type} (memory : Memory) (key : UInt8) (action : Memory → α × Memory) : Prop :=
  action (memory.pushKey key).2 = ((action memory).1, ((action memory).2.pushKey key).2) ∧
    ((action memory).2.pushKey key).1 = (memory.pushKey key).1

section

variable (memory : Memory) (key : UInt8)

theorem commutes_read (address : Nat)
    (unnoticed : memory.keyboard.Unnoticed (answering address 1)) :
    memory.Commutes key fun memory => memory.read address := by
  cases found : Location.at? address with
  | none => simp only [Commutes, read, found, and_self]
  | some location =>
      have one : answering address 1 = [address] := by simp only [answering, found]
      rw [one] at unnoticed
      cases location with
      | cell | displayStatus | displayData => simp [Commutes, read, found, pushKey, cell]
      | keyboardStatus =>
          obtain rfl := (at?_eq_keyboardStatus address).mp found
          rcases unnoticed with ⟨unread, _⟩ | ⟨pending, room⟩
          · exact absurd (List.mem_singleton_self _) unread
          · obtain ⟨after, pushed, size, _⟩ := memory.keyboard.push_room key room
            have before : memory.keyboard.isEmpty = false := by
              simp [Keyboard.isEmpty, Nat.ne_of_gt pending]
            have behind : after.isEmpty = false := by simp [Keyboard.isEmpty, size]
            simp [Commutes, read, found, pushKey, pushed, before, behind]
      | keyboardData =>
          obtain rfl := (at?_eq_keyboardData address).mp found
          rcases unnoticed with ⟨_, unread⟩ | ⟨pending, room⟩
          · exact absurd (List.mem_singleton_self _) unread
          · obtain ⟨popped, accepted⟩ := memory.keyboard.push_pop key pending room
            simp [Commutes, read, found, pushKey, popped, accepted]

theorem commutes_write (address : Nat) (byte : UInt8) :
    memory.Commutes key fun memory => memory.write address byte := by
  unfold Commutes write
  split <;> exact ⟨rfl, rfl⟩

theorem unnoticed_rest (address count : Nat) (word : Word) (after : Memory)
    (done : memory.read address = (.ok word, after))
    (unnoticed : memory.keyboard.Unnoticed (address :: answering (address + 1) count)) :
    after.keyboard.Unnoticed (answering (address + 1) count) := by
  -- A series of reads goes past the data address once, so a single pending key is enough for it.
  rcases unnoticed with ⟨status, data⟩ | between
  · exact Or.inl ⟨fun later => status (List.mem_cons_of_mem _ later),
      fun later => data (List.mem_cons_of_mem _ later)⟩
  · by_cases here : address = keyboardData
    · left
      constructor
      all_goals
        intro later
        have above := le_of_mem_answering _ _ _ later
        simp only [here, keyboardStatus, keyboardData] at above
        omega
    · right
      have kept := memory.keyboard_read address
      have none : (answering address 1).count keyboardData = 0 := by
        rw [List.count_eq_zero, answering]
        split
        · exact List.not_mem_nil
        · simpa [answering] using Ne.symm here
      rw [none, done] at kept
      rw [kept]
      exact between

theorem commutes_readBytes (address count : Nat)
    (unnoticed : memory.keyboard.Unnoticed (answering address count)) :
    memory.Commutes key fun memory => memory.readBytes address count := by
  induction count generalizing memory address with
  | zero => exact ⟨rfl, rfl⟩
  | succ count ih =>
      cases found : Location.at? address with
      | none => simp [Commutes, readBytes, read, found]
      | some location =>
          rw [answering, found] at unnoticed
          have first := unnoticed.of_subset (answering address 1) (by simp [answering, found])
          obtain ⟨moved, accepted⟩ := memory.commutes_read key address first
          rcases done : memory.read address with ⟨fault | word, after⟩
          · simp only [done] at moved accepted
            simp only [Commutes, readBytes, moved, done, accepted, and_self]
          · have rest := memory.unnoticed_rest address count word after done unnoticed
            obtain ⟨more, last⟩ := ih after (address + 1) rest
            simp only [done] at moved accepted
            rcases others : after.readBytes (address + 1) count with ⟨fault | bytes, behind⟩
            all_goals
              simp only [others] at more last
              simp only [Commutes, readBytes, moved, done, more, others, last, accepted, and_self]

theorem commutes_writeBytes (address : Nat) (bytes : List UInt8) :
    memory.Commutes key fun memory => memory.writeBytes address bytes := by
  induction bytes generalizing memory address with
  | nil => exact ⟨rfl, rfl⟩
  | cons byte bytes ih =>
      obtain ⟨moved, accepted⟩ := memory.commutes_write key address byte
      rcases written : memory.write address byte with ⟨fault | done, after⟩
      · simp only [written] at moved accepted
        simp only [Commutes, writeBytes, moved, written, accepted, and_self]
      · simp only [written] at moved accepted
        obtain ⟨more, last⟩ := ih after (address + 1)
        simp only [Commutes, writeBytes, moved, written, more, last, accepted, and_self]

theorem Commutes.answer {α β : Type} {action : Memory → α × Memory} {memory : Memory} {key : UInt8}
    (commutes : memory.Commutes key action) (change : α → β) :
    memory.Commutes key fun memory => (change (action memory).1, (action memory).2) := by
  obtain ⟨moved, accepted⟩ := commutes
  simp only [Commutes, moved, accepted, and_self]

theorem readWord_eq_map (address : Nat) :
    memory.readWord address =
      ((memory.readBytes address 4).1.map Word.ofBytes, (memory.readBytes address 4).2) := by
  unfold readWord
  split <;> simp only [*] <;> rfl

theorem commutes_load (width : Width) (address : Word)
    (unnoticed : memory.keyboard.Unnoticed (answering address.toNat width.bytes)) :
    memory.Commutes key fun memory => memory.load width address := by
  cases width with
  | byte => exact memory.commutes_read key address.toNat unnoticed
  | word =>
      have bytes := memory.commutes_readBytes key address.toNat 4 unnoticed
      simpa only [load, readWord_eq_map] using bytes.answer (Except.map Word.ofBytes)

theorem commutes_store (width : Width) (address value : Word) :
    memory.Commutes key fun memory => memory.store width address value := by
  simp only [store_eq]
  exact memory.commutes_writeBytes key address.toNat _

end

end Memory

namespace Machine

/-- The next step does not notice whether one more key is pending. -/
def Unnoticed (machine : Machine) : Prop := machine.memory.keyboard.Unnoticed machine.loads

theorem effectiveAddress_memory (machine : Machine) (memory : Memory) (address : Addressing) :
    { machine with memory }.effectiveAddress address = machine.effectiveAddress address := rfl

theorem commutes_perform (machine : Machine) (key : UInt8) (next : Word) (operation : Operation)
    (unnoticed : machine.memory.keyboard.Unnoticed (machine.loadsOf operation)) :
    machine.memory.Commutes key fun memory => { machine with memory }.perform next operation := by
  cases operation with
  | copy target source | flexible op target left right | registers op target left right
  | negate register | flow target | jump target => exact ⟨rfl, rfl⟩
  | jumpIfZero register target =>
      simp only [Memory.Commutes, perform]
      split <;> exact ⟨rfl, rfl⟩
  | store width target source =>
      rcases evaluated : machine.effectiveAddress target with fault | address
      · simp only [Memory.Commutes, perform, effectiveAddress_memory, evaluated, and_self]
      · obtain ⟨moved, accepted⟩ := machine.memory.commutes_store key width address
          (machine.registers.get source)
        rcases stored : machine.memory.store width address (machine.registers.get source)
          with ⟨fault | done, memory⟩
        all_goals
          simp only [stored] at moved accepted
          simp only [Memory.Commutes, perform, effectiveAddress_memory, evaluated, moved, stored,
            accepted, and_self]
  | load width target source =>
      rcases evaluated : machine.effectiveAddress source with fault | address
      · simp only [Memory.Commutes, perform, effectiveAddress_memory, evaluated, and_self]
      · simp only [loadsOf, evaluated] at unnoticed
        obtain ⟨moved, accepted⟩ := machine.memory.commutes_load key width address unnoticed
        rcases loaded : machine.memory.load width address with ⟨fault | word, memory⟩
        all_goals
          simp only [loaded] at moved accepted
          simp only [Memory.Commutes, perform, effectiveAddress_memory, evaluated, moved, loaded,
            accepted, and_self]
  | call target =>
      rcases evaluated : machine.effectiveAddress target with fault | address
      · simp only [Memory.Commutes, perform, effectiveAddress_memory, evaluated, and_self]
      · obtain ⟨moved, accepted⟩ := machine.memory.commutes_writeBytes key
          (machine.registers.get .sp).toNat next.bytes
        rcases stored : machine.memory.writeBytes (machine.registers.get .sp).toNat next.bytes
          with ⟨fault | done, memory⟩
        all_goals
          simp only [stored] at moved accepted
          simp only [Memory.Commutes, perform, effectiveAddress_memory, evaluated, Memory.writeWord,
            moved, stored, accepted, and_self]
  | ret =>
      obtain ⟨moved, accepted⟩ := machine.memory.commutes_load key .word
        (machine.registers.get .sp - 4) unnoticed
      rcases loaded : machine.memory.load .word (machine.registers.get .sp - 4)
        with ⟨fault | word, memory⟩
      all_goals
        simp only [loaded] at moved accepted
        simp only [Memory.load] at moved loaded
        simp only [Memory.Commutes, perform, moved, loaded, accepted, and_self]

/-- A key that arrives before an unnoticing step can as well arrive behind it. -/
theorem step_pushKey (machine : Machine) (key : UInt8) (unnoticed : machine.Unnoticed) :
    (machine.pushKey key).2.step = (machine.step.1, (machine.step.2.pushKey key).2) ∧
      (machine.step.2.pushKey key).1 = (machine.pushKey key).1 := by
  cases found : machine.instruction? with
  | none =>
      have still : (machine.pushKey key).2.instruction? = none := found
      simp only [step, found, still, and_self]
  | some instruction =>
      have still : (machine.pushKey key).2.instruction? = some instruction := found
      rw [Unnoticed, loads, found] at unnoticed
      obtain ⟨moved, accepted⟩ := machine.commutes_perform key (machine.behind instruction)
        instruction.operation unnoticed
      change (machine.pushKey key).2.perform ((machine.pushKey key).2.behind instruction) _ = _
        at moved
      rcases performed : machine.perform (machine.behind instruction) instruction.operation
        with ⟨fault | effect, memory⟩
      · simp only [performed] at moved accepted
        rw [step_of_fault _ _ _ still _ moved, step_of_fault _ _ _ found _ performed]
        exact ⟨rfl, accepted⟩
      · simp only [performed] at moved accepted
        rw [step_of_effect _ _ _ still _ moved, step_of_effect _ _ _ found _ performed]
        exact ⟨rfl, accepted⟩

def stepMany (machine : Machine) (count : Nat) : Machine :=
  (callAll react machine (List.replicate count .step)).2

theorem steps_pushKey (machine : Machine) (key : UInt8) (count : Nat)
    (unnoticed : ∀ index < count, (machine.stepMany index).Unnoticed) :
    callAll react (machine.pushKey key).2 (List.replicate count .step) =
        ((callAll react machine (List.replicate count .step)).1,
          ((machine.stepMany count).pushKey key).2) ∧
      ((machine.stepMany count).pushKey key).1 = (machine.pushKey key).1 := by
  induction count generalizing machine with
  | zero => exact ⟨rfl, rfl⟩
  | succ count ih =>
      obtain ⟨moved, accepted⟩ := machine.step_pushKey key (unnoticed 0 (Nat.succ_pos count))
      obtain ⟨rest, last⟩ := ih machine.step.2 fun index below =>
        unnoticed (index + 1) (Nat.succ_lt_succ below)
      refine ⟨?_, last.trans accepted⟩
      simp only [List.replicate_succ, callAll, react, moved, rest]
      rfl

theorem accepted_steps (machine : Machine) (count : Nat) :
    (callAll react machine (List.replicate count .step)).1.filterMap Reaction.accepted? = [] := by
  induction count generalizing machine with
  | zero => rfl
  | succ count ih =>
      simp only [List.replicate_succ, callAll, react]
      rw [List.filterMap_cons_none rfl, ih]

end Machine

/-- When a key arrives makes no difference to a step that does not notice it: the step ends as it
would, the key is accepted or not as it would be, and the same machine is left. So in any run the
arrival of a key can be moved across such steps. -/
theorem key_arrival_commutes (machine : Machine) (key : UInt8) :
    (machine.Unnoticed →
      (machine.pushKey key).2.step = (machine.step.1, (machine.step.2.pushKey key).2) ∧
        (machine.step.2.pushKey key).1 = (machine.pushKey key).1) ∧
    ∀ (earlier later : List Event) (count : Nat),
      (∀ index < count,
        ((callAll Machine.react machine earlier).2.stepMany index).Unnoticed) →
      let before := callAll Machine.react machine
        (earlier ++ [.key key] ++ List.replicate count .step ++ later)
      let behind := callAll Machine.react machine
        (earlier ++ List.replicate count .step ++ [.key key] ++ later)
      before.2 = behind.2 ∧
        before.1.filterMap Reaction.outcome? = behind.1.filterMap Reaction.outcome? ∧
        before.1.filterMap Reaction.accepted? = behind.1.filterMap Reaction.accepted? := by
  refine ⟨machine.step_pushKey key, ?_⟩
  intro earlier later count unnoticed before behind
  obtain ⟨moved, accepted⟩ := (callAll Machine.react machine earlier).2.steps_pushKey key count
    unnoticed
  have silent := (callAll Machine.react machine earlier).2.accepted_steps count
  have keyed (taken : Bool) : [Reaction.key taken].filterMap Reaction.outcome? = [] := rfl
  simp only [before, behind, callAll_append, callAll, Machine.react, moved, List.filterMap_append,
    keyed, silent, List.append_nil]
  refine ⟨rfl, rfl, ?_⟩
  rw [← accepted]
  rfl

def readsKey : Machine :=
  Machine.start (Program.ofList
    [(0, ⟨.load .byte .r1 { offset := some (.value 0x20000001) }, 0⟩)] {})

theorem readsKey_commutes :
    (readsKey.pushKey 3).2.Unnoticed ∧
      ((readsKey.pushKey 3).2.pushKey 7).2.step =
        ((readsKey.pushKey 3).2.step.1, ((readsKey.pushKey 3).2.step.2.pushKey 7).2) ∧
      (callAll Machine.react readsKey [.key 3, .key 7, .step]).2 =
        (callAll Machine.react readsKey [.key 3, .step, .key 7]).2 ∧
      (callAll Machine.react readsKey [.key 3, .step, .key 7]).2.registers.get .r1 = 3 := by
  have unnoticed : (readsKey.pushKey 3).2.Unnoticed := Or.inr ⟨by decide +kernel, by decide +kernel⟩
  have run := (key_arrival_commutes readsKey 7).2 [.key 3] [] 1 fun index below => by
    obtain rfl := Nat.lt_one_iff.mp below
    exact unnoticed
  exact ⟨unnoticed, ((key_arrival_commutes (readsKey.pushKey 3).2 7).1 unnoticed).1, run.1,
    by decide +kernel⟩

end ToyComputer
