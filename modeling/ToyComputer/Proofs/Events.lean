import ToyComputer.Proofs.Loads

/-!
Events: keys that arrive at a machine and steps that it takes, in any order. To the keyboard a step
is a number of keys that are taken, so it stays the queue that it is when keys are typed and taken
by hand.
-/

namespace ToyComputer

def keyboardStatus : Nat := 0x20000000

/-- What happens to a machine. -/
inductive Event where
  | key (key : UInt8)
  | step
  deriving DecidableEq, Repr

inductive Reaction where
  | key (accepted : Bool)
  | step (outcome : Except Fault Status)

def KeyAnswer.accepted? : KeyAnswer → Option Bool
  | .pushed accepted => some accepted
  | .popped _ => none

def Reaction.accepted? : Reaction → Option Bool
  | .key accepted => some accepted
  | .step _ => none

def Reaction.outcome? : Reaction → Option (Except Fault Status)
  | .key _ => none
  | .step outcome => some outcome

namespace Keyboard

theorem callAll_pops (keyboard : Keyboard) (count : Nat) :
    callAll call keyboard (List.replicate count .pop) =
      ((keyboard.popMany count).1.map .popped, (keyboard.popMany count).2) := by
  induction count generalizing keyboard with
  | zero => rfl
  | succ count ih =>
      simp only [List.replicate_succ, callAll, call, ih, popMany, List.map_cons]

/-- What holds of a queue with room for 256 keys. A call that changes no key changes nothing. -/
structure Queues (keyboard : Keyboard) : Prop where
  inside : (keyboard.head : Nat) < 256 ∧ keyboard.size ≤ 256
  size : keyboard.size = keyboard.keys.length
  isEmpty : keyboard.isEmpty = keyboard.keys.isEmpty
  push : ∀ key,
    (keyboard.size < 256 ∧ ∃ after, keyboard.push key = (true, after) ∧
      after.keys = keyboard.keys ++ [key]) ∨
    (keyboard.size = 256 ∧ keyboard.push key = (false, keyboard))
  pop :
    (keyboard.keys = [] ∧ keyboard.pop = (none, keyboard)) ∨
    (∃ key after, keyboard.pop = (some key, after) ∧ keyboard.keys = key :: after.keys)

theorem queues (keyboard : Keyboard) : keyboard.Queues where
  inside := ⟨keyboard.head.isLt, keyboard.bounded⟩
  size := keyboard.length_keys.symm
  isEmpty := keyboard.isEmpty_eq
  push key := by
    rcases keyboard.push_cases key with refused | ⟨room, after, accepted, _, keys⟩
    · exact Or.inr refused
    · exact Or.inl ⟨room, after, accepted, keys⟩
  pop := keyboard.pop_cases

end Keyboard

theorem Memory.read_keyboardStatus (memory : Memory) :
    memory.read keyboardStatus =
      (.ok (if memory.keyboard.keys.isEmpty then 0 else 0xFFFFFFFF), memory) := by
  rw [← memory.keyboard.isEmpty_eq]
  rfl

theorem Memory.read_keyboardData (memory : Memory) :
    memory.read keyboardData =
      (.ok (memory.keyboard.pop.1.getD 0).toUInt32,
        { memory with keyboard := memory.keyboard.pop.2 }) := rfl

theorem Memory.status_tells_data (memory : Memory) : ∃ status word after,
    memory.read keyboardStatus = (.ok status, memory) ∧
    memory.read keyboardData = (.ok word, after) ∧
    ((status = 0xFFFFFFFF ∧ ∃ key, word = key.toUInt32 ∧
        memory.keyboard.keys = key :: after.keyboard.keys) ∨
      (status = 0 ∧ word = 0 ∧ memory.keyboard.keys = [] ∧ after = memory)) := by
  refine ⟨_, _, _, memory.read_keyboardStatus, memory.read_keyboardData, ?_⟩
  rcases memory.keyboard.pop_cases with ⟨empty, same⟩ | ⟨key, after, popped, keys⟩
  · right
    simp [same, empty]
  · left
    simp [popped, keys]

namespace Machine

def react (machine : Machine) : Event → Reaction × Machine
  | .key key => (.key (machine.pushKey key).1, (machine.pushKey key).2)
  | .step => (.step machine.step.1, machine.step.2)

def keyCalls (machine : Machine) : Event → List KeyCall
  | .key key => [.push key]
  | .step => List.replicate (machine.loads.count keyboardData) .pop

def keyCallsAll (machine : Machine) : List Event → List KeyCall
  | [] => []
  | event :: events => machine.keyCalls event ++ (machine.react event).2.keyCallsAll events

theorem keyboard_react (machine : Machine) (event : Event) :
    let answered := callAll Keyboard.call machine.memory.keyboard (machine.keyCalls event)
    (machine.react event).2.memory.keyboard = answered.2 ∧
      (machine.react event).1.accepted?.toList = answered.1.filterMap KeyAnswer.accepted? := by
  cases event with
  | key key => exact ⟨rfl, rfl⟩
  | step =>
      simp only [keyCalls, Keyboard.callAll_pops]
      refine ⟨machine.keyboard_step, ?_⟩
      simp [react, Reaction.accepted?, KeyAnswer.accepted?, List.filterMap_map, Function.comp_def]

theorem keyboard_reactAll (machine : Machine) (events : List Event) :
    let answered := callAll Keyboard.call machine.memory.keyboard (machine.keyCallsAll events)
    (callAll react machine events).2.memory.keyboard = answered.2 ∧
      (callAll react machine events).1.filterMap Reaction.accepted? =
        answered.1.filterMap KeyAnswer.accepted? := by
  induction events generalizing machine with
  | nil => exact ⟨rfl, rfl⟩
  | cons event events ih =>
      obtain ⟨keyboard, accepted⟩ := machine.keyboard_react event
      obtain ⟨last, others⟩ := ih (machine.react event).2
      simp only [callAll, keyCallsAll, callAll_append, ← keyboard]
      refine ⟨last, ?_⟩
      rw [List.filterMap_append, ← others, ← accepted]
      cases found : (machine.react event).1.accepted? with
      | none => rw [List.filterMap_cons_none found, Option.toList_none, List.nil_append]
      | some taken => rw [List.filterMap_cons_some found, Option.toList_some, List.singleton_append]

end Machine

/-- The keyboard is a queue with room for 256 keys, whether keys are typed and taken by hand or
arrive between the steps of a machine. What was accepted is taken in its order, each key once, and
the rest of it is pending. The status tells whether there is a key to take. -/
theorem keyboard_is_bounded_queue (calls : List KeyCall) (program : Program)
    (events : List Event) :
    let answered := callAll Keyboard.call {} calls
    let machine := Machine.start program
    let reacted := callAll Machine.react machine events
    let asked := callAll Keyboard.call {} (machine.keyCallsAll events)
    (∀ keyboard : Keyboard, keyboard.Queues) ∧
      callAll queueCall [] calls = (answered.1, answered.2.keys) ∧
      acceptedKeys calls answered.1 = poppedKeys answered.1 ++ answered.2.keys ∧
      reacted.2.memory.keyboard = asked.2 ∧
      reacted.1.filterMap Reaction.accepted? = asked.1.filterMap KeyAnswer.accepted? ∧
      ∀ memory : Memory, ∃ status word after,
        memory.read keyboardStatus = (.ok status, memory) ∧
        memory.read keyboardData = (.ok word, after) ∧
        ((status = 0xFFFFFFFF ∧ ∃ key, word = key.toUInt32 ∧
            memory.keyboard.keys = key :: after.keyboard.keys) ∨
          (status = 0 ∧ word = 0 ∧ memory.keyboard.keys = [] ∧ after = memory)) := by
  intro answered machine reacted asked
  obtain ⟨keyboard, accepted⟩ := machine.keyboard_reactAll events
  have viewed := callAll_view Keyboard.call Keyboard.keys queueCall Keyboard.call_eq {} calls
  exact ⟨Keyboard.queues, viewed, Keyboard.keys_callAll {} calls, keyboard, accepted,
    Memory.status_tells_data⟩

end ToyComputer
