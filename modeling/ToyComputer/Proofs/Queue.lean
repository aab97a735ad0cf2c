import ToyComputer.Device.Keyboard

/-!
The keyboard as a queue: its circular buffer holds the pending keys in the order in which they were
typed, however often it has gone round. Typing a key and taking one can be done in either order,
unless the buffer is empty or full.
-/

namespace ToyComputer

section

variable {State Call Answer : Type} (call : State → Call → Answer × State)

/-- Makes calls in turn: what each is answered, and the state behind the last. -/
def callAll (state : State) : List Call → List Answer × State
  | [] => ([], state)
  | first :: calls =>
    let (answer, state) := call state first
    let (answers, state) := callAll state calls
    (answer :: answers, state)

theorem callAll_append (state : State) (first second : List Call) :
    callAll call state (first ++ second) =
      ((callAll call state first).1 ++ (callAll call (callAll call state first).2 second).1,
        (callAll call (callAll call state first).2 second).2) := by
  induction first generalizing state with
  | nil => rfl
  | cons next first ih => simp only [List.cons_append, callAll, ih]

theorem callAll_view {View : Type} (view : State → View) (other : View → Call → Answer × View)
    (same : ∀ state next, other (view state) next = ((call state next).1, view (call state next).2))
    (state : State) (calls : List Call) :
    callAll other (view state) calls =
      ((callAll call state calls).1, view (callAll call state calls).2) := by
  induction calls generalizing state with
  | nil => rfl
  | cons next calls ih => simp only [callAll, same, ih]

end

inductive KeyCall where
  | push (key : UInt8)
  | pop
  deriving DecidableEq, Repr

inductive KeyAnswer where
  | pushed (accepted : Bool)
  | popped (key : Option UInt8)
  deriving DecidableEq, Repr

def acceptedKeys : List KeyCall → List KeyAnswer → List UInt8
  | .push key :: calls, .pushed true :: answers => key :: acceptedKeys calls answers
  | _ :: calls, _ :: answers => acceptedKeys calls answers
  | _, _ => []

def poppedKeys (answers : List KeyAnswer) : List UInt8 :=
  answers.filterMap fun
    | .popped key => key
    | .pushed _ => none

/-- A queue of bounded length, the oldest key first. -/
def queueCall (keys : List UInt8) : KeyCall → KeyAnswer × List UInt8
  | .push key =>
    if keys.length < keyboardCapacity then (.pushed true, keys ++ [key]) else (.pushed false, keys)
  | .pop => (.popped keys.head?, keys.drop 1)

namespace Keyboard

def call (keyboard : Keyboard) : KeyCall → KeyAnswer × Keyboard
  | .push key => (.pushed (keyboard.push key).1, (keyboard.push key).2)
  | .pop => (.popped keyboard.pop.1, keyboard.pop.2)

section

variable (keyboard : Keyboard)

theorem length_keys : keyboard.keys.length = keyboard.size := by
  simp [keys]

theorem slot_zero : keyboard.slot 0 = keyboard.head := by
  apply Fin.ext
  exact Nat.mod_eq_of_lt keyboard.head.isLt

theorem slot_ne (first second : Nat) (order : first < second) (round : second < keyboardCapacity) :
    keyboard.slot second ≠ keyboard.slot first := by
  intro same
  have equal := congrArg Fin.val same
  have inside := keyboard.head.isLt
  simp only [slot, keyboardCapacity] at equal inside round
  omega

theorem slot_moved (moved : Keyboard) (head : moved.head = keyboard.slot 1) (offset : Nat) :
    moved.slot offset = keyboard.slot (offset + 1) := by
  apply Fin.ext
  simp only [slot, head, keyboardCapacity]
  omega

theorem push_full (key : UInt8) (full : keyboard.size = keyboardCapacity) :
    keyboard.push key = (false, keyboard) := by
  rw [push, dif_neg (Nat.not_lt.mpr (Nat.le_of_eq full.symm))]

theorem push_room (key : UInt8) (room : keyboard.size < keyboardCapacity) :
    ∃ after, keyboard.push key = (true, after) ∧ after.size = keyboard.size + 1 ∧
      after.keys = keyboard.keys ++ [key] := by
  refine ⟨_, by rw [push, dif_pos room], rfl, ?_⟩
  have kept : ∀ offset ∈ List.range keyboard.size,
      (keyboard.slots.set (keyboard.slot keyboard.size) key)[keyboard.slot offset] =
        keyboard.slots[keyboard.slot offset] := by
    intro offset earlier
    have apart := keyboard.slot_ne offset _ (List.mem_range.mp earlier) room
    exact Vector.getElem_set_ne _ _ (Fin.val_ne_of_ne apart)
  simp only [keys, List.range_succ, List.map_append, List.map_singleton]
  congr 1
  · exact List.map_congr_left kept
  · exact congrArg (fun byte => [byte]) (Vector.getElem_set_self _)

theorem push_cases (key : UInt8) :
    (keyboard.size = keyboardCapacity ∧ keyboard.push key = (false, keyboard)) ∨
    (keyboard.size < keyboardCapacity ∧ ∃ after, keyboard.push key = (true, after) ∧
      after.size = keyboard.size + 1 ∧ after.keys = keyboard.keys ++ [key]) := by
  rcases Nat.lt_or_eq_of_le keyboard.bounded with room | full
  · exact Or.inr ⟨room, keyboard.push_room key room⟩
  · exact Or.inl ⟨full, keyboard.push_full key full⟩

theorem pop_empty (empty : keyboard.size = 0) : keyboard.pop = (none, keyboard) := by
  rw [pop, if_pos empty]

theorem pop_pending (pending : 0 < keyboard.size) :
    ∃ key after, keyboard.pop = (some key, after) ∧ keyboard.size = after.size + 1 ∧
      keyboard.keys = key :: after.keys := by
  refine ⟨_, _, by rw [pop, if_neg (Nat.ne_of_gt pending)], ?_, ?_⟩
  · exact (Nat.succ_pred_eq_of_pos pending).symm
  · obtain ⟨count, size⟩ := Nat.exists_eq_succ_of_ne_zero (Nat.ne_of_gt pending)
    simp only [keys, size, Nat.succ_eq_add_one, Nat.add_sub_cancel, List.range_succ_eq_map,
      List.map_cons, List.map_map, slot_zero]
    congr 1
    apply List.map_congr_left
    intro offset _
    exact congrArg (fun slot : Fin keyboardCapacity => keyboard.slots[slot])
      (slot_moved keyboard _ rfl offset).symm

theorem pop_cases :
    (keyboard.keys = [] ∧ keyboard.pop = (none, keyboard)) ∨
    (∃ key after, keyboard.pop = (some key, after) ∧ keyboard.keys = key :: after.keys) := by
  rcases Nat.eq_zero_or_pos keyboard.size with empty | pending
  · left
    exact ⟨List.eq_nil_of_length_eq_zero (keyboard.length_keys.trans empty),
      keyboard.pop_empty empty⟩
  · obtain ⟨key, after, popped, _, keys⟩ := keyboard.pop_pending pending
    exact Or.inr ⟨key, after, popped, keys⟩

theorem keys_pop : keyboard.pop.2.keys = keyboard.keys.drop 1 := by
  rcases keyboard.pop_cases with ⟨empty, same⟩ | ⟨key, after, popped, keys⟩
  · rw [same, empty, List.drop_nil]
  · rw [popped, keys, List.drop_one, List.tail_cons]

theorem popMany_add (first second : Nat) :
    (keyboard.popMany (first + second)).2 = ((keyboard.popMany first).2.popMany second).2 := by
  induction first generalizing keyboard with
  | zero => rw [Nat.zero_add, popMany]
  | succ first ih => rw [Nat.succ_add, popMany, popMany, ih]

theorem keys_popMany (count : Nat) :
    (keyboard.popMany count).2.keys = keyboard.keys.drop count := by
  induction count generalizing keyboard with
  | zero => rfl
  | succ count ih => rw [popMany, ih, keys_pop, List.drop_drop, Nat.add_comm]

theorem isEmpty_eq : keyboard.isEmpty = keyboard.keys.isEmpty := by
  rw [isEmpty, ← length_keys]
  cases keyboard.keys <;> rfl

theorem push_pop (key : UInt8) (pending : 0 < keyboard.size)
    (room : keyboard.size < keyboardCapacity) :
    (keyboard.push key).2.pop = (keyboard.pop.1, (keyboard.pop.2.push key).2) ∧
      (keyboard.pop.2.push key).1 = (keyboard.push key).1 := by
  have apart := keyboard.slot_ne 0 _ pending room
  rw [slot_zero] at apart
  have oldest : (keyboard.slots.set (keyboard.slot keyboard.size) key)[keyboard.head] =
      keyboard.slots[keyboard.head] := Vector.getElem_set_ne _ _ (Fin.val_ne_of_ne apart)
  have still : keyboard.size - 1 < keyboardCapacity := Nat.lt_of_le_of_lt (Nat.sub_le _ _) room
  have back : keyboard.size - 1 + 1 = keyboard.size := Nat.succ_pred_eq_of_pos pending
  simp only [push, pop, dif_pos room, if_neg (Nat.ne_of_gt pending), dif_pos still, oldest,
    if_neg (Nat.succ_ne_zero _), Nat.add_sub_cancel]
  simp only [slot_moved keyboard ⟨_, keyboard.slot 1, _, _⟩ rfl, back]
  exact ⟨rfl, trivial⟩

end

/-- A keyboard answers as the queue of its pending keys does. -/
theorem call_eq (keyboard : Keyboard) (next : KeyCall) :
    queueCall keyboard.keys next = ((keyboard.call next).1, (keyboard.call next).2.keys) := by
  cases next with
  | push key =>
      rcases keyboard.push_cases key with ⟨full, refused⟩ | ⟨room, after, accepted, _, keys⟩
      · simp [queueCall, call, refused, length_keys, full]
      · simp [queueCall, call, accepted, length_keys, room, keys]
  | pop =>
      rcases keyboard.pop_cases with ⟨empty, same⟩ | ⟨key, after, popped, keys⟩
      · simp [queueCall, call, same, empty]
      · simp [queueCall, call, popped, keys]

/-- What was accepted was taken or is still pending, in the order of its arrival. -/
theorem keys_callAll (keyboard : Keyboard) (calls : List KeyCall) :
    keyboard.keys ++ acceptedKeys calls (callAll call keyboard calls).1 =
      poppedKeys (callAll call keyboard calls).1 ++ (callAll call keyboard calls).2.keys := by
  induction calls generalizing keyboard with
  | nil => simp [callAll, acceptedKeys, poppedKeys]
  | cons next calls ih =>
      have rest := ih (keyboard.call next).2
      cases next with
      | push key =>
          rcases keyboard.push_cases key with ⟨_, refused⟩ | ⟨_, after, accepted, _, keys⟩
          · simp only [call, refused] at rest
            simpa [callAll, call, refused, acceptedKeys, poppedKeys] using rest
          · simp only [call, accepted, keys, List.append_assoc] at rest
            simpa [callAll, call, accepted, acceptedKeys, poppedKeys] using rest
      | pop =>
          rcases keyboard.pop_cases with ⟨empty, same⟩ | ⟨key, after, popped, keys⟩
          · simp only [call, same] at rest
            simpa [callAll, call, same, acceptedKeys, poppedKeys] using rest
          · simp only [call, popped] at rest
            simpa [callAll, call, popped, keys, acceptedKeys, poppedKeys] using rest

end Keyboard

end ToyComputer
