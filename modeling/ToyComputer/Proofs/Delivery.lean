import ToyComputer.Proofs.Loads
import ToyComputer.Proofs.Streaming

/-!
Delivery: the keys that the runner types reach the program in their order. Input waits until there is
room for it, so none of it is lost; keys that had arrived before the run are typed in the first visit,
whether there is room for them or not.
-/

namespace ToyComputer

/-- The keys that were accepted, by the answers that were given to them. -/
def acceptedOf (keys : List UInt8) (answers : List Bool) : List UInt8 :=
  ((keys.zip answers).filter Prod.snd).map Prod.fst

theorem acceptedOf_cons (key : UInt8) (keys : List UInt8) (answer : Bool) (answers : List Bool) :
    acceptedOf (key :: keys) (answer :: answers) =
      if answer then key :: acceptedOf keys answers else acceptedOf keys answers := by
  cases answer <;> rfl

namespace Keyboard

def room (keyboard : Keyboard) : Nat := keyboardCapacity - keyboard.size

theorem room_cases (keyboard : Keyboard) (key : UInt8) :
    (keyboard.size = keyboardCapacity ∧ keyboard.room = 0 ∧
      keyboard.push key = (false, keyboard)) ∨
    (keyboard.size < keyboardCapacity ∧ ∃ after, keyboard.push key = (true, after) ∧
      after.keys = keyboard.keys ++ [key] ∧ keyboard.room = after.room + 1) := by
  rcases keyboard.push_cases key with ⟨full, refused⟩ | ⟨free, after, taken, size, keys⟩
  · exact Or.inl ⟨full, by rw [room, full, Nat.sub_self], refused⟩
  · refine Or.inr ⟨free, after, taken, keys, ?_⟩
    rw [room, room, size]
    omega

theorem accepted_pushAll (keyboard : Keyboard) (keys : List UInt8) :
    acceptedOf keys (keyboard.pushAll keys).1 = keys.take keyboard.room := by
  induction keys generalizing keyboard with
  | nil => rw [List.take_nil]; rfl
  | cons key keys ih =>
      simp only [pushAll, acceptedOf_cons]
      rcases room_cases keyboard key with ⟨_, none, refused⟩ | ⟨_, after, taken, _, less⟩
      · have rest := ih keyboard
        rw [none, List.take_zero] at rest ⊢
        simpa [refused] using rest
      · simp [taken, ih after, less]

theorem keys_pushAll (keyboard : Keyboard) (keys : List UInt8) :
    (keyboard.pushAll keys).2.keys = keyboard.keys ++ keys.take keyboard.room := by
  induction keys generalizing keyboard with
  | nil => simp [pushAll]
  | cons key keys ih =>
      rcases room_cases keyboard key with ⟨_, none, refused⟩ | ⟨_, after, taken, keys, less⟩
      · have rest := ih keyboard
        rw [none] at rest ⊢
        simpa [pushAll, refused] using rest
      · rw [less]
        simp [pushAll, taken, ih after, keys]

theorem room_pushAll (keyboard : Keyboard) (keys : List UInt8) :
    (keyboard.pushAll keys).2.room = keyboard.room - keys.length := by
  rw [room, ← length_keys, keys_pushAll, List.length_append, List.length_take, length_keys]
  simp only [room]
  omega

theorem length_answers (keyboard : Keyboard) (keys : List UInt8) :
    (keyboard.pushAll keys).1.length = keys.length := by
  induction keys generalizing keyboard with
  | nil => rfl
  | cons key keys ih => simp [pushAll, ih]

theorem full_of_refused (keyboard : Keyboard) (keys : List UInt8) (place : Nat)
    (refused : (keyboard.pushAll keys).1[place]? = some false) :
    (keyboard.pushAll (keys.take place)).2.size = keyboardCapacity := by
  induction keys generalizing keyboard place with
  | nil => cases refused
  | cons key keys ih =>
      cases place with
      | zero =>
          rcases room_cases keyboard key with ⟨full, _, _⟩ | ⟨_, after, taken, _, _⟩
          · exact full
          · simp [pushAll, taken] at refused
      | succ place => exact ih (keyboard.push key).2 place refused

end Keyboard

namespace Runner

namespace Console

theorem typeInput_cases (keyboard : Keyboard) (key : UInt8) (input : List UInt8) :
    (keyboard.room = 0 ∧ typeInput keyboard (key :: input) = ([], keyboard, key :: input)) ∨
    (keyboard.size < keyboardCapacity ∧ ∃ after, keyboard.push key = (true, after) ∧
      keyboard.room = after.room + 1 ∧
      typeInput keyboard (key :: input) =
        (true :: (typeInput after input).1, (typeInput after input).2)) := by
  rcases keyboard.room_cases key with ⟨full, none, _⟩ | ⟨free, after, taken, _, less⟩
  · refine Or.inl ⟨none, ?_⟩
    rw [typeInput, if_neg (Nat.not_lt.mpr (Nat.le_of_eq full.symm))]
  · refine Or.inr ⟨free, after, taken, less, ?_⟩
    rw [typeInput, if_pos free, taken]

theorem typeInput_eq (keyboard : Keyboard) (input : List UInt8) :
    typeInput keyboard input =
      ((keyboard.pushAll (input.take keyboard.room)).1,
        (keyboard.pushAll (input.take keyboard.room)).2, input.drop keyboard.room) := by
  induction input generalizing keyboard with
  | nil => simp [typeInput, Keyboard.pushAll]
  | cons key input ih =>
      rcases typeInput_cases keyboard key input with ⟨none, waits⟩ |
        ⟨_, after, taken, less, typed⟩
      · rw [waits, none]
        rfl
      · rw [typed, less]
        simp [Keyboard.pushAll, taken, ih after]

theorem accepted_typeInput (keyboard : Keyboard) (input : List UInt8) :
    acceptedOf input (typeInput keyboard input).1 = input.take keyboard.room := by
  induction input generalizing keyboard with
  | nil => rw [List.take_nil]; rfl
  | cons key input ih =>
      rcases typeInput_cases keyboard key input with ⟨none, waits⟩ |
        ⟨_, after, _, less, typed⟩
      · rw [waits, none]
        rfl
      · rw [typed, less, acceptedOf_cons, ih after]
        rfl

/-- Input is typed only while there is room for it, and so the keyboard accepts it. -/
theorem answers_typeInput (keyboard : Keyboard) (input : List UInt8) (place : Nat)
    (inside : place < (typeInput keyboard input).1.length) :
    (typeInput keyboard input).1[place]? = some true ∧
      (keyboard.pushAll (input.take place)).2.size < keyboardCapacity := by
  induction input generalizing keyboard place with
  | nil => cases inside
  | cons key input ih =>
      rcases typeInput_cases keyboard key input with ⟨_, waits⟩ | ⟨free, after, taken, _, typed⟩
      · rw [waits] at inside
        cases inside
      · rw [typed] at inside ⊢
        cases place with
        | zero => exact ⟨rfl, free⟩
        | succ place =>
            have later := ih after place (Nat.lt_of_succ_lt_succ inside)
            simpa [Keyboard.pushAll, taken] using later

theorem rest_typeInput (keyboard : Keyboard) (input : List UInt8) :
    (typeInput keyboard input).2.2 = input.drop (typeInput keyboard input).1.length := by
  rw [typeInput_eq, Keyboard.length_answers, List.length_take]
  rcases Nat.le_total keyboard.room input.length with fits | short
  · rw [Nat.min_eq_left fits]
  · rw [Nat.min_eq_right short, List.drop_length, List.drop_of_length_le short]

theorem waiting_copyDisplay (console : Console) (display : Display) :
    (console.copyDisplay display).input = console.input ∧
      (console.copyDisplay display).arrived = console.arrived := by
  unfold copyDisplay
  split
  · exact ⟨rfl, rfl⟩
  · split <;> exact ⟨rfl, rfl⟩

end Console

/-- The answers to the input in the next visit. -/
def inputAnswers (run : Run Console) : List Bool :=
  (Console.typeInput run.session.machine.memory.keyboard run.visitor.input).1

def behindInput (run : Run Console) : Keyboard :=
  (Console.typeInput run.session.machine.memory.keyboard run.visitor.input).2.1

/-- The answers to what has arrived, which comes after the input. -/
def arrivedAnswers (run : Run Console) : List Bool :=
  ((behindInput run).pushAll run.visitor.arrived).1

/-- The keys that the keyboard accepts in the next visit. -/
def accepted (run : Run Console) : List UInt8 :=
  acceptedOf run.visitor.input (inputAnswers run) ++
    acceptedOf run.visitor.arrived (arrivedAnswers run)

def room (run : Run Console) : Nat := run.session.machine.memory.keyboard.room

theorem keys_behindInput (run : Run Console) :
    (behindInput run).keys = run.session.machine.memory.keyboard.keys ++
      acceptedOf run.visitor.input (inputAnswers run) := by
  rw [inputAnswers, Console.accepted_typeInput, behindInput, Console.typeInput_eq,
    Keyboard.keys_pushAll, List.take_take, Nat.min_self]

theorem room_behindInput (run : Run Console) :
    (behindInput run).room = room run - run.visitor.input.length := by
  rw [behindInput, Console.typeInput_eq, Keyboard.room_pushAll, List.length_take, room]
  omega

theorem accepted_eq (run : Run Console) :
    accepted run = run.visitor.input.take (room run) ++
      run.visitor.arrived.take (room run - run.visitor.input.length) := by
  rw [accepted, inputAnswers, Console.accepted_typeInput, arrivedAnswers,
    Keyboard.accepted_pushAll, room_behindInput, room]

theorem keys_visited (run : Run Console) :
    (run.visited Console.visit).memory.keyboard.keys =
      run.session.machine.memory.keyboard.keys ++ accepted run := by
  have typed : (run.visited Console.visit).memory.keyboard =
      ((behindInput run).pushAll run.visitor.arrived).2 := rfl
  rw [typed, Keyboard.keys_pushAll, ← Keyboard.accepted_pushAll, keys_behindInput, accepted,
    arrivedAnswers, List.append_assoc]

section

variable (limit : Option Nat)

theorem input_turn (run : Run Console) :
    (run.turn Console.visit limit).2.visitor.input =
      run.visitor.input.drop (inputAnswers run).length := by
  rw [Run.visitor_turn, console_visit, inputAnswers, ← Console.rest_typeInput]
  exact (Console.waiting_copyDisplay _ _).1

theorem waiting_turn (run : Run Console) :
    (run.turn Console.visit limit).2.visitor.input = run.visitor.input.drop (room run) ∧
      (run.turn Console.visit limit).2.visitor.arrived = [] := by
  rw [Run.visitor_turn, console_visit, Console.typeInput_eq]
  exact Console.waiting_copyDisplay _ _

theorem keys_turn (run : Run Console) :
    (run.stepping? Console.visit limit).toList.flatMap Machine.keysTaken ++
        (run.turn Console.visit limit).2.session.machine.memory.keyboard.keys =
      run.session.machine.memory.keyboard.keys ++ accepted run := by
  rw [← keys_visited, Run.machine_turn]
  cases stepped : run.stepping? Console.visit limit with
  | none => rfl
  | some machine =>
      rw [Run.stepping?_eq_some Console.visit limit run machine stepped]
      simpa using Machine.keys_step (run.visited Console.visit)

/-- What was accepted so far was taken by the program or is still pending, and the next visit will
bring it to the whole of the keys, but for the input that then still waits. -/
structure Delivers (all log taken : List UInt8) (run : Run Console) : Prop where
  pending : taken ++ run.session.machine.memory.keyboard.keys = log
  whole : log ++ accepted run ++ run.visitor.input.drop (room run) = all

theorem accepted_of_drained (run : Run Console) (drained : run.visitor.arrived = []) :
    accepted run ++ run.visitor.input.drop (room run) = run.visitor.input := by
  rw [accepted_eq, drained, List.take_nil, List.append_nil, List.take_append_drop]

theorem delivers_turn (all log taken : List UInt8) (run : Run Console)
    (delivers : Delivers all log taken run) :
    Delivers all (log ++ accepted run)
      (taken ++ (run.stepping? Console.visit limit).toList.flatMap Machine.keysTaken)
      (run.turn Console.visit limit).2 := by
  obtain ⟨pending, whole⟩ := delivers
  obtain ⟨input, drained⟩ := waiting_turn limit run
  constructor
  · rw [List.append_assoc, keys_turn, ← List.append_assoc, pending]
  · rw [List.append_assoc, accepted_of_drained _ drained, input, whole]

theorem delivers_turns (all log taken : List UInt8) (count : Nat) (run : Run Console)
    (delivers : Delivers all log taken run) :
    Delivers all (log ++ (run.turning Console.visit limit count).flatMap accepted)
      (taken ++ (run.stepping Console.visit limit count).flatMap Machine.keysTaken)
      (run.turns Console.visit limit count).2 := by
  induction count generalizing log taken run with
  | zero => simpa [Run.turning, Run.stepping, Run.turns] using delivers
  | succ count ih =>
      have after := delivers_turn limit all log taken run delivers
      rw [Run.turning, Run.stepping, Run.turns, List.flatMap_cons, List.flatMap_append,
        ← List.append_assoc, ← List.append_assoc]
      rcases taken : run.turn Console.visit limit with ⟨_ | result, next⟩
      · rw [taken] at after
        exact ih _ _ next after
      · rw [taken] at after
        simpa using after

theorem full_or_delivered (all log taken : List UInt8) (run : Run Console)
    (delivers : Delivers all log taken run) :
    (run.visited Console.visit).memory.keyboard.size = keyboardCapacity ∨
      log ++ accepted run = all := by
  by_cases fits : run.visitor.input.length ≤ room run
  · -- All input finds room, so none is left behind.
    right
    rw [← delivers.whole, List.drop_of_length_le fits, List.append_nil]
  · -- The room is used up by the input alone.
    left
    have bounded := run.session.machine.memory.keyboard.bounded
    rw [← Keyboard.length_keys, keys_visited, accepted_eq, List.length_append, List.length_append,
      List.length_take, List.length_take, Keyboard.length_keys]
    simp only [room, Keyboard.room] at fits ⊢
    omega

theorem before_steps (all log taken : List UInt8) (count : Nat) (run : Run Console)
    (delivers : Delivers all log taken run) (earlier later : List (Run Console))
    (turn : Run Console) (machine : Machine)
    (split : run.turning Console.visit limit count = earlier ++ turn :: later)
    (stepped : turn.stepping? Console.visit limit = some machine) :
    machine.memory.keyboard.size = keyboardCapacity ∨
      log ++ (earlier ++ [turn]).flatMap accepted = all := by
  -- By the turns of the run: the log grows with the turns that lie before the one in question.
  induction count generalizing log taken run earlier with
  | zero => simp [Run.turning] at split
  | succ count ih =>
      rw [Run.turning] at split
      cases earlier with
      | nil =>
          obtain ⟨rfl, _⟩ := List.cons.inj split
          rw [Run.stepping?_eq_some Console.visit limit run machine stepped]
          simpa using full_or_delivered all log taken run delivers
      | cons first earlier =>
          obtain ⟨rfl, rest⟩ := List.cons.inj split
          have after := delivers_turn limit all log taken run delivers
          rcases taken : run.turn Console.visit limit with ⟨_ | result, next⟩
          · rw [taken] at after rest
            simpa using ih _ _ next after earlier rest
          · rw [taken] at rest
            simp at rest

theorem drained_turns (count : Nat) (run : Run Console) (begun : 0 < count) :
    (run.turns Console.visit limit count).2.visitor.arrived = [] := by
  induction count generalizing run with
  | zero => cases begun
  | succ count ih =>
      have drained := (waiting_turn limit run).2
      rw [Run.turns]
      rcases taken : run.turn Console.visit limit with ⟨_ | result, next⟩
      · rw [taken] at drained
        rcases Nat.eq_zero_or_pos count with rfl | more
        · exact drained
        · exact ih next more
      · rw [taken] at drained
        exact drained

theorem drained_turning (count : Nat) (run turn : Run Console)
    (drained : run.visitor.arrived = [])
    (member : turn ∈ run.turning Console.visit limit count) : turn.visitor.arrived = [] := by
  induction count generalizing run with
  | zero => cases member
  | succ count ih =>
      have after := (waiting_turn limit run).2
      rw [Run.turning] at member
      rcases taken : run.turn Console.visit limit with ⟨_ | result, next⟩
      · rw [taken] at after member
        rcases List.mem_cons.mp member with rfl | later
        · exact drained
        · exact ih next after later
      · rw [taken] at member
        rw [List.mem_singleton.mp member]
        exact drained

theorem arrivedAnswers_tail (count : Nat) (run turn : Run Console)
    (member : turn ∈ (run.turning Console.visit limit count).tail) :
    arrivedAnswers turn = [] := by
  cases count with
  | zero => cases member
  | succ count =>
      have after := (waiting_turn limit run).2
      rw [Run.turning, List.tail_cons] at member
      rcases taken : run.turn Console.visit limit with ⟨_ | result, next⟩
      · rw [taken] at after member
        rw [arrivedAnswers, drained_turning limit count next turn after member]
        rfl
      · rw [taken] at member
        cases member

end

theorem delivers_start (program : Program) (options : Options) (arrived : List UInt8)
    (writer : Writer) :
    Delivers (options.input ++ arrived.take (256 - min options.input.length 256)) [] []
      (Run.loaded program (options.console arrived writer)) where
  pending := rfl
  whole := by
    have empty : room (Run.loaded program (options.console arrived writer)) = 256 := rfl
    have left : 256 - min options.input.length 256 = 256 - options.input.length := by omega
    rw [accepted_eq, empty, left, List.nil_append]
    simp only [Run.loaded, Options.console]
    by_cases fits : options.input.length ≤ 256
    · rw [List.take_of_length_le fits, List.drop_of_length_le fits, List.append_nil]
    · rw [Nat.sub_eq_zero_of_le (Nat.le_of_not_le fits), List.take_zero, List.append_nil,
        List.append_nil, List.take_append_drop]

theorem execute_eq (source : String) (program : Program) (options : Options)
    (arrived : List UInt8) (writer : Writer) (count : Nat)
    (assembled : Assembly.assemble source = .ok program) (runs : options.listing = false) :
    execute source options arrived writer count =
      let last := (Run.loaded program (options.console arrived writer)).turns Console.visit
        options.steps count
      last.1.map fun result => conclude options result last.2 := by
  rw [execute, runs, Session.run_eq Session.fresh source _ _ _ _ program assembled]
  simp only [Bool.false_eq_true, if_false]
  split
  · next ended => rw [ended]; rfl
  · next running => rw [running]; rfl

/-- The runner delivers its input: the keyboard accepts the input and then those of the keys that had
arrived for which the first visit finds room, in this order. What it accepted the program has taken,
in this order, or it is still pending. Of the input every key is typed while there is room for it, and
accepted. Before a step the keyboard is full or all of the input has been accepted. Each of the keys
that had arrived is typed in the first visit, and refused only if the keyboard is full by then. -/
theorem input_delivered (source : String) (program : Program) (options : Options)
    (arrived : List UInt8) (writer : Writer) (count : Nat)
    (assembled : Assembly.assemble source = .ok program) (runs : options.listing = false) :
    let run := Run.loaded program (options.console arrived writer)
    let turning := run.turning Console.visit options.steps count
    let last := run.turns Console.visit options.steps count
    let all := options.input ++ arrived.take (256 - min options.input.length 256)
    execute source options arrived writer count =
        last.1.map (fun result => conclude options result last.2) ∧
      turning.flatMap accepted <+: all ∧
      (0 < count → turning.flatMap accepted ++ last.2.visitor.input = all) ∧
      (run.stepping Console.visit options.steps count).flatMap Machine.keysTaken ++
          last.2.session.machine.memory.keyboard.keys =
        turning.flatMap accepted ∧
      (∀ turn ∈ turning,
        (turn.turn Console.visit options.steps).2.visitor.input =
            turn.visitor.input.drop (inputAnswers turn).length ∧
          ∀ place < (inputAnswers turn).length, (inputAnswers turn)[place]? = some true ∧
            (turn.session.machine.memory.keyboard.pushAll
              (turn.visitor.input.take place)).2.size < 256) ∧
      (∀ earlier turn later machine, turning = earlier ++ turn :: later →
        turn.stepping? Console.visit options.steps = some machine →
        machine.memory.keyboard.size = 256 ∨
          options.input <+: (earlier ++ [turn]).flatMap accepted) ∧
      (arrivedAnswers run).length = arrived.length ∧
      (∀ place, (arrivedAnswers run)[place]? = some false →
        ((behindInput run).pushAll (arrived.take place)).2.size = 256) ∧
      ∀ turn ∈ turning.tail, arrivedAnswers turn = [] := by
  intro run turning last all
  have start := delivers_start program options arrived writer
  obtain ⟨pending, whole⟩ := delivers_turns options.steps all [] [] count run start
  simp only [List.nil_append] at pending whole
  refine ⟨execute_eq source program options arrived writer count assembled runs, ?_, ?_, pending,
    ?_, ?_, Keyboard.length_answers _ arrived, Keyboard.full_of_refused _ arrived,
    arrivedAnswers_tail options.steps count run⟩
  · exact ⟨_, by rw [← List.append_assoc]; exact whole⟩
  · intro begun
    rw [List.append_assoc, accepted_of_drained _ (drained_turns options.steps count run begun)]
      at whole
    exact whole
  · intro turn _
    exact ⟨input_turn options.steps turn, Console.answers_typeInput _ _⟩
  · intro earlier turn later machine split stepped
    rcases before_steps options.steps all [] [] count run start earlier later turn machine split
      stepped with full | delivered
    · exact Or.inl full
    · rw [List.nil_append] at delivered
      rw [delivered]
      exact Or.inr (List.prefix_append _ _)

def takesKey : String := "lb r0, [0x20000001]"

def longInput : Options := { input := List.replicate 256 7 ++ [8] }

theorem longInput_delivered : ∃ program, Assembly.assemble takesKey = .ok program ∧
    let run := Run.loaded program (longInput.console [9] {})
    let accepted := (run.turning Console.visit longInput.steps 2).flatMap accepted
    let last := (run.turns Console.visit longInput.steps 2).2
    accepted ++ last.visitor.input = longInput.input ∧
      (run.stepping Console.visit longInput.steps 2).flatMap Machine.keysTaken ++
        last.session.machine.memory.keyboard.keys = accepted ∧
      arrivedAnswers run = [false] ∧ (behindInput run).size = 256 := by
  have assembled := Assembly.assembles takesKey (by decide +kernel)
  obtain ⟨_, _, whole, pending, _, _, _, refused, _⟩ :=
    input_delivered takesKey _ longInput [9] {} 2 assembled rfl
  have answers : arrivedAnswers (Run.loaded ((Assembly.assemble takesKey).toOption.getD {})
      (longInput.console [9] {})) = [false] := by decide +kernel
  exact ⟨_, assembled, (whole (by decide)).trans (by decide +kernel), pending, answers,
    refused 0 (by rw [answers]; rfl)⟩

end Runner

end ToyComputer
