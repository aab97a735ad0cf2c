import ToyComputer.Proofs.Calls

/-!
Fresh starts: whatever a session was used for, the next program finds nothing of it. A call that
begins a program does the same in every session, and so does all that is called after it.
-/

namespace ToyComputer

/-- Someone with the whole machine in hand before a step. -/
abbrev Hook (σ : Type) := σ → Machine → Signal × σ × Machine

section

variable {σ : Type}

def Visitor.hook (visit : Visitor σ) : Hook σ := fun state machine =>
  let (signal, state, memory) := visit state machine
  (signal, state, { machine with memory })

namespace Run

/-- A turn before which a hook has the machine; the visit only passes its signal on. -/
def hookedTurn (hook : Hook σ) (limit : Option Nat) (run : Run σ) :
    Option (Except SessionError Summary) × Run σ :=
  let (signal, visitor, machine) := hook run.visitor run.session.machine
  { run with session := { run.session with machine }, visitor }.turn
    (fun state machine => (signal, state, machine.memory)) limit

def hookedTurns (hook : Hook σ) (limit : Option Nat) :
    (count : Nat) → Run σ → Option (Except SessionError Summary) × Run σ
  | 0, run => (none, run)
  | count + 1, run =>
    match run.hookedTurn hook limit with
    | (none, run) => hookedTurns hook limit count run
    | ended => ended

theorem hookedTurn_visitor (visit : Visitor σ) (limit : Option Nat) (run : Run σ) :
    run.hookedTurn (Visitor.hook visit) limit = run.turn visit limit := rfl

theorem hookedTurns_visitor (visit : Visitor σ) (limit : Option Nat) (count : Nat) (run : Run σ) :
    run.hookedTurns (Visitor.hook visit) limit count = run.turns visit limit count := by
  induction count generalizing run with
  | zero => rfl
  | succ count ih =>
      rw [hookedTurns, turns, hookedTurn_visitor]
      rcases run.turn visit limit with ⟨_ | result, next⟩
      · exact ih next
      · rfl

end Run

namespace Session

def hookedRun (session : Session) (source : String) (limit : Option Nat) (hook : Hook σ)
    (state : σ) (count : Nat) : Option (Except SessionError Summary) × Run σ :=
  match Run.start session source state with
  | (none, run) => run.hookedTurns hook limit count
  | ended => ended

theorem hookedRun_visitor (session : Session) (source : String) (limit : Option Nat)
    (visit : Visitor σ) (state : σ) (count : Nat) :
    session.hookedRun source limit (Visitor.hook visit) state count =
      session.run source limit visit state count := by
  rw [hookedRun, run]
  rcases Run.start session source state with ⟨_ | result, run⟩
  · exact run.hookedTurns_visitor visit limit count
  · rfl

end Session

end

/-- A call that begins a program, or at least ends the last one. A single step only does so if
nothing is loaded. -/
def Call.anew (session : Session) : Call → Bool
  | .reset | .load _ | .run .. => true
  | .singleStep _ => !session.loaded
  | .resume _ | .pushKey _ => false

namespace Session

/-- Calls in turn: of each the machines that took a step in it, with the reply or the error. -/
inductive Serves : Session → List Call → List (List Machine × Except SessionError Reply) →
    Session → Prop where
  | none (session : Session) : Serves session [] [] session
  | call {session next after : Session} {call : Call} {calls : List Call}
    {machines : List Machine} {reply : Except SessionError Reply}
    {answers : List (List Machine × Except SessionError Reply)}
    (returned : call.Returns session machines reply next)
    (later : next.Serves calls answers after) :
    Serves session (call :: calls) ((machines, reply) :: answers) after

variable (first second : Session)

theorem load_anew (source : String) : first.load source = second.load source := rfl

theorem start_anew {σ : Type} (source : String) (state : σ) :
    Run.start first source state = Run.start second source state := by
  rw [Run.start, Run.start, first.load_anew second]

theorem readied?_anew (source : String) (idle : first.loaded = false) (free : second.loaded = false) :
    first.readied? source = second.readied? source := by
  rw [readied?, readied?, idle, free, if_neg Bool.false_ne_true, if_neg Bool.false_ne_true,
    first.load_anew second]

theorem singleStep_anew (source : String) (idle : first.loaded = false)
    (free : second.loaded = false) : first.singleStep source = second.singleStep source := by
  rw [singleStep, singleStep, idle, free, if_neg Bool.false_ne_true, if_neg Bool.false_ne_true,
    first.load_anew second]

theorem hookedRun_anew {σ : Type} (source : String) (limit : Option Nat) (hook : Hook σ)
    (state : σ) (count : Nat) :
    first.hookedRun source limit hook state count =
      second.hookedRun source limit hook state count := by
  rw [hookedRun, hookedRun, first.start_anew second]

theorem run_anew {σ : Type} (source : String) (limit : Option Nat) (visit : Visitor σ)
    (state : σ) (count : Nat) :
    first.run source limit visit state count = second.run source limit visit state count := by
  rw [← hookedRun_visitor, ← hookedRun_visitor, first.hookedRun_anew second]

theorem running_anew {σ : Type} (source : String) (limit : Option Nat) (visit : Visitor σ)
    (state : σ) (count : Nat) :
    first.running source limit visit state count = second.running source limit visit state count := by
  rw [running, running, first.start_anew second]

end Session

/-- What a call that starts anew returns does not depend on the session. -/
theorem Call.Returns.anew {first after : Session} {call : Call} {machines : List Machine}
    {reply : Except SessionError Reply} (returned : call.Returns first machines reply after)
    (begins : call.anew first = true) (second : Session) (likewise : call.anew second = true) :
    call.Returns second machines reply after := by
  cases returned with
  | reset => exact .reset
  | load source =>
      rw [first.load_anew second]
      exact .load source
  | singleStep source =>
      simp only [Call.anew, Bool.not_eq_true'] at begins likewise
      rw [first.readied?_anew second source begins likewise,
        first.singleStep_anew second source begins likewise]
      exact .singleStep source
  | resume limit => cases begins
  | pushKey key => cases begins
  | run source limit visit visitor count result final ended =>
      rw [first.running_anew second]
      rw [first.run_anew second] at ended
      exact .run source limit visit visitor count result final ended

theorem Session.Serves.anew {first after : Session} {call : Call} {calls : List Call}
    {answers : List (List Machine × Except SessionError Reply)}
    (served : first.Serves (call :: calls) answers after) (begins : call.anew first = true)
    (second : Session) (likewise : call.anew second = true) :
    second.Serves (call :: calls) answers after := by
  cases served with
  | call returned later => exact .call (returned.anew begins second likewise) later

/-- Whatever two sessions were used for, the next program finds the same in both. Loading, running
and, if nothing is loaded, stepping give the same and leave the same, which is a fresh session if the
source does not assemble; and the answers to all calls from there on are the same. -/
theorem next_program_finds_nothing (first second : Session) (source : String) :
    first.load source = second.load source ∧
    (∀ error after, first.load source = (.error error, after) → after = Session.fresh) ∧
    (∀ (σ : Type) (hook : Hook σ) (state : σ) (limit : Option Nat) (count : Nat),
      first.hookedRun source limit hook state count =
        second.hookedRun source limit hook state count) ∧
    (∀ (σ : Type) (visit : Visitor σ) (state : σ) (limit : Option Nat) (count : Nat),
      first.run source limit visit state count = second.run source limit visit state count) ∧
    (first.loaded = false → second.loaded = false →
      first.singleStep source = second.singleStep source) ∧
    (∀ call calls answers after, call.anew first = true → call.anew second = true →
      (first.Serves (call :: calls) answers after ↔ second.Serves (call :: calls) answers after)) := by
  refine ⟨first.load_anew second source, ?_, ?_, ?_, first.singleStep_anew second source, ?_⟩
  · intro error after failed
    rcases first.load_cases source with ⟨program, _, same⟩ | ⟨other, _, same⟩
    · rw [same] at failed
      cases failed
    · rw [same] at failed
      exact (Prod.mk.inj failed).2.symm
  · intro σ hook state limit count
    exact first.hookedRun_anew second source limit hook state count
  · intro σ visit state limit count
    exact first.run_anew second source limit visit state count
  · intro call calls answers after begins likewise
    constructor
    · intro served
      exact served.anew begins second likewise
    · intro served
      exact served.anew likewise first begins

def leftover : Session := (((Session.fresh.load "copy r0, 7").2.resume 2).2.pushKey 65).2

theorem leftover_not_found :
    let source := "lb r1, [0x20000001]"
    (leftover.loaded = false ∧ leftover.machine.registers.get .r0 = 7 ∧
      leftover.machine.memory.keyboard.keys = [65]) ∧
    leftover.singleStep source = Session.fresh.singleStep source ∧
    (leftover.singleStep source).2.machine.registers.get .r1 = 0 ∧
    (leftover.load "jump").2 = Session.fresh ∧
    ∀ answers after, leftover.Serves [.singleStep source, .resume 5] answers after ↔
      Session.fresh.Serves [.singleStep source, .resume 5] answers after := by
  intro source
  have idle : leftover.loaded = false := by decide +kernel
  obtain ⟨_, _, _, _, stepped, served⟩ := next_program_finds_nothing leftover Session.fresh source
  obtain ⟨_, failed, _⟩ := next_program_finds_nothing leftover Session.fresh "jump"
  refine ⟨⟨idle, by decide +kernel, by decide +kernel⟩, stepped idle rfl, by decide +kernel, ?_, ?_⟩
  · rcases loaded : leftover.load "jump" with ⟨error | done, after⟩
    · exact failed error after loaded
    · have fails : (leftover.load "jump").1.isOk = false := by decide +kernel
      rw [loaded] at fails
      cases fails
  · intro answers after
    exact served _ _ answers after (by rw [Call.anew, idle]; rfl) rfl

end ToyComputer
