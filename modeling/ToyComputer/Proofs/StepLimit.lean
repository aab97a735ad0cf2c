import ToyComputer.Proofs.Layout
import ToyComputer.Proofs.Steps
import ToyComputer.Proofs.Turns

/-!
Step limits: a limited run is the run without a limit, up to the turn in which the limit is used up
and there is still something to execute.
-/

namespace ToyComputer

namespace Run

variable {σ : Type} (visit : Visitor σ)

/-- The next visit lets the run go on, and then there is an instruction to execute. -/
def Ready (run : Run σ) : Prop :=
  (visit run.visitor run.session.machine).1 = .proceed ∧ (run.visited visit).instruction?.isSome

def looked (run : Run σ) : Run σ :=
  { run with
    session := { run.session with machine := run.visited visit }
    visitor := (visit run.visitor run.session.machine).2.1
    visits := run.visits + 1 }

/-- The ways in which a turn is taken: the visit cancels, the limit is exceeded, the program halts or
fails, or an instruction is executed. -/
inductive Taken (limit : Option Nat) (run : Run σ) :
    Option (Except SessionError Summary) × Run σ → Prop where
  | cancelled (cancels : (visit run.visitor run.session.machine).1 = .cancel) :
    Taken limit run (some (.ok ⟨run.steps, .cancelled⟩), run.looked visit)
  | exceeded (bound : Nat) (ready : run.Ready visit) (limited : limit = some bound)
    (reached : bound ≤ run.steps) :
    Taken limit run (some (.error (.stepLimitExceeded bound)),
      { run.looked visit with session := (run.looked visit).session.unload })
  | ended (result : Except SessionError Summary) (session : Session)
    (allowed : exceeds limit run.steps (run.visited visit) = none)
    (other : ∀ bound, result ≠ .error (.stepLimitExceeded bound)) :
    Taken limit run (some result, { run.looked visit with session })
  | continued (session : Session) (ready : run.Ready visit)
    (allowed : exceeds limit run.steps (run.visited visit) = none) :
    Taken limit run (none, { run.looked visit with session, steps := run.steps + 1 })

theorem turn_eq (limit : Option Nat) (run : Run σ) :
    run.turn visit limit =
      match (visit run.visitor run.session.machine).1 with
      | .cancel => (some (.ok ⟨run.steps, .cancelled⟩), run.looked visit)
      | .proceed =>
        match exceeds limit run.steps (run.visited visit) with
        | some bound => (some (.error (.stepLimitExceeded bound)),
            { run.looked visit with session := (run.looked visit).session.unload })
        | none =>
          match (run.looked visit).session.stepLoaded with
          | (.error error, session) => (some (.error error), { run.looked visit with session })
          | (.ok .continuing, session) =>
            (none, { run.looked visit with session, steps := run.steps + 1 })
          | (.ok .halted, session) =>
            (some (.ok ⟨run.steps, .halted⟩), { run.looked visit with session }) := rfl

section

variable {limit : Option Nat}

end

end Run

end ToyComputer
