import ToyComputer.Session

/-!
Runs: a source is executed from the start while a visitor looks in before every step. A run need not
end, so it is given by its turns, and `Run.turns` takes a number of them.
-/

namespace ToyComputer

inductive Signal where
  | proceed | cancel
  deriving DecidableEq, Repr

/-- The outside world before a step: it has a state of its own, sees the whole machine, and may type
keys or change memory, but touches neither registers nor program. -/
abbrev Visitor (σ : Type) := σ → Machine → Signal × σ × Memory

/-- A run under way: what it left of the session and of the visitor, the steps executed and the
visits paid so far. -/
structure Run (σ : Type) where
  session : Session
  visitor : σ
  steps : Nat := 0
  visits : Nat := 0

namespace Run

variable {σ : Type}

def start (session : Session) (source : String) (visitor : σ) :
    Option (Except SessionError Summary) × Run σ :=
  match session.load source with
  | (.error error, session) => (some (.error error), { session, visitor })
  | (.ok _, session) => (none, { session, visitor })

/-- A limit is exceeded when that many steps did not bring the program to its end. -/
def exceeds (limit : Option Nat) (steps : Nat) (machine : Machine) : Option Nat :=
  limit.filter fun limit => limit ≤ steps && !machine.isHalted

/-- A visit and a step. The result is there if the run has ended with this turn. -/
def turn (visit : Visitor σ) (limit : Option Nat) (run : Run σ) :
    Option (Except SessionError Summary) × Run σ :=
  let (signal, visitor, memory) := visit run.visitor run.session.machine
  let session := { run.session with machine := { run.session.machine with memory } }
  let run := { run with session, visitor, visits := run.visits + 1 }
  match signal with
  | .cancel => (some (.ok ⟨run.steps, .cancelled⟩), run)
  | .proceed =>
    match exceeds limit run.steps session.machine with
    | some limit => (some (.error (.stepLimitExceeded limit)), { run with session := session.unload })
    | none =>
      match session.stepLoaded with
      | (.error error, session) => (some (.error error), { run with session })
      | (.ok .continuing, session) => (none, { run with session, steps := run.steps + 1 })
      | (.ok .halted, session) => (some (.ok ⟨run.steps, .halted⟩), { run with session })

def turns (visit : Visitor σ) (limit : Option Nat) :
    (count : Nat) → Run σ → Option (Except SessionError Summary) × Run σ
  | 0, run => (none, run)
  | count + 1, run =>
    match run.turn visit limit with
    | (none, run) => turns visit limit count run
    | ended => ended

end Run

/-- Runs a source for up to `count` turns; the result is missing if it has not ended by then. -/
def Session.run {σ : Type} (session : Session) (source : String) (limit : Option Nat)
    (visit : Visitor σ) (visitor : σ) (count : Nat) :
    Option (Except SessionError Summary) × Run σ :=
  match Run.start session source visitor with
  | (none, run) => run.turns visit limit count
  | ended => ended

end ToyComputer
