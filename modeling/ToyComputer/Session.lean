import ToyComputer.Assembly.Layout
import ToyComputer.Machine.Step

/-!
Sessions: a machine under the control of someone who loads sources, steps, resumes and resets. A
program stays loaded until it halts or fails; what it left can be looked at until the next load.
-/

namespace ToyComputer

inductive SessionError where
  | assembly (error : AssemblyError)
  /-- `pc` and `line` are those of the instruction that failed. -/
  | execution (pc : Word) (line : Option Nat) (fault : Fault)
  | stepLimitExceeded (limit : Nat)
  deriving DecidableEq, Repr

namespace SessionError

def message : SessionError → String
  | assembly error => error.message
  | execution pc line fault =>
    let place :=
      match line with
      | some line => "Line " ++ toString (line + 1) ++ ": "
      | none => ""
    place ++ fault.message ++ " (pc = " ++ pc.hex ++ ")"
  | stepLimitExceeded limit => "Program did not halt within " ++ toString limit ++ " steps"

def sources : SessionError → List String
  | assembly error => error.message :: error.sources
  | execution _ _ fault => [fault.message]
  | stepLimitExceeded _ => []

end SessionError

inductive Outcome where
  | halted
  /-- Someone asked to stop; the program stays loaded. -/
  | cancelled
  /-- The steps that were allowed are used up; the program stays loaded. -/
  | paused
  deriving DecidableEq, Repr

structure Summary where
  steps : Nat
  outcome : Outcome
  deriving DecidableEq, Repr

structure Session where
  machine : Machine := {}
  loaded : Bool := false

namespace Session

def fresh : Session := {}

instance : Inhabited Session := ⟨fresh⟩

def reset (session : Session) : Session := { session with machine := {}, loaded := false }

/-- Resets, and starts over with a source. If it does not assemble, nothing stays loaded. -/
def load (session : Session) (source : String) : Except SessionError Unit × Session :=
  let session := session.reset
  match Assembly.assemble source with
  | .error error => (.error (.assembly error), session)
  | .ok program => (.ok (), { session with machine := Machine.start program, loaded := true })

def unload (session : Session) : Session := { session with loaded := false }

def pushKey (session : Session) (key : UInt8) : Bool × Session :=
  let (accepted, machine) := session.machine.pushKey key
  (accepted, { session with machine })

def currentLine? (session : Session) : Option Nat := session.machine.currentLine?

/-- One step of the loaded program, which is unloaded when it halts or fails. -/
def stepLoaded (session : Session) : Except SessionError Status × Session :=
  match session.machine.step with
  | (.ok .continuing, machine) => (.ok .continuing, { session with machine })
  | (.ok .halted, machine) => (.ok .halted, { session with machine, loaded := false })
  | (.error fault, machine) =>
    (.error (.execution machine.registers.pc machine.currentLine? fault),
      { session with machine, loaded := false })

/-- One step. The source counts only if nothing is loaded. -/
def singleStep (session : Session) (source : String) : Except SessionError Status × Session :=
  if session.loaded then session.stepLoaded
  else
    match session.load source with
    | (.error error, session) => (.error error, session)
    | (.ok _, session) => session.stepLoaded

def resumeFrom (steps : Nat) : (more : Nat) → Session → Except SessionError Summary × Session
  -- Whatever is not loaded counts as halted, even where an error has unloaded it.
  | 0, session => (.ok ⟨steps, if session.loaded then .paused else .halted⟩, session)
  | more + 1, session =>
    if session.loaded then
      match session.stepLoaded with
      | (.error error, session) => (.error error, session)
      | (.ok .continuing, session) => resumeFrom (steps + 1) more session
      | (.ok .halted, session) => (.ok ⟨steps, .halted⟩, session)
    else
      (.ok ⟨steps, .halted⟩, session)

def resume (session : Session) (limit : Nat) : Except SessionError Summary × Session :=
  resumeFrom 0 limit session

end Session

end ToyComputer
