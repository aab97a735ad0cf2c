import ToyComputer.Device.KeyName
import ToyComputer.Session

/-!
The front panel: what a screen with a source, buttons and a keyboard needs of a session.
-/

namespace ToyComputer.Panel

def step (session : Session) (source : String) : Except SessionError Bool × Session :=
  let (result, session) := session.singleStep source
  (result.map fun status => status == .continuing, session)

/-- The steps of one frame of animation, and whether there may be more. -/
def tick (session : Session) (steps : Nat) : Except SessionError Bool × Session :=
  let (result, session) := session.resume steps
  (result.map fun summary => summary.outcome != .halted, session)

def pressKey (session : Session) (key : String) : Bool × Session :=
  match keyCode? key with
  | some code => session.pushKey code
  | none => (false, session)

end ToyComputer.Panel
