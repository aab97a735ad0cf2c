import ToyComputer.Program.Listing
import ToyComputer.Runner.Expectation
import ToyComputer.Runner.Writer
import ToyComputer.Session.Run

/-!
The runner: executes a source while it types input on the keyboard and copies the display to a
writer, or writes the listing instead.
-/

namespace ToyComputer

namespace Runner

structure Options where
  /-- Fail if the program does not halt within this many steps. -/
  steps : Option Nat := none
  /-- Keys that are typed as soon as the keyboard has room for them. -/
  input : List UInt8 := []
  expectations : List Expectation := []
  /-- Write the register table in the end. -/
  dump : Bool := false
  /-- Write the listing and execute nothing. -/
  listing : Bool := false

inductive Failure where
  | assembly (error : AssemblyError)
  | session (error : SessionError)
  | comparison (expected : Expectation) (actual : Word)
  | writerFull
  deriving DecidableEq, Repr

def comparisonMessage (expected : Expectation) (actual : Word) : String :=
  let shown (word : Word) := word.hex ++ " (" ++ toString word.toNat ++ ")"
  "Expected " ++ expected.register.name ++ " to be " ++ shown expected.value ++ ", but it is " ++
    shown actual

def Failure.message : Failure → String
  | assembly error => error.message
  | session error => error.message
  | comparison expected actual => comparisonMessage expected actual
  | writerFull => "writer is full"

/-- What the runner does to a machine between its steps: the input not typed yet, the keys that
arrived meanwhile, how much of the display's output was copied, and where to. -/
structure Console where
  input : List UInt8 := []
  arrived : List UInt8 := []
  seen : Nat := 0
  writer : Writer := {}
  failed : Bool := false

namespace Console

/-- Types keys as long as the keyboard has room, and gives its answers. The rest waits. -/
def typeInput (keyboard : Keyboard) : List UInt8 → List Bool × Keyboard × List UInt8
  | [] => ([], keyboard, [])
  | key :: keys =>
    if keyboard.size < keyboardCapacity then
      let (accepted, keyboard) := keyboard.push key
      let (others, keyboard, rest) := typeInput keyboard keys
      (accepted :: others, keyboard, rest)
    else ([], keyboard, key :: keys)

def copyDisplay (console : Console) (display : Display) : Console :=
  match display.since console.seen with
  | [] => console
  | fresh =>
    match console.writer.write fresh with
    | (true, writer) => { console with writer, seen := display.written }
    | (false, writer) => { console with writer, failed := true }

/-- Types the input that fits and all keys that arrived, whether they fit or not, and copies the
display. A writer that fails ends the run. -/
def visit : Visitor Console := fun console machine =>
  let (_, keyboard, input) := typeInput machine.memory.keyboard console.input
  let (_, keyboard) := keyboard.pushAll console.arrived
  let console := copyDisplay { console with input, arrived := [] } machine.memory.display
  (if console.failed then .cancel else .proceed, console, { machine.memory with keyboard })

end Console

def checkExpectations (registers : Registers) : List Expectation → Except Failure Unit
  | [] => .ok ()
  | expected :: rest =>
    let actual := registers.get expected.register
    if actual = expected.value then checkExpectations registers rest
    else .error (.comparison expected actual)

def writeAll (writer : Writer) : List (List UInt8) → Bool × Writer
  | [] => (true, writer)
  | bytes :: rest =>
    match writer.write bytes with
    | (true, writer) => writeAll writer rest
    | (false, writer) => (false, writer)

/-- What is left to do after a run: the last of the display, which a failing instruction may still
have written, the register table, and the expectations if the run succeeded. -/
def conclude (options : Options) (result : Except SessionError Summary) (run : Run Console) :
    Except Failure Unit × Writer :=
  let console := run.visitor
  let machine := run.session.machine
  if console.failed then (.error .writerFull, console.writer)
  else
    let table := if options.dump then machine.registers.table.toUTF8.data.toList else []
    match writeAll console.writer [machine.memory.display.since console.seen, table] with
    | (false, writer) => (.error .writerFull, writer)
    | (true, writer) =>
      match result with
      | .error error => (.error (.session error), writer)
      | .ok _ => (checkExpectations machine.registers options.expectations, writer)

def writeListing (source : String) (writer : Writer) : Except Failure Unit × Writer :=
  match Assembly.assemble source with
  | .error error => (.error (.assembly error), writer)
  | .ok program =>
    match writer.writeText (String.join (program.listing.map fun row => row ++ "\n")) with
    | (true, writer) => (.ok (), writer)
    | (false, writer) => (.error .writerFull, writer)

def Options.console (options : Options) (arrived : List UInt8) (writer : Writer) : Console :=
  { input := options.input, arrived, writer }

/-- Does what the options ask for, in up to `count` turns; the result is missing if the program has
not ended by then. -/
def execute (source : String) (options : Options) (arrived : List UInt8) (writer : Writer)
    (count : Nat) : Option (Except Failure Unit × Writer) :=
  if options.listing then some (writeListing source writer)
  else
    match Session.fresh.run source options.steps Console.visit (options.console arrived writer)
        count with
    | (some result, run) => some (conclude options result run)
    | (none, _) => none

end Runner

end ToyComputer
