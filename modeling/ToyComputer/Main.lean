import ToyComputer.Runner.Arguments

/-!
The command line: assembles and executes a file, and exits with 1 if that fails and with 2 if the
arguments are wrong.
-/

namespace ToyComputer

open Runner

/-- Collects the bytes of a stream as they come. -/
partial def collect (input : IO.FS.Stream) (arrived : IO.Ref (List UInt8)) : IO Unit := do
  let bytes ← input.read 32
  if bytes.isEmpty then return
  arrived.modify fun waiting => waiting ++ bytes.data.toList
  collect input arrived

def writeOut (output : IO.FS.Stream) (writer : Writer) : IO Unit := do
  unless writer.written.isEmpty do
    output.write ⟨writer.written⟩
    output.flush

/-- Takes turns until the run ends. Between turns, keys that arrived are handed over and output is
passed on. -/
partial def play (output : IO.FS.Stream) (arrived : IO.Ref (List UInt8)) (limit : Option Nat)
    (run : Run Console) : IO (Except SessionError Summary × Run Console) := do
  let keys ← arrived.modifyGet fun waiting => (waiting, [])
  let (result, run) := { run with visitor.arrived := keys }.turn Console.visit limit
  writeOut output run.visitor.writer
  let run := { run with visitor.writer := {} }
  match result with
  | some result => return (result, run)
  | none => play output arrived limit run

def runFile (arguments : Arguments) (source : String) : IO (Except Failure Unit) := do
  let output ← IO.getStdout
  if arguments.options.listing then
    let (result, writer) := writeListing source {}
    writeOut output writer
    return result
  let arrived ← IO.mkRef []
  if arguments.stdin then
    let _ ← IO.asTask (collect (← IO.getStdin) arrived) .dedicated
  let (result, run) ←
    match Run.start Session.fresh source (arguments.options.console [] {}) with
    | (some result, run) => pure (result, run)
    | (none, run) => play output arrived arguments.options.steps run
  let (result, writer) := conclude arguments.options result run
  writeOut output writer
  return result

end ToyComputer

open ToyComputer ToyComputer.Runner in
def main (arguments : List String) : IO UInt32 := do
  match Arguments.parse arguments with
  | .error error =>
    IO.eprintln ("error: " ++ error.message)
    IO.eprintln usage
    return 2
  | .ok arguments =>
    let source ← IO.FS.readFile arguments.file
    match ← runFile arguments source with
    | .ok _ => return 0
    | .error failure =>
      IO.eprintln ("error: " ++ failure.message)
      return 1
