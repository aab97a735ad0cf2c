import ToyComputer.Runner.Execute

/-!
Command-line arguments of the runner.
-/

namespace ToyComputer.Runner

structure Arguments where
  file : String
  options : Options := {}
  /-- Whether standard input is typed on the keyboard while the program runs. -/
  stdin : Bool := false

inductive ArgumentError where
  | missingFile
  | surplusFile (argument : String)
  | unknownOption (argument : String)
  | missingValue (option : String)
  | surplusValue (option : String)
  | noStepCount (value : String)
  | expectation (error : ExpectationError)
  deriving DecidableEq, Repr

def usage : String :=
  "usage: toycomputer [-s N | --steps N] [--input TEXT] [--stdin] [--expect REG=VALUE]... " ++
    "[--dump] [--listing] FILE"

def ArgumentError.message : ArgumentError → String
  | missingFile => "missing source file"
  | surplusFile argument => "unexpected argument '" ++ argument ++ "'"
  | unknownOption argument => "unknown option '" ++ argument ++ "'"
  | missingValue option => "option '" ++ option ++ "' needs a value"
  | surplusValue option => "option '" ++ option ++ "' takes no value"
  | noStepCount value => "'" ++ value ++ "' is not a number of steps"
  | expectation error => error.message

namespace Arguments

structure Draft where
  file : Option String := none
  options : Options := {}
  stdin : Bool := false

def setFlag (draft : Draft) (option : String) : Option Draft :=
  match option with
  | "--stdin" => some { draft with stdin := true }
  | "--dump" => some { draft with options := { draft.options with dump := true } }
  | "--listing" => some { draft with options := { draft.options with listing := true } }
  | _ => none

def stepCount? (value : String) : Option Nat :=
  if !value.isEmpty && value.toList.all Char.isDigit then
    let count := Text.numeralValue 10 value.toList
    if count < 0x10000000000000000 then some count else none
  else none

def setValue (draft : Draft) (option : String) : Option (String → Except ArgumentError Draft) :=
  match option with
  | "-s" | "--steps" => some fun value =>
    match stepCount? value with
    | some count => .ok { draft with options := { draft.options with steps := some count } }
    | none => .error (.noStepCount value)
  | "--input" => some fun value =>
    .ok { draft with options := { draft.options with input := value.toUTF8.data.toList } }
  | "--expect" => some fun value =>
    match Expectation.parse value with
    | .ok expected =>
      let expectations := draft.options.expectations ++ [expected]
      .ok { draft with options := { draft.options with expectations } }
    | .error error => .error (.expectation error)
  | _ => none

def setFile (draft : Draft) (argument : String) : Except ArgumentError Draft :=
  match draft.file with
  | none => .ok { draft with file := some argument }
  | some _ => .error (.surplusFile argument)

def splitValue (argument : String) : String × Option String :=
  let isName (c : Char) : Bool := c != '='
  let characters := argument.toList
  let value := (characters.dropWhile isName).tail?
  (String.ofList (characters.takeWhile isName), value.map String.ofList)

/-- What came before the next argument: complete arguments only, or an option whose value is next. -/
inductive Reading where
  | complete (draft : Draft)
  | awaiting (option : String) (set : String → Except ArgumentError Draft)

def readOption (draft : Draft) (argument : String) : Except ArgumentError Reading :=
  let (option, attached) := splitValue argument
  match setFlag draft option, setValue draft option, attached with
  | some draft, _, none => .ok (.complete draft)
  | some _, _, some _ => .error (.surplusValue option)
  | none, some set, some value => (set value).map .complete
  | none, some set, none => .ok (.awaiting option set)
  | none, none, _ => .error (.unknownOption argument)

def readArgument (reading : Reading) (argument : String) : Except ArgumentError Reading :=
  match reading with
  | .awaiting _ set => (set argument).map .complete
  | .complete draft =>
    if argument.startsWith "-" then readOption draft argument
    else (setFile draft argument).map .complete

def parse (arguments : List String) : Except ArgumentError Arguments :=
  match arguments.foldlM readArgument (.complete {}) with
  | .error error => .error error
  | .ok (.awaiting option _) => .error (.missingValue option)
  | .ok (.complete draft) =>
    match draft.file with
    | none => .error .missingFile
    | some file => .ok { file, options := draft.options, stdin := draft.stdin }

end Arguments

end ToyComputer.Runner
