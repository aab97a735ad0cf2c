import ToyComputer.Assembly.Token
import ToyComputer.Text.WhiteSpace
import ToyComputer.Text.WordCharacter

/-!
Expectations: what a register should hold in the end, written as `REG=VALUE`.
-/

namespace ToyComputer

structure Expectation where
  register : Register
  value : Word
  deriving DecidableEq, Repr

inductive ExpectationError where
  | malformed (text : String)
  | noRegister (name : String)
  | noNumber (text : String)
  deriving DecidableEq, Repr

def ExpectationError.message : ExpectationError → String
  | malformed text => "expected REG=VALUE, got '" ++ text ++ "'"
  | noRegister name => "'" ++ name ++ "' is not a general register"
  | noNumber text => "'" ++ text ++ "' is not a number"

namespace Expectation

open Text

def dropSpace (text : List Char) : List Char := text.dropWhile isWhiteSpace

/-- The two sides of the equals sign, with white space around each left out: a word, and a text
without white space. -/
def sides? (text : List Char) : Option (List Char × List Char) :=
  let text := dropSpace text
  let word := text.takeWhile isWordCharacter
  match dropSpace (text.dropWhile isWordCharacter) with
  | '=' :: rest =>
    let rest := dropSpace rest
    let value := rest.takeWhile fun c => !isWhiteSpace c
    if word.isEmpty || value.isEmpty || !(dropSpace (rest.drop value.length)).isEmpty then none
    else some (word, value)
  | _ => none

def parse (text : String) : Except ExpectationError Expectation :=
  match sides? text.toList with
  | none => .error (.malformed text)
  | some (word, value) =>
    match Register.ofName? (String.ofList word) with
    | none => .error (.noRegister (String.ofList word))
    | some register =>
      match Assembly.literal? (String.ofList value) with
      | none => .error (.noNumber (String.ofList value))
      | some value => .ok ⟨register, value⟩

end Expectation

end ToyComputer
