import ToyComputer.Assembly.Operands
import ToyComputer.Assembly.Selection

/-!
Lines of source: an optional label with its colon, and an optional instruction.
-/

namespace ToyComputer.Assembly

structure Line where
  label : Option String
  operation : Option Operation
  deriving DecidableEq, Repr

namespace Line

def dropSpace : List Token → List Token
  | .space :: rest => rest
  | tokens => tokens

/-- Any name can be a label, but the colon has to follow it directly. -/
def takeLabel : List Token → Option String × List Token
  | .identifier name :: .colon :: rest => (some name, rest)
  | tokens => (none, tokens)

def operationOfTokens : List Token → Except SourceError (Option Operation)
  | [] => .ok none
  | .identifier mnemonic :: rest =>
    match operandsOfTokens rest with
    | .error error => .error error
    | .ok operands => (resolve mnemonic operands).map some
  | _ => .error .expectedMnemonic

def ofTokens (tokens : List Token) : Except SourceError Line :=
  let (label, rest) := takeLabel (dropSpace tokens)
  (operationOfTokens (dropSpace rest)).map fun operation => ⟨label, operation⟩

def ofString (text : String) : Except SourceError Line :=
  match Token.ofLine text with
  | .error error => .error error
  | .ok tokens => ofTokens (tokens.map Text.Spanned.content)

end Line

end ToyComputer.Assembly
