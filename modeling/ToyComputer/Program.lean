import Std.Data.TreeMap
import ToyComputer.Assembly.LabelTable
import ToyComputer.Instruction.Operation

/-!
Programs: the instructions by address, with the labels that the source defined.
-/

namespace ToyComputer

structure Instruction where
  operation : Operation
  line : Nat
  deriving DecidableEq, Repr

structure Program where
  instructions : Std.TreeMap Word Instruction := ∅
  labels : LabelTable := {}

namespace Program

def empty : Program := {}

instance : Inhabited Program := ⟨empty⟩

/-- Where two instructions have one address, the later one takes its place. -/
def ofList (instructions : List (Word × Instruction)) (labels : LabelTable) : Program :=
  ⟨Std.TreeMap.ofList instructions, labels⟩

def toList (program : Program) : List (Word × Instruction) := program.instructions.toList

def at? (program : Program) (address : Word) : Option Instruction := program.instructions[address]?

def size (program : Program) : Nat := program.instructions.size

def isEmpty (program : Program) : Bool := program.instructions.isEmpty

end Program

end ToyComputer
