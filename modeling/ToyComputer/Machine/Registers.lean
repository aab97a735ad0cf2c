import ToyComputer.Instruction.Register
import ToyComputer.Text.Column
import ToyComputer.Word

/-!
The register file, and the table that shows it.
-/

namespace ToyComputer

structure Registers where
  general : Vector Word 9
  pc : Word
  deriving DecidableEq, Repr

namespace Registers

/-- The stack grows upwards from here. -/
def stackStart : Word := 0xF0000000

def initial : Registers := ⟨(Vector.replicate 9 0).set Register.sp.index stackStart, 0⟩

instance : Inhabited Registers := ⟨initial⟩

def get (registers : Registers) (register : Register) : Word := registers.general[register.index]

def set (registers : Registers) (register : Register) (value : Word) : Registers :=
  { registers with general := registers.general.set register.index value }

def values (registers : Registers) : List Word := registers.general.toList

def tableRow (name : String) (value : Word) : String :=
  let signed :=
    match value.negative? with
    | some negative => " (" ++ toString negative ++ ")"
    | none => ""
  Text.alignRight 3 name ++ ": " ++ value.hex ++ " " ++
    Text.alignRight 10 (toString value.toNat) ++ signed ++ "\n"

def table (registers : Registers) : String :=
  String.join (Register.all.map fun r => tableRow r.name (registers.get r)) ++
    tableRow "pc" registers.pc

@[simp] theorem get_set_self (registers : Registers) (r : Register) (value : Word) :
    (registers.set r value).get r = value := by
  simp [get, set]

theorem get_set_of_ne (registers : Registers) {r s : Register} (value : Word) (distinct : r ≠ s) :
    (registers.set r value).get s = registers.get s := by
  have : (r.index : Nat) ≠ s.index := fun same =>
    distinct (Register.index_inj.mp (Fin.ext same))
  simp [get, set, this]

end Registers

end ToyComputer
