/-!
The registers that an instruction may name. The program counter is not one of them: only jumps,
calls and returns move it.
-/

namespace ToyComputer

inductive Register where
  | r0 | r1 | r2 | r3 | r4 | r5 | r6 | r7 | sp
  deriving DecidableEq, Repr

namespace Register

def all : List Register := [r0, r1, r2, r3, r4, r5, r6, r7, sp]

def index : Register → Fin 9
  | r0 => 0 | r1 => 1 | r2 => 2 | r3 => 3 | r4 => 4 | r5 => 5 | r6 => 6 | r7 => 7 | sp => 8

def name : Register → String
  | r0 => "r0" | r1 => "r1" | r2 => "r2" | r3 => "r3" | r4 => "r4" | r5 => "r5" | r6 => "r6"
  | r7 => "r7" | sp => "sp"

def ofName? (name : String) : Option Register := all.find? fun r => r.name == name

theorem index_inj {r s : Register} : r.index = s.index ↔ r = s := by
  cases r <;> cases s <;> decide

theorem ofName?_name (r : Register) : ofName? r.name = some r := by
  cases r <;> decide

theorem name_of_ofName? {name : String} {r : Register} (found : ofName? name = some r) :
    r.name = name := by
  simpa using List.find?_some found

end Register

end ToyComputer
