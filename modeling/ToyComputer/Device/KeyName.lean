/-!
Key names: what a key event calls a key, and the byte that the machine knows it by.
-/

namespace ToyComputer

def namedKeys : List (String × UInt8) :=
  [("Backspace", 8), ("Tab", 9), ("Enter", 10), ("Escape", 27), ("Space", 32), ("Delete", 127)]

/-- A single ASCII character is its own key; other keys go by their names. -/
def keyCode? (key : String) : Option UInt8 :=
  match key.toList with
  | [c] => if c.toNat < 128 then some (UInt8.ofNat c.toNat) else none
  | _ => namedKeys.lookup key

end ToyComputer
