/-!
Bytes as text.
-/

namespace ToyComputer.Text

def latin1 (bytes : List UInt8) : String :=
  String.ofList (bytes.map fun byte => Char.ofNat byte.toNat)

end ToyComputer.Text
