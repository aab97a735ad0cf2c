/-!
Columns of text.
-/

namespace ToyComputer.Text

def alignRight (width : Nat) (text : String) : String :=
  String.ofList (text.toList.leftpad width ' ')

end ToyComputer.Text
