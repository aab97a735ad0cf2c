/-!
Writers: where output goes. A writer may have room for so many bytes only.
-/

namespace ToyComputer

structure Writer where
  written : Array UInt8 := #[]
  capacity : Option Nat := none
  deriving DecidableEq, Repr

namespace Writer

def room (writer : Writer) (count : Nat) : Nat :=
  match writer.capacity with
  | none => count
  | some capacity => min count (capacity - writer.written.size)

def write (writer : Writer) (bytes : List UInt8) : Bool × Writer :=
  let count := writer.room bytes.length
  (count == bytes.length, { writer with written := writer.written ++ (bytes.take count).toArray })

def writeText (writer : Writer) (text : String) : Bool × Writer :=
  writer.write text.toUTF8.data.toList

end Writer

end ToyComputer
