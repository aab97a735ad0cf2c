import ToyComputer.Text.Latin1

/-!
The display: bytes are added at its end, and when it holds too many the oldest ones go.
-/

namespace ToyComputer

/-- The bytes that are still shown, and how many were ever written. -/
structure Display where
  bytes : Array UInt8 := #[]
  written : Nat := 0
  deriving DecidableEq, Repr

namespace Display

def capacity : Nat := 1000

/-- Adds a byte. A display that is over full loses half of its capacity at once. -/
def push (display : Display) (byte : UInt8) : Display :=
  let bytes := display.bytes.push byte
  { bytes := if capacity < bytes.size then bytes.extract (capacity / 2) else bytes
    written := display.written + 1 }

def pushAll (display : Display) (bytes : List UInt8) : Display := bytes.foldl push display

def since (display : Display) (seen : Nat) : List UInt8 :=
  (display.bytes.extract (display.bytes.size - (display.written - seen))).toList

def text (display : Display) : String := Text.latin1 display.bytes.toList

end Display

end ToyComputer
