import ToyComputer.Session.Run

/-!
Timetables: visitors whose deeds are fixed beforehand, visit by visit.
-/

namespace ToyComputer

structure Timetable where
  keys : List (Nat × UInt8) := []
  pokes : List (Nat × Word × Word) := []
  /-- Keys to type one by one, whenever the keyboard is found empty. -/
  feed : List UInt8 := []
  cancelAt : Option Nat := none

namespace Timetable

inductive Deed where
  | key (accepted : Bool)
  | poke (result : Except Fault Unit)

structure Diary where
  visits : Nat := 0
  feed : List UInt8 := []
  deeds : Array Deed := #[]

def start (timetable : Timetable) : Diary := { feed := timetable.feed }

def due {α : Type} (visits : Nat) (entries : List (Nat × α)) : List α :=
  entries.filterMap fun (visit, entry) => if visit = visits then some entry else none

def pressKeys (memory : Memory) (deeds : Array Deed) : List UInt8 → Memory × Array Deed
  | [] => (memory, deeds)
  | key :: keys =>
    let (accepted, memory) := memory.pushKey key
    pressKeys memory (deeds.push (.key accepted)) keys

def doPokes (memory : Memory) (deeds : Array Deed) : List (Word × Word) → Memory × Array Deed
  | [] => (memory, deeds)
  | (address, value) :: pokes =>
    let (result, memory) := memory.poke address.toNat value
    doPokes memory (deeds.push (.poke result)) pokes

def feedEmpty (memory : Memory) (feed : List UInt8) : Memory × List UInt8 :=
  match feed with
  | [] => (memory, [])
  | key :: rest =>
    if memory.keyboard.isEmpty then ((memory.pushKey key).2, rest) else (memory, feed)

/-- First the keys for this visit, then the pokes, then the feed. -/
def visit (timetable : Timetable) : Visitor Diary := fun diary machine =>
  let (memory, deeds) := pressKeys machine.memory diary.deeds (due diary.visits timetable.keys)
  let (memory, deeds) := doPokes memory deeds (due diary.visits timetable.pokes)
  let (memory, feed) := feedEmpty memory diary.feed
  let signal := if timetable.cancelAt = some diary.visits then .cancel else .proceed
  (signal, { visits := diary.visits + 1, feed, deeds }, memory)

end Timetable

end ToyComputer
