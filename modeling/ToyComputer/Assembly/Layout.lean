import ToyComputer.Assembly.Line
import ToyComputer.Program
import ToyComputer.Text.Lines

/-!
Assembling: a first pass over the lines gives every instruction and label its address, a second one
puts the addresses of labels into the instructions that refer to them.
-/

namespace ToyComputer.Assembly

/-- What is known after some lines: how many bytes they take up, the labels that they define, and
their instructions in order. -/
structure Layout where
  next : Nat := 0
  labels : LabelTable := {}
  placed : Array (Word × Instruction) := #[]

/-- The address of what comes after `next` bytes. The program's end itself may lie beyond the last
address. -/
def placement (next : Nat) : Except SourceError Word :=
  if next < 0x100000000 then .ok (UInt32.ofNat next) else .error .programTooLarge

namespace Layout

def addLabel (layout : Layout) : Option String → Except SourceError Layout
  | none => .ok layout
  | some label =>
    match placement layout.next with
    | .error error => .error error
    | .ok address =>
      (layout.labels.define label address).map fun labels => { layout with labels }

def addOperation (layout : Layout) (index : Nat) : Option Operation → Except SourceError Layout
  | none => .ok layout
  | some operation =>
    (placement layout.next).map fun address =>
      { layout with
        next := layout.next + operation.size
        placed := layout.placed.push (address, ⟨operation, index⟩) }

def addLine (layout : Layout) (text : String) (index : Nat) : Except SourceError Layout :=
  match Line.ofString text with
  | .error error => .error error
  | .ok line =>
    match layout.addLabel line.label with
    | .error error => .error error
    | .ok layout => layout.addOperation index line.operation

def ofLines (lines : List String) : Except AssemblyError Layout :=
  lines.zipIdx.foldlM (fun layout (text, index) =>
    (layout.addLine text index).mapError fun cause => ⟨index, cause⟩) {}

end Layout

/-- Puts the address of the label that an instruction refers to in the place of its name. -/
def link (labels : LabelTable) (instruction : Instruction) : Except AssemblyError Instruction :=
  match instruction.operation.address? with
  | none => .ok instruction
  | some address =>
    match address.label? with
    | none => .ok instruction
    | some label =>
      match labels.lookup label with
      | none => .error ⟨instruction.line, .undefinedLabel label⟩
      | some target =>
        .ok { instruction with
          operation := instruction.operation.withAddress (address.withOffset target) }

def linkAll (labels : LabelTable) (placed : List (Word × Instruction)) :
    Except AssemblyError (List (Word × Instruction)) :=
  placed.mapM fun (address, instruction) => (link labels instruction).map fun linked => (address, linked)

def Layout.program (layout : Layout) : Program := Program.ofList layout.placed.toList layout.labels

/-- Assembles a source text, giving up at the first error. The second pass goes through the
instructions by ascending address. -/
def assemble (source : String) : Except AssemblyError Program :=
  match Layout.ofLines (Text.lines source) with
  | .error error => .error error
  | .ok layout =>
    (linkAll layout.labels layout.program.toList).map fun linked =>
      Program.ofList linked layout.labels

end ToyComputer.Assembly
