import ToyComputer.Instruction.Opcode

/-!
The mnemonics: for each of them its encodings in the order in which they are tried, with the kinds of
the operands that they take. What an opcode says of itself agrees with this table.
-/

namespace ToyComputer

structure Encoding where
  opcode : Opcode
  pattern : List Operand.Kind
  deriving DecidableEq, Repr

def Encoding.takes (encoding : Encoding) (operands : List Operand) : Bool :=
  encoding.pattern == operands.map Operand.kind

open Operand.Kind in
def mnemonics : List (String × List Encoding) :=
  [("copy", [⟨.copy .register, [register, register]⟩, ⟨.copy .immediate, [register, value]⟩]),
    ("sb", [⟨.store .byte, [address, register]⟩]),
    ("lb", [⟨.load .byte, [register, address]⟩]),
    ("sw", [⟨.store .word, [address, register]⟩]),
    ("lw", [⟨.load .word, [register, address]⟩]),
    ("add", [⟨.flexible .add .register, [register, register, register]⟩,
      ⟨.flexible .add .immediate, [register, register, value]⟩]),
    ("sub", [⟨.registers .sub, [register, register, register]⟩]),
    ("mul", [⟨.registers .mul, [register, register, register]⟩]),
    ("div", [⟨.registers .div, [register, register, register]⟩]),
    ("mod", [⟨.registers .mod, [register, register, register]⟩]),
    ("neg", [⟨.negate, [register]⟩]),
    ("flow", [⟨.flow, [register]⟩]),
    ("eq", [⟨.registers .eq, [register, register, register]⟩]),
    ("neq", [⟨.registers .neq, [register, register, register]⟩]),
    ("gt", [⟨.registers .gt, [register, register, register]⟩]),
    ("lt", [⟨.registers .lt, [register, register, register]⟩]),
    ("gte", [⟨.registers .gte, [register, register, register]⟩]),
    ("lte", [⟨.registers .lte, [register, register, register]⟩]),
    ("and", [⟨.flexible .and .register, [register, register, register]⟩,
      ⟨.flexible .and .immediate, [register, register, value]⟩]),
    ("or", [⟨.flexible .or .register, [register, register, register]⟩,
      ⟨.flexible .or .immediate, [register, register, value]⟩]),
    ("xor", [⟨.flexible .xor .register, [register, register, register]⟩,
      ⟨.flexible .xor .immediate, [register, register, value]⟩]),
    ("lshift", [⟨.flexible .lshift .register, [register, register, register]⟩,
      ⟨.flexible .lshift .immediate, [register, register, value]⟩]),
    ("zrshift", [⟨.flexible .zrshift .register, [register, register, register]⟩,
      ⟨.flexible .zrshift .immediate, [register, register, value]⟩]),
    ("rshift", [⟨.flexible .rshift .register, [register, register, register]⟩,
      ⟨.flexible .rshift .immediate, [register, register, value]⟩]),
    ("jump", [⟨.jump, [address]⟩]),
    ("zjump", [⟨.jumpIfZero, [register, address]⟩]),
    ("call", [⟨.call, [address]⟩]),
    ("return", [⟨.ret, []⟩])]

/-- The encodings of a mnemonic in the order in which they are tried, if there is such a mnemonic. -/
def encodings? (mnemonic : String) : Option (List Encoding) := mnemonics.lookup mnemonic

namespace Opcode

def encoding (opcode : Opcode) : Encoding := ⟨opcode, opcode.pattern⟩

def alternatives (mnemonic : String) : List Opcode :=
  ((encodings? mnemonic).getD []).map Encoding.opcode

end Opcode

/-- The table tells of each opcode what the opcode tells of itself. -/
theorem mem_encodings? (mnemonic : String) (encoding : Encoding) :
    (∃ encodings ∈ encodings? mnemonic, encoding ∈ encodings) ↔
      encoding.opcode.mnemonic = mnemonic ∧ encoding.pattern = encoding.opcode.pattern := by
  constructor
  · rintro ⟨encodings, known, member⟩
    have rows : ∀ row ∈ mnemonics, ∀ encoding ∈ row.2,
        encoding.opcode.mnemonic = row.1 ∧ encoding.pattern = encoding.opcode.pattern := by
      decide +kernel
    obtain ⟨_, _, table, _⟩ := List.lookup_eq_some_iff.mp known
    exact rows (mnemonic, encodings) (by rw [table]; simp) encoding member
  · obtain ⟨opcode, pattern⟩ := encoding
    rintro ⟨rfl, same⟩
    obtain rfl : pattern = opcode.pattern := same
    have each : ∀ opcode ∈ Opcode.all,
        opcode.encoding ∈ (encodings? opcode.mnemonic).getD [] := by decide +kernel
    have listed := each opcode (Opcode.mem_all opcode)
    cases known : encodings? opcode.mnemonic with
    | none => rw [known] at listed; cases listed
    | some encodings =>
        rw [known] at listed
        exact ⟨encodings, rfl, listed⟩

namespace Opcode

theorem mem_alternatives {opcode : Opcode} {name : String} :
    opcode ∈ alternatives name ↔ opcode.mnemonic = name := by
  have listed : opcode ∈ alternatives name ↔ ∃ encoding,
      (∃ encodings ∈ encodings? name, encoding ∈ encodings) ∧ encoding.opcode = opcode := by
    cases known : encodings? name <;> simp [alternatives, known]
  simp only [listed, mem_encodings?]
  constructor
  · rintro ⟨encoding, ⟨named, _⟩, rfl⟩
    exact named
  · intro named
    exact ⟨opcode.encoding, ⟨named, rfl⟩, rfl⟩

end Opcode

end ToyComputer
