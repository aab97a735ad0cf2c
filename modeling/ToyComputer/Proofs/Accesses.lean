import ToyComputer.Proofs.Loads

/-!
Accesses: the single bytes that an operation moves, one after the other. They are carried out up to
the first one that nothing answers, and there the operation fails.
-/

namespace ToyComputer

/-- One byte that is moved between the machine and whatever answers at an address. -/
inductive Access where
  | read (address : Nat)
  | write (address : Nat) (byte : UInt8)
  deriving DecidableEq, Repr

namespace Access

def address : Access → Nat
  | read address => address
  | write address _ => address

def answered (access : Access) : Bool := (Location.at? access.address).isSome

def reads (address : Nat) : (count : Nat) → List Access
  | 0 => []
  | count + 1 => read address :: reads (address + 1) count

def writes (address : Nat) : List UInt8 → List Access
  | [] => []
  | byte :: bytes => write address byte :: writes (address + 1) bytes

def served (accesses : List Access) : List Access := accesses.takeWhile answered

/-- The first access that nothing answers. -/
def refused? (accesses : List Access) : Option Access :=
  accesses.find? fun access => !access.answered

def result {α : Type} (accesses : List Access) (value : α) : Except Fault α :=
  match refused? accesses with
  | some refused => .error (.illegalAddress refused.address)
  | none => .ok value

section

variable (access : Access) (accesses : List Access)

theorem served_cons (answers : access.answered = true) :
    served (access :: accesses) = access :: served accesses :=
  List.takeWhile_cons_of_pos answers

theorem served_refused (refused : access.answered = false) : served (access :: accesses) = [] :=
  List.takeWhile_cons_of_neg (by simp [refused])

theorem refused?_cons (answers : access.answered = true) :
    refused? (access :: accesses) = refused? accesses :=
  List.find?_cons_of_neg (by simp [answers])

theorem refused?_refused (refused : access.answered = false) :
    refused? (access :: accesses) = some access :=
  List.find?_cons_of_pos (by simp [refused])

theorem result_cons {α : Type} (value : α) (answers : access.answered = true) :
    result (access :: accesses) value = result accesses value := by
  rw [result, refused?_cons access accesses answers, result]

theorem result_refused {α : Type} (value : α) (refused : access.answered = false) :
    result (access :: accesses) value = .error (.illegalAddress access.address) := by
  rw [result, refused?_refused access accesses refused]

theorem split_of_refused (found : refused? accesses = some access) :
    access.answered = false ∧ (∀ earlier ∈ served accesses, earlier.answered = true) ∧
      ∃ rest, accesses = served accesses ++ access :: rest := by
  induction accesses with
  | nil => cases found
  | cons first accesses ih =>
      cases answers : first.answered with
      | false =>
          rw [refused?_refused first accesses answers] at found
          cases found
          rw [served_refused access accesses answers]
          exact ⟨answers, by simp, accesses, rfl⟩
      | true =>
          rw [refused?_cons first accesses answers] at found
          obtain ⟨silent, all, rest, split⟩ := ih found
          rw [served_cons first accesses answers]
          refine ⟨silent, List.forall_mem_cons.mpr ⟨answers, all⟩, rest, ?_⟩
          rw [List.cons_append, ← split]

end

theorem address_reads (address count : Nat) :
    (reads address count).map Access.address = List.range' address count := by
  induction count generalizing address with
  | zero => rfl
  | succ count ih => rw [reads, List.map_cons, ih, List.range'_succ]; rfl

theorem address_writes (address : Nat) (bytes : List UInt8) :
    (writes address bytes).map Access.address = List.range' address bytes.length := by
  induction bytes generalizing address with
  | nil => rfl
  | cons byte bytes ih => rw [writes, List.map_cons, ih, List.length_cons, List.range'_succ]; rfl

theorem ascending_of_consecutive (accesses : List Access) (start count : Nat)
    (consecutive : accesses.map Access.address = List.range' start count) :
    accesses.Pairwise fun earlier later => earlier.address < later.address := by
  rw [← List.pairwise_map, consecutive]
  exact List.pairwise_lt_range'

end Access

namespace Memory

/-- What an access leaves of memory, whether anything answers it or not. -/
def access (memory : Memory) : Access → Memory
  | .read address => (memory.read address).2
  | .write address byte => (memory.write address byte).2

def accessAll (memory : Memory) (accesses : List Access) : Memory := accesses.foldl access memory

theorem read_outcome (memory : Memory) (address : Nat) :
    ((Access.read address).answered = false ∧
      memory.read address = (.error (.illegalAddress address), memory)) ∨
    ((Access.read address).answered = true ∧
      ∃ word, memory.read address = (.ok word, memory.access (.read address))) := by
  rcases read_cases memory address with ⟨none, refused⟩ | ⟨_, word, _, found, done, _⟩
  · exact Or.inl ⟨by simp [Access.answered, Access.address, none], refused⟩
  · exact Or.inr ⟨by simp [Access.answered, Access.address, found], word, by simp [access, done]⟩

theorem write_outcome (memory : Memory) (address : Nat) (byte : UInt8) :
    ((Access.write address byte).answered = false ∧
      memory.write address byte = (.error (.illegalAddress address), memory)) ∨
    ((Access.write address byte).answered = true ∧
      memory.write address byte = (.ok (), memory.access (.write address byte))) := by
  rcases write_cases memory address byte with ⟨none, refused⟩ | ⟨_, _, found, done, _⟩
  · exact Or.inl ⟨by simp [Access.answered, Access.address, none], refused⟩
  · exact Or.inr ⟨by simp [Access.answered, Access.address, found], by simp [access, done]⟩

theorem writeBytes_eq (memory : Memory) (address : Nat) (bytes : List UInt8) :
    memory.writeBytes address bytes =
      (Access.result (Access.writes address bytes) (),
        memory.accessAll (Access.served (Access.writes address bytes))) := by
  induction bytes generalizing memory address with
  | nil => rfl
  | cons byte bytes ih =>
      rw [Access.writes]
      rcases write_outcome memory address byte with ⟨silent, refused⟩ | ⟨answers, done⟩
      · rw [Access.served_refused _ _ silent, Access.result_refused _ _ _ silent]
        simp only [writeBytes, refused]
        rfl
      · rw [Access.served_cons _ _ answers, Access.result_cons _ _ _ answers]
        simp only [writeBytes, done, ih]
        rfl

theorem readBytes_eq (memory : Memory) (address count : Nat) :
    ∃ bytes, memory.readBytes address count =
      (Access.result (Access.reads address count) bytes,
        memory.accessAll (Access.served (Access.reads address count))) := by
  induction count generalizing memory address with
  | zero => exact ⟨[], rfl⟩
  | succ count ih =>
      rw [Access.reads]
      rcases read_outcome memory address with ⟨silent, refused⟩ | ⟨answers, word, done⟩
      · rw [Access.served_refused _ _ silent]
        simp only [Access.result_refused _ _ _ silent, readBytes, refused]
        exact ⟨[], rfl⟩
      · obtain ⟨bytes, rest⟩ := ih (memory.access (.read address)) (address + 1)
        rw [Access.served_cons _ _ answers]
        refine ⟨word.lowestByte :: bytes, ?_⟩
        simp only [readBytes, done, rest, Access.result_cons _ _ _ answers]
        unfold Access.result
        cases Access.refused? (Access.reads (address + 1) count) <;> rfl

theorem readWord_eq (memory : Memory) (address : Nat) :
    ∃ word, memory.readWord address =
      (Access.result (Access.reads address 4) word,
        memory.accessAll (Access.served (Access.reads address 4))) := by
  obtain ⟨bytes, done⟩ := readBytes_eq memory address 4
  refine ⟨Word.ofBytes bytes, ?_⟩
  rw [readWord, done]
  unfold Access.result
  cases Access.refused? (Access.reads address 4) <;> rfl

theorem load_eq (memory : Memory) (width : Width) (address : Word) :
    ∃ word, memory.load width address =
      (Access.result (Access.reads address.toNat width.bytes) word,
        memory.accessAll (Access.served (Access.reads address.toNat width.bytes))) := by
  cases width with
  | word => exact readWord_eq memory address.toNat
  | byte =>
      simp only [load, Width.bytes, Access.reads]
      rcases read_outcome memory address.toNat with ⟨silent, refused⟩ | ⟨answers, word, done⟩
      · rw [Access.served_refused _ _ silent, refused]
        exact ⟨0, by rw [Access.result_refused _ _ _ silent]; rfl⟩
      · rw [Access.served_cons _ _ answers, done]
        exact ⟨word, by rw [Access.result_cons _ _ _ answers]; rfl⟩

end Memory

namespace Machine

/-- The accesses that an operation sets out to make. One whose address cannot be told makes none. -/
def accessesOf (machine : Machine) (next : Word) : Operation → List Access
  | .store width target source =>
    match machine.effectiveAddress target with
    | .error _ => []
    | .ok address =>
      let value := machine.registers.get source
      Access.writes address.toNat (match width with
        | .byte => [value.lowestByte]
        | .word => value.bytes)
  | .load width _ source =>
    match machine.effectiveAddress source with
    | .error _ => []
    | .ok address => Access.reads address.toNat width.bytes
  | .call target =>
    match machine.effectiveAddress target with
    | .error _ => []
    | .ok _ => Access.writes (machine.registers.get .sp).toNat next.bytes
  | .ret => Access.reads (machine.registers.get .sp - 4).toNat 4
  | _ => []

/-- Whatever becomes of an operation, it makes its accesses up to the one that is refused, and
changes nothing else in memory. -/
theorem memoryAfter_eq (machine : Machine) (next : Word) (operation : Operation) :
    machine.memoryAfter next operation =
      machine.memory.accessAll (Access.served (machine.accessesOf next operation)) := by
  cases operation with
  | copy target source | flexible op target left right | registers op target left right
  | negate register | flow target | jump target | jumpIfZero register target => rfl
  | store width target source =>
      simp only [memoryAfter, accessesOf]
      rcases machine.effectiveAddress target with fault | address
      · rfl
      · cases width <;> simp only [Memory.store_eq, Memory.writeBytes_eq]
  | load width target source =>
      simp only [memoryAfter, accessesOf]
      rcases machine.effectiveAddress source with fault | address
      · rfl
      · obtain ⟨word, loaded⟩ := machine.memory.load_eq width address
        simp only [loaded]
  | call target =>
      simp only [memoryAfter, accessesOf]
      rcases machine.effectiveAddress target with fault | address
      · rfl
      · simp only [Memory.writeWord, Memory.writeBytes_eq]
  | ret =>
      obtain ⟨word, loaded⟩ := machine.memory.readWord_eq (machine.registers.get .sp - 4).toNat
      simp only [memoryAfter, accessesOf, loaded]

end Machine

end ToyComputer
