import Mathlib.Data.List.TakeWhile
import ToyComputer.Proofs.Accesses
import ToyComputer.Proofs.Cells

/-!
Word accesses: a word is moved as four bytes, the most significant first, up to the first address that
nothing answers. The borders of the devices, of general memory and of the address space all show in
how far that is.
-/

namespace ToyComputer

def Accessible (address : Nat) : Prop :=
  0x40000000 ≤ address ∧ address < 0x100000000 ∨ 0x20000000 ≤ address ∧ address ≤ 0x20000003

instance (address : Nat) : Decidable (Accessible address) := inferInstanceAs (Decidable (_ ∨ _))

/-- So many of the four bytes from an address on are accessible before the first one that is not. -/
structure Reaches (address count : Nat) : Prop where
  within : count ≤ 4
  answered : ∀ offset < count, Accessible (address + offset)
  stopped : count < 4 → ¬Accessible (address + count)

def bigEndian (bytes : List UInt8) : Nat :=
  bytes.foldl (fun number byte => number * 256 + byte.toNat) 0

namespace Reaches

variable {address count : Nat}

theorem unique {other : Nat} (one : Reaches address count) (two : Reaches address other) :
    count = other := by
  rcases Nat.lt_trichotomy count other with less | same | more
  · exact absurd (two.answered count less) (one.stopped (Nat.lt_of_lt_of_le less two.within))
  · exact same
  · exact absurd (one.answered other more) (two.stopped (Nat.lt_of_lt_of_le more one.within))

theorem whole_iff (reaches : Reaches address count) :
    count = 4 ↔ address = 0x20000000 ∨ 0x40000000 ≤ address ∧ address ≤ 0xFFFFFFFC := by
  -- The devices have just the room for one word.
  obtain ⟨within, answered, stopped⟩ := reaches
  constructor
  · rintro rfl
    have first := answered 0 (by decide)
    have last := answered 3 (by decide)
    unfold Accessible at first last
    omega
  · intro place
    refine Nat.le_antisymm within (Nat.le_of_not_lt fun short => stopped short ?_)
    unfold Accessible
    omega

theorem end_of_memory (reaches : Reaches address count) (high : 0xFFFFFFFC < address)
    (inside : address < 0x100000000) : address + count = 0x100000000 := by
  obtain ⟨within, answered, stopped⟩ := reaches
  have above (offset : Nat) (reached : offset < count) : address + offset < 0x100000000 := by
    have access := answered offset reached
    unfold Accessible at access
    omega
  rcases Nat.lt_or_ge count 4 with short | whole
  · have silent := stopped short
    unfold Accessible at silent
    rcases Nat.eq_zero_or_pos count with rfl | some
    · omega
    · have last := above (count - 1) (by omega)
      omega
  · have last := above 3 (by omega)
    omega

end Reaches

namespace Word

theorem append_byte (word : Word) (byte : UInt8) (small : word.toNat < 0x1000000) :
    (word <<< 8 ||| byte.toUInt32).toNat = word.toNat * 256 + byte.toNat := by
  have low : byte.toNat < 2 ^ 8 := byte.toNat_lt
  have fits : word.toNat * 2 ^ 8 < 2 ^ 32 := by omega
  calc
    _ = word.toNat <<< 8 % 2 ^ 32 ||| byte.toNat := by
      simp
    _ = word.toNat <<< 8 ||| byte.toNat := by
      rw [Nat.mod_eq_of_lt]
      simpa [Nat.shiftLeft_eq] using fits
    _ = word.toNat <<< 8 + byte.toNat := (Nat.shiftLeft_add_eq_or_of_lt low _).symm
    _ = word.toNat * 256 + byte.toNat := by
      rw [Nat.shiftLeft_eq]

theorem toNat_ofBytes (bytes : List UInt8) (four : bytes.length = 4) :
    (ofBytes bytes).toNat = bigEndian bytes := by
  obtain ⟨a, b, c, d, rfl⟩ : ∃ a b c d, bytes = [a, b, c, d] := by
    rcases bytes with _ | ⟨a, _ | ⟨b, _ | ⟨c, _ | ⟨d, _ | ⟨_, _⟩⟩⟩⟩⟩
    all_goals simp at four
    exact ⟨a, b, c, d, rfl⟩
  have bounds := And.intro a.toNat_lt (And.intro b.toNat_lt c.toNat_lt)
  have zero : (0 : Word).toNat = 0 := rfl
  have first := append_byte 0 a (by decide)
  rw [zero, Nat.zero_mul, Nat.zero_add] at first
  have second := append_byte ((0 : Word) <<< 8 ||| a.toUInt32) b (by rw [first]; omega)
  have third := append_byte _ c (by rw [second, first]; omega)
  have fourth := append_byte _ d (by rw [third, second, first]; omega)
  simp only [ofBytes, bigEndian, List.foldl_cons, List.foldl_nil]
  rw [fourth, third, second, first, Nat.zero_mul, Nat.zero_add]

theorem bigEndian_bytes (word : Word) : word.bytes.length = 4 ∧ bigEndian word.bytes = word.toNat := by
  have value := toNat_ofBytes word.bytes rfl
  rw [ofBytes_bytes] at value
  exact ⟨rfl, value.symm⟩

end Word

namespace Access

theorem answered_iff (access : Access) : access.answered = true ↔ Accessible access.address := by
  unfold answered Location.at? Accessible Location.memoryStart Location.memoryEnd
  generalize access.address = address
  split
  · next inside => simp [inside]
  · next outside =>
      split
      · decide
      · decide
      · decide
      · decide
      · next first second third fourth =>
          have apart : address ≠ 0x20000000 ∧ address ≠ 0x20000001 ∧ address ≠ 0x20000002 ∧
              address ≠ 0x20000003 := ⟨first, second, third, fourth⟩
          simp only [Option.isSome_none, Bool.false_eq_true, false_iff]
          omega

section

variable (accesses : List Access) (start : Nat)
  (consecutive : accesses.map Access.address = List.range' start 4)

include consecutive

theorem length_of_consecutive : accesses.length = 4 := by
  calc
    _ = (accesses.map Access.address).length := (List.length_map _).symm
    _ = (List.range' start 4).length := by rw [consecutive]
    _ = 4 := List.length_range'

theorem address_of_consecutive (offset : Nat) (access : Access)
    (found : accesses[offset]? = some access) : access.address = start + offset := by
  have inside : offset < 4 := by
    rw [← length_of_consecutive accesses start consecutive]
    exact (List.getElem?_eq_some_iff.mp found).1
  have mapped := congrArg (fun addresses => addresses[offset]?) consecutive
  simp only [List.getElem?_map, found, Option.map_some, List.getElem?_range' inside] at mapped
  have same := Option.some.inj mapped
  omega

theorem served_cases :
    (refused? accesses = none ∧ served accesses = accesses) ∨
    (∃ access, refused? accesses = some access ∧ access.answered = false ∧
      access.address = start + (served accesses).length ∧ (served accesses).length < 4) := by
  cases found : refused? accesses with
  | none =>
      left
      refine ⟨rfl, List.takeWhile_eq_self_iff.mpr ?_⟩
      intro access member
      simpa using List.find?_eq_none.mp found access member
  | some access =>
      right
      obtain ⟨silent, _, rest, split⟩ := split_of_refused access accesses found
      have here : accesses[(served accesses).length]? = some access := by
        have behind : (served accesses ++ access :: rest)[(served accesses).length]? =
            (access :: rest)[(served accesses).length - (served accesses).length]? :=
          List.getElem?_append_right (Nat.le_refl _)
        rw [← split, Nat.sub_self] at behind
        exact behind
      refine ⟨access, rfl, silent, address_of_consecutive accesses start consecutive _ _ here, ?_⟩
      rw [← length_of_consecutive accesses start consecutive]
      exact (List.getElem?_eq_some_iff.mp here).1

theorem reaches_served : Reaches start (served accesses).length := by
  have front : served accesses <+: accesses := List.takeWhile_prefix _
  have length := length_of_consecutive accesses start consecutive
  refine ⟨length ▸ front.length_le, ?_, ?_⟩
  · intro offset inside
    have found : accesses[offset]? = some (served accesses)[offset] := by
      rw [List.prefix_iff_getElem?.mp front offset inside]
    rw [← address_of_consecutive accesses start consecutive offset _ found, ← answered_iff]
    exact List.mem_takeWhile_imp (List.getElem_mem inside)
  · intro short
    rcases served_cases accesses start consecutive with ⟨_, all⟩ | ⟨access, _, silent, place, _⟩
    · rw [all, length] at short
      exact absurd short (Nat.lt_irrefl 4)
    · rw [← place, ← answered_iff, silent]
      exact Bool.false_ne_true

theorem result_of_consecutive {α : Type} (value : α) :
    result accesses value =
      if (served accesses).length < 4 then
        .error (.illegalAddress (start + (served accesses).length))
      else .ok value := by
  rcases served_cases accesses start consecutive with ⟨none, all⟩ | ⟨access, found, _, place, short⟩
  · have length := length_of_consecutive accesses start consecutive
    rw [result, none, all, length, if_neg (Nat.lt_irrefl 4)]
  · simp only [result, found, if_pos short, place]

end

end Access

namespace Memory

theorem memory_read (memory : Memory) (address : Nat) :
    (memory.read address).2 =
      if address = keyboardData then { memory with keyboard := memory.keyboard.pop.2 }
      else memory := by
  by_cases here : address = keyboardData
  · rw [if_pos here, here]
    rfl
  · rw [if_neg here]
    unfold read
    split
    · rfl
    · rfl
    · rfl
    · next found => exact absurd ((at?_eq_keyboardData address).mp found) here
    · rfl
    · rfl

theorem accessAll_append (memory : Memory) (first second : List Access) :
    memory.accessAll (first ++ second) = (memory.accessAll first).accessAll second :=
  List.foldl_append

end Memory

theorem Access.reads_succ (address count : Nat) :
    reads address (count + 1) = reads address count ++ [.read (address + count)] := by
  induction count generalizing address with
  | zero => rfl
  | succ count ih =>
      rw [reads, ih (address + 1), reads, List.cons_append, Nat.add_right_comm, Nat.add_assoc]

theorem Access.take_reads (address count total : Nat) (within : count ≤ total) :
    (reads address total).take count = reads address count := by
  induction total generalizing address count with
  | zero => rw [Nat.le_zero.mp within]; rfl
  | succ total ih =>
      cases count with
      | zero => rfl
      | succ count =>
          rw [reads, List.take_succ_cons, ih _ _ (Nat.le_of_succ_le_succ within), reads]

namespace Memory

theorem accessAll_reads (memory : Memory) (address count : Nat) :
    memory.accessAll (Access.reads address count) =
      if address ≤ keyboardData ∧ keyboardData < address + count then
        { memory with keyboard := memory.keyboard.pop.2 }
      else memory := by
  induction count with
  | zero => exact (if_neg (by omega)).symm
  | succ count ih =>
      rw [Access.reads_succ, accessAll_append, ih]
      simp only [accessAll, List.foldl_cons, List.foldl_nil, access, memory_read]
      by_cases here : address + count = keyboardData
      · rw [if_pos here, if_neg (by omega), if_pos (by omega)]
      · rw [if_neg here]
        by_cases before : address ≤ keyboardData ∧ keyboardData < address + count
        · rw [if_pos before, if_pos (by omega)]
        · rw [if_neg before, if_neg (by omega)]

theorem cells_write_of_ne (memory : Memory) (address place : Nat) (byte : UInt8)
    (apart : address ≠ place) :
    (memory.write address byte).2.cells[place]? = memory.cells[place]? := by
  unfold write
  split
  · rfl
  · simp [Std.TreeMap.getElem?_insert, apart]
  all_goals rfl

theorem cells_writeBytes (memory : Memory) (address place : Nat) (bytes : List UInt8)
    (apart : place < address ∨ address + bytes.length ≤ place) :
    (memory.writeBytes address bytes).2.cells[place]? = memory.cells[place]? := by
  induction bytes generalizing memory address with
  | nil => rfl
  | cons byte bytes ih =>
      rw [List.length_cons] at apart
      have first := memory.cells_write_of_ne address place byte (by omega)
      rw [writeBytes]
      split
      · next refused => rw [refused] at first; exact first
      · next done =>
          rw [done] at first
          exact (ih _ (address + 1) (by omega)).trans first

/-- What is read for each byte is the lowest byte of what its address gives, when those before it
were read. -/
theorem readBytes_parts (memory after : Memory) (address count : Nat) (bytes : List UInt8)
    (done : memory.readBytes address count = (.ok bytes, after)) :
    bytes.length = count ∧ ∀ offset < count, ∃ part : Word,
      ((memory.accessAll (Access.reads address offset)).read (address + offset)).1 = .ok part ∧
        bytes[offset]? = some part.lowestByte := by
  induction count generalizing memory address bytes with
  | zero =>
      cases done
      exact ⟨rfl, fun offset inside => absurd inside (Nat.not_lt_zero offset)⟩
  | succ count ih =>
      rw [readBytes] at done
      split at done
      · cases done
      · next word middle first =>
          split at done
          · cases done
          · next rest last more =>
              cases done
              obtain ⟨length, parts⟩ := ih middle (address + 1) rest more
              refine ⟨by rw [List.length_cons, length], ?_⟩
              intro offset inside
              cases offset with
              | zero => exact ⟨word, congrArg Prod.fst first, rfl⟩
              | succ offset =>
                  obtain ⟨part, given, held⟩ := parts offset (Nat.lt_of_succ_lt_succ inside)
                  refine ⟨part, ?_, held⟩
                  have moved : memory.access (.read address) = middle := congrArg Prod.snd first
                  rw [Access.reads, accessAll, List.foldl_cons, moved, ← accessAll,
                    Nat.add_comm offset 1, ← Nat.add_assoc]
                  exact given

theorem served_eq_take (accesses : List Access) :
    Access.served accesses = accesses.take (Access.served accesses).length :=
  List.prefix_iff_eq_take.mp (List.takeWhile_prefix _)

theorem writeWord_exact (memory : Memory) (address count : Nat) (word : Word)
    (reaches : Reaches address count) :
    memory.writeWord address word =
      (if count < 4 then .error (.illegalAddress (address + count)) else .ok (),
        memory.accessAll ((Access.writes address word.bytes).take count)) := by
  have consecutive := Access.address_writes address word.bytes
  have same := (Access.reaches_served _ address consecutive).unique reaches
  have result := Access.result_of_consecutive _ address consecutive ()
  have served := served_eq_take (Access.writes address word.bytes)
  rw [same] at result served
  rw [writeWord, writeBytes_eq, result, served]

theorem readWord_exact (memory : Memory) (address count : Nat) (reaches : Reaches address count) :
    ∃ word bytes, memory.readWord address =
      (if count < 4 then .error (.illegalAddress (address + count)) else .ok word,
        memory.accessAll (Access.reads address count)) ∧
      (count = 4 → word.toNat = bigEndian bytes ∧ bytes.length = 4 ∧
        ∀ offset < 4, ∃ part : Word,
          ((memory.accessAll (Access.reads address offset)).read (address + offset)).1 = .ok part ∧
            bytes[offset]? = some part.lowestByte) := by
  have consecutive := Access.address_reads address 4
  have same := (Access.reaches_served _ address consecutive).unique reaches
  have served := served_eq_take (Access.reads address 4)
  rw [same, Access.take_reads address count 4 reaches.within] at served
  obtain ⟨bytes, done⟩ := memory.readBytes_eq address 4
  rw [Access.result_of_consecutive _ address consecutive bytes, same, served] at done
  refine ⟨Word.ofBytes bytes, bytes, ?_, ?_⟩
  · rw [readWord, done]
    by_cases short : count < 4
    · simp only [short, if_true]
    · simp only [short, if_false]
  · rintro rfl
    obtain ⟨length, parts⟩ := readBytes_parts memory _ address 4 bytes done
    exact ⟨Word.toNat_ofBytes bytes length, length, parts⟩

end Memory

theorem exists_reaches (address : Nat) : ∃ count, Reaches address count :=
  ⟨_, Access.reaches_served _ address (Access.address_reads address 4)⟩

/-- A word is moved as its four bytes, in order from the most significant one, up to the first address
that is not accessible; if there is one the access fails there, and the bytes before it stay moved.
So a word fits the devices only at their first address, and general memory up to its last four; no
cell but its own is written; and nothing is changed by reading but the keyboard, from which a key goes
if the keyboard's data is read. -/
theorem word_access_exact (memory : Memory) (address : Nat) (word : Word) :
    (word.bytes.length = 4 ∧ bigEndian word.bytes = word.toNat) ∧
    ∃ count, Reaches address count ∧
      memory.writeWord address word =
        (if count < 4 then .error (.illegalAddress (address + count)) else .ok (),
          memory.accessAll ((Access.writes address word.bytes).take count)) ∧
      (∃ read bytes, memory.readWord address =
        (if count < 4 then .error (.illegalAddress (address + count)) else .ok read,
          memory.accessAll (Access.reads address count)) ∧
        (count = 4 → read.toNat = bigEndian bytes ∧ bytes.length = 4 ∧
          ∀ offset < 4, ∃ part : Word,
            ((memory.accessAll (Access.reads address offset)).read (address + offset)).1 =
                .ok part ∧
              bytes[offset]? = some part.lowestByte)) ∧
      (count = 4 ↔ address = 0x20000000 ∨ 0x40000000 ≤ address ∧ address ≤ 0xFFFFFFFC) ∧
      (0xFFFFFFFC < address → address < 0x100000000 → address + count = 0x100000000) ∧
      (∀ place, place < address ∨ address + 4 ≤ place →
        (memory.writeWord address word).2.cells[place]? = memory.cells[place]?) ∧
      (memory.readWord address).2 =
        (if address ≤ keyboardData ∧ keyboardData < address + count then
          { memory with keyboard := memory.keyboard.pop.2 }
        else memory) ∧
      memory.keyboard.pop.2.keys = memory.keyboard.keys.drop 1 := by
  obtain ⟨count, reaches⟩ := exists_reaches address
  obtain ⟨read, bytes, done, parts⟩ := memory.readWord_exact address count reaches
  refine ⟨word.bigEndian_bytes, count, reaches, memory.writeWord_exact address count word reaches,
    ⟨read, bytes, done, parts⟩, reaches.whole_iff, reaches.end_of_memory, ?_, ?_,
    memory.keyboard.keys_pop⟩
  · intro place apart
    exact memory.cells_writeBytes address place word.bytes apart
  · rw [done, Memory.accessAll_reads]

theorem words_at_borders :
    let memory := (Memory.empty.pushKey 7).2
    memory.readWord 0x20000001 = (.error (.illegalAddress 0x20000004),
        { memory with keyboard := memory.keyboard.pop.2 }) ∧
      (memory.writeWord 0xFFFFFFFE 0x11223344).1 = .error (.illegalAddress 0x100000000) ∧
      (memory.writeWord 0xFFFFFFFE 0x11223344).2.cells[0]? = memory.cells[0]? := by
  intro memory
  obtain ⟨_, count, reaches, _, ⟨word, bytes, read, _⟩, _, _, _, left, _⟩ :=
    word_access_exact memory 0x20000001 0
  have three : Reaches 0x20000001 3 := ⟨by decide, by decide, by decide⟩
  obtain rfl := reaches.unique three
  obtain ⟨_, count, reaches, written, _, _, last, kept, _⟩ :=
    word_access_exact memory 0xFFFFFFFE 0x11223344
  have stop := last (by decide) (by decide)
  have two : count = 2 := by omega
  refine ⟨Prod.ext (congrArg Prod.fst read) (left.trans (if_pos (by decide))), ?_, ?_⟩
  · rw [written, two]
    rfl
  · exact kept 0 (Or.inl (by decide))

end ToyComputer
