import ToyComputer.Proofs.Stores

/-!
Cells: general memory as it is seen from outside. A word that was written there is found there until
something is written over one of its bytes. Reading leaves everything where it is.
-/

namespace ToyComputer

namespace Word

theorem append_lowestByte (word : Word) :
    word >>> 8 <<< 8 ||| word.lowestByte.toUInt32 = word := by
  have low : word.toNat % 256 < 2 ^ 8 := Nat.mod_lt _ (by decide)
  have high : word.toNat / 256 * 256 < 2 ^ 32 :=
    Nat.lt_of_le_of_lt (Nat.div_mul_le_self _ _) word.toNat_lt
  apply UInt32.toNat_inj.mp
  calc
    _ = (word.toNat >>> 8) <<< 8 % 2 ^ 32 ||| word.toNat % 256 := by
      simp [lowestByte]
    _ = (word.toNat >>> 8) <<< 8 ||| word.toNat % 256 := by
      rw [Nat.mod_eq_of_lt]
      simpa [Nat.shiftLeft_eq, Nat.shiftRight_eq_div_pow] using high
    _ = (word.toNat >>> 8) <<< 8 + word.toNat % 256 :=
      (Nat.shiftLeft_add_eq_or_of_lt low _).symm
    _ = word.toNat := by
      rw [Nat.shiftLeft_eq, Nat.shiftRight_eq_div_pow]
      omega

theorem ofBytes_bytes (word : Word) : ofBytes word.bytes = word := by
  have none : word >>> 24 >>> 8 = 0 := by
    apply UInt32.toNat_inj.mp
    simp [← Nat.shiftRight_add, Nat.shiftRight_eq_zero _ _ word.toNat_lt]
  have first : word >>> 16 >>> 8 = word >>> 24 := by
    apply UInt32.toNat_inj.mp
    simp [← Nat.shiftRight_add]
  have second : word >>> 8 >>> 8 = word >>> 16 := by
    apply UInt32.toNat_inj.mp
    simp [← Nat.shiftRight_add]
  calc
    _ = ((((0 : Word) <<< 8 ||| (word >>> 24).lowestByte.toUInt32) <<< 8 |||
          (word >>> 16).lowestByte.toUInt32) <<< 8 ||| (word >>> 8).lowestByte.toUInt32) <<< 8 |||
          word.lowestByte.toUInt32 := rfl
    _ = word := by
      rw [← none, append_lowestByte, ← first, append_lowestByte, ← second, append_lowestByte,
        append_lowestByte]

end Word

namespace Location

theorem at?_of_bounds (address : Nat) (high : memoryStart ≤ address) (low : address < memoryEnd) :
    at? address = some cell := if_pos ⟨high, low⟩

theorem eq_cell_of_le (address : Nat) (location : Location) (high : memoryStart ≤ address)
    (found : at? address = some location) : location = cell := by
  unfold at? at found
  unfold memoryStart at high found
  split at found
  · cases found; rfl
  · split at found
    · omega
    · omega
    · omega
    · omega
    · cases found

end Location

theorem placed_bounds (address : Nat) (bytes : List UInt8) (store : Nat × UInt8)
    (member : store ∈ placed address bytes) :
    address ≤ store.1 ∧ store.1 < address + bytes.length := by
  induction bytes generalizing address with
  | nil => cases member
  | cons byte bytes ih =>
      rw [placed] at member
      rw [List.length_cons]
      split at member
      · cases member
      · rcases List.mem_cons.mp member with rfl | later
        · exact ⟨Nat.le_refl _, by omega⟩
        · obtain ⟨above, below⟩ := ih (address + 1) later
          omega

namespace Memory

def peekBytes? (memory : Memory) (address : Nat) : (count : Nat) → Option (List UInt8)
  | 0 => some []
  | count + 1 =>
    (memory.peek? address).bind fun byte =>
      (memory.peekBytes? (address + 1) count).map (byte :: ·)

def peekWord? (memory : Memory) (address : Nat) : Option Word :=
  (memory.peekBytes? address 4).map Word.ofBytes

theorem peek?_of_cells (before after : Memory) (same : after.cells = before.cells) (place : Nat) :
    after.peek? place = before.peek? place := by
  simp only [peek?, cell, same]

theorem peekBytes?_congr (before after : Memory) (address count : Nat)
    (same : ∀ place, address ≤ place → place < address + count →
      after.peek? place = before.peek? place) :
    after.peekBytes? address count = before.peekBytes? address count := by
  induction count generalizing address with
  | zero => rfl
  | succ count ih =>
      have first := same address (Nat.le_refl _) (by omega)
      have rest := ih (address + 1) fun place above below => same place (by omega) (by omega)
      rw [peekBytes?, peekBytes?, first, rest]

theorem peekWord?_congr (before after : Memory) (address : Nat)
    (same : ∀ place, address ≤ place → place < address + 4 →
      after.peek? place = before.peek? place) :
    after.peekWord? address = before.peekWord? address := by
  rw [peekWord?, peekWord?, peekBytes?_congr before after address 4 same]

theorem peek?_write_self (memory : Memory) (address : Nat) (byte : UInt8)
    (found : Location.at? address = some .cell) :
    (memory.write address byte).2.peek? address = some byte := by
  simp [write, peek?, cell, found]

theorem peek?_write_of_ne (memory : Memory) (address place : Nat) (byte : UInt8)
    (apart : address ≠ place) :
    (memory.write address byte).2.peek? place = memory.peek? place := by
  unfold write
  split
  · rfl
  · simp [peek?, cell, Std.TreeMap.getD_insert, apart]
  all_goals rfl

theorem writeBytes_of_fits (memory : Memory) (address : Nat) (bytes : List UInt8)
    (high : Location.memoryStart ≤ address)
    (fits : address + bytes.length ≤ Location.memoryEnd) :
    ∃ after, memory.writeBytes address bytes = (.ok (), after) := by
  induction bytes generalizing memory address with
  | nil => exact ⟨memory, rfl⟩
  | cons byte bytes ih =>
      rw [List.length_cons] at fits
      have inside : address < Location.memoryEnd := by omega
      rcases write_cases memory address byte with ⟨none, _⟩ | ⟨_, after, _, done, _⟩
      · rw [Location.at?_of_bounds address high inside] at none
        cases none
      · obtain ⟨last, written⟩ := ih after (address + 1) (Nat.le_succ_of_le high) (by omega)
        exact ⟨last, by simp only [writeBytes, done, written]⟩

theorem peek?_writeBytes (memory : Memory) (address place : Nat) (bytes : List UInt8)
    (apart : ∀ store ∈ placed address bytes, store.1 ≠ place) :
    (memory.writeBytes address bytes).2.peek? place = memory.peek? place := by
  induction bytes generalizing memory address with
  | nil => rfl
  | cons byte bytes ih =>
      rcases write_cases memory address byte with ⟨none, refused⟩ | ⟨_, after, found, done, _⟩
      · simp only [writeBytes, refused]
      · simp only [placed, found, List.mem_cons, forall_eq_or_imp] at apart
        have first := peek?_write_of_ne memory address place byte apart.1
        rw [done] at first
        simp only [writeBytes, done]
        rw [ih after (address + 1) apart.2, first]

theorem peek?_writeBytes_of_lt (memory : Memory) (address place : Nat) (bytes : List UInt8)
    (before : place < address) :
    (memory.writeBytes address bytes).2.peek? place = memory.peek? place := by
  apply peek?_writeBytes
  intro store member
  have above := (placed_bounds address bytes store member).1
  omega

theorem peekBytes?_writeBytes (memory after : Memory) (address : Nat) (bytes : List UInt8)
    (high : Location.memoryStart ≤ address)
    (written : memory.writeBytes address bytes = (.ok (), after)) :
    after.peekBytes? address bytes.length = some bytes := by
  induction bytes generalizing memory address with
  | nil => rfl
  | cons byte bytes ih =>
      rcases write_cases memory address byte with ⟨none, refused⟩ | ⟨_, middle, found, done, _⟩
      · simp only [writeBytes, refused] at written
        cases written
      · obtain rfl := Location.eq_cell_of_le address _ high found
        have held := peek?_write_self memory address byte found
        simp only [writeBytes, done] at written held
        have kept := peek?_writeBytes_of_lt middle (address + 1) address bytes (Nat.lt_succ_self _)
        rw [written] at kept
        rw [List.length_cons, peekBytes?, kept, held,
          ih middle (address + 1) (Nat.le_succ_of_le high) written]
        rfl

theorem peekWord?_writeWord (memory after : Memory) (address : Nat) (word : Word)
    (high : Location.memoryStart ≤ address)
    (written : memory.writeWord address word = (.ok (), after)) :
    after.peekWord? address = some word := by
  have bytes := peekBytes?_writeBytes memory after address word.bytes high written
  have length : word.bytes.length = 4 := rfl
  rw [length] at bytes
  rw [peekWord?, bytes, Option.map_some, Word.ofBytes_bytes]

theorem read_of_peek? (memory : Memory) (address : Nat) (byte : UInt8)
    (peeked : memory.peek? address = some byte) :
    memory.read address = (.ok byte.toUInt32, memory) := by
  unfold peek? at peeked
  split at peeked
  · next found =>
      cases peeked
      simp only [read, found]
  · cases peeked

theorem readBytes_of_peekBytes? (memory : Memory) (address count : Nat) (bytes : List UInt8)
    (peeked : memory.peekBytes? address count = some bytes) :
    memory.readBytes address count = (.ok bytes, memory) := by
  induction count generalizing address bytes with
  | zero =>
      cases peeked
      rfl
  | succ count ih =>
      simp only [peekBytes?, Option.bind_eq_some_iff, Option.map_eq_some_iff] at peeked
      obtain ⟨byte, first, rest, others, rfl⟩ := peeked
      simp [readBytes, read_of_peek? memory address byte first, ih (address + 1) rest others,
        Word.lowestByte]

theorem readWord_of_peekWord? (memory : Memory) (address : Nat) (word : Word)
    (peeked : memory.peekWord? address = some word) :
    memory.readWord address = (.ok word, memory) := by
  simp only [peekWord?, Option.map_eq_some_iff] at peeked
  obtain ⟨bytes, held, rfl⟩ := peeked
  simp only [readWord, readBytes_of_peekBytes? memory address 4 bytes held]

theorem cells_read (memory : Memory) (address : Nat) :
    (memory.read address).2.cells = memory.cells := by
  unfold read
  split <;> rfl

end Memory

namespace Machine

/-- An operation changes general memory only where it puts a byte. -/
theorem peek?_perform (machine : Machine) (next : Word) (operation : Operation) (place : Nat)
    (apart : ∀ store ∈ machine.storesOf next operation, store.1 ≠ place) :
    (machine.perform next operation).2.peek? place = machine.memory.peek? place := by
  rw [memory_perform]
  cases operation with
  | copy target source | flexible op target left right | registers op target left right
  | negate register | flow target | jump target | jumpIfZero register target => rfl
  | store width target source =>
      simp only [storesOf] at apart
      simp only [memoryAfter]
      split
      · rfl
      · next found =>
          rw [found] at apart
          rw [Memory.store_eq]
          exact Memory.peek?_writeBytes _ _ place _ apart
  | load width target source =>
      simp only [memoryAfter]
      split
      · rfl
      · exact Memory.peek?_of_cells _ _
          (Memory.view_load Memory.cells Memory.cells_read _ _ _) place
  | call target =>
      simp only [storesOf] at apart
      simp only [memoryAfter]
      split
      · rfl
      · next found =>
          rw [found] at apart
          exact Memory.peek?_writeBytes _ _ place _ apart
  | ret =>
      exact Memory.peek?_of_cells _ _
        (Memory.view_readWord Memory.cells Memory.cells_read _ _) place

end Machine

end ToyComputer
