import ToyComputer.Proofs.Cells
import ToyComputer.Proofs.Loads

/-!
The byte map: general memory holds at each address the byte that was stored there last, whatever
calls were made before and however they ended. The devices lie below it, and neither notices the
other.
-/

namespace ToyComputer

/-- The byte that a place gets when bytes are written in turn from an address of general memory on.
-/
def byteAt (address : Nat) (bytes : List UInt8) (place : Nat) : Option UInt8 :=
  if Location.memoryStart ≤ address ∧ address ≤ place then bytes[place - address]? else none

theorem byteAt_low (address place : Nat) (bytes : List UInt8)
    (low : address < Location.memoryStart) : byteAt address bytes place = none :=
  if_neg fun inside => Nat.not_le.mpr low inside.1

theorem byteAt_high (address place : Nat) (bytes : List UInt8)
    (high : Location.memoryStart ≤ address) :
    byteAt address bytes place = if address ≤ place then bytes[place - address]? else none := by
  simp only [byteAt, high, true_and]

theorem byteAt_before (address place : Nat) (bytes : List UInt8) (before : place < address) :
    byteAt address bytes place = none :=
  if_neg fun inside => Nat.not_le.mpr before inside.2

theorem byteAt_cons (address place : Nat) (byte : UInt8) (bytes : List UInt8)
    (high : Location.memoryStart ≤ address) :
    byteAt address (byte :: bytes) place =
      if place = address then some byte else byteAt (address + 1) bytes place := by
  rw [byteAt_high _ _ _ high, byteAt_high _ _ _ (Nat.le_succ_of_le high)]
  rcases Nat.lt_trichotomy place address with before | rfl | behind
  · rw [if_neg (by omega), if_neg (by omega), if_neg (by omega)]
  · simp
  · obtain ⟨gap, rfl⟩ := Nat.exists_eq_add_of_lt behind
    rw [if_pos (by omega), if_neg (by omega), if_pos (by omega),
      show address + gap + 1 - address = gap + 1 by omega,
      show address + gap + 1 - (address + 1) = gap by omega, List.getElem?_cons_succ]

theorem placed_low (address : Nat) (bytes : List UInt8) (low : address < Location.memoryStart)
    (store : Nat × UInt8) (member : store ∈ placed address bytes) :
    store.1 < Location.memoryStart := by
  induction bytes generalizing address with
  | nil => cases member
  | cons byte bytes ih =>
      rw [placed] at member
      split at member
      · cases member
      · next found =>
          rcases List.mem_cons.mp member with rfl | later
          · exact low
          · refine ih (address + 1) ?_ later
            unfold Location.at? at found
            unfold Location.memoryStart at low found ⊢
            split at found
            · omega
            · split at found
              · omega
              · omega
              · omega
              · omega
              · cases found

theorem answering_high (address count : Nat) (high : Location.memoryStart ≤ address) :
    (answering address count).count keyboardData = 0 := by
  apply List.count_eq_zero.mpr
  intro member
  have above := Nat.le_trans high (le_of_mem_answering address count _ member)
  exact absurd above (by decide)

namespace Memory

theorem peek?_writeBytes_eq (memory : Memory) (address place : Nat) (bytes : List UInt8)
    (high : Location.memoryStart ≤ place) (inside : place < Location.memoryEnd) :
    (memory.writeBytes address bytes).2.peek? place =
      (byteAt address bytes place).or (memory.peek? place) := by
  rcases Nat.lt_or_ge address Location.memoryStart with low | reached
  · rw [byteAt_low _ _ _ low, Option.none_or]
    apply peek?_writeBytes
    intro store member
    exact Nat.ne_of_lt (Nat.lt_of_lt_of_le (placed_low address bytes low store member) high)
  · induction bytes generalizing memory address with
    | nil => simp [writeBytes, byteAt]
    | cons byte bytes ih =>
        rcases write_cases memory address byte with ⟨none, refused⟩ | ⟨_, after, found, done, _⟩
        · have above : place < address := by
            refine Nat.lt_of_not_le fun behind => ?_
            rw [Location.at?_of_bounds address reached (by omega)] at none
            cases none
          simp only [writeBytes, refused, byteAt_before _ _ _ above, Option.none_or]
        · obtain rfl := Location.eq_cell_of_le address _ reached found
          simp only [writeBytes, done]
          rw [ih after (address + 1) (Nat.le_succ_of_le reached), byteAt_cons _ _ _ _ reached]
          by_cases here : place = address
          · have held := peek?_write_self memory address byte found
            rw [done, ← here] at held
            rw [if_pos here, byteAt_before _ _ _ (by omega), held, Option.none_or, Option.some_or]
          · have kept := peek?_write_of_ne memory address place byte (Ne.symm here)
            rw [done] at kept
            rw [if_neg here, kept]

theorem write_eq_writeBytes (memory : Memory) (address : Nat) (byte : UInt8) :
    (memory.write address byte).2 = (memory.writeBytes address [byte]).2 := by
  rw [writeBytes]
  split
  · next refused => rw [refused]
  · next done => rw [done]; rfl

theorem peek?_of_high (memory : Memory) (place : Nat) (high : Location.memoryStart ≤ place)
    (inside : place < Location.memoryEnd) : memory.peek? place = some (memory.cell place) := by
  rw [peek?, Location.at?_of_bounds place high inside]

end Memory

/-- What is asked of a memory. -/
inductive MemoryCall where
  | read (address : Word)
  | readWord (address : Word)
  | write (address : Word) (byte : UInt8)
  | writeWord (address value : Word)
  | poke (address value : Word)
  | pushKey (key : UInt8)
  deriving DecidableEq, Repr

namespace MemoryCall

def address? : MemoryCall → Option Word
  | .read address | .readWord address | .write address _ | .writeWord address _
  | .poke address _ => some address
  | .pushKey _ => none

def stores : MemoryCall → Bool
  | .write _ _ | .writeWord _ _ | .poke _ _ => true
  | .read _ | .readWord _ | .pushKey _ => false

/-- The byte that a call stores at a place of general memory. A word that goes past the last address
stores the bytes before it, a value that is no byte stores nothing. -/
def storedAt (place : Nat) : MemoryCall → Option UInt8
  | .write address byte => byteAt address.toNat [byte] place
  | .writeWord address value => byteAt address.toNat value.bytes place
  | .poke address value =>
    if value < 256 then byteAt address.toNat [value.lowestByte] place else none
  | .read _ | .readWord _ | .pushKey _ => none

/-- The byte that some calls stored at a place last. -/
def latest (calls : List MemoryCall) (place : Nat) : Option UInt8 :=
  calls.reverse.findSome? (storedAt place)

theorem storedAt_low (call : MemoryCall) (place : Nat)
    (apart : call.stores = false ∨
      ∀ address ∈ call.address?, address.toNat < Location.memoryStart) :
    call.storedAt place = none := by
  cases call with
  | read address | readWord address | pushKey key => rfl
  | write address byte | writeWord address value =>
      rcases apart with never | low
      · cases never
      · exact byteAt_low _ _ _ (low address rfl)
  | poke address value =>
      rcases apart with never | low
      · cases never
      · simp only [MemoryCall.storedAt, byteAt_low _ _ _ (low address rfl), ite_self]

theorem latest_eq_none (calls : List MemoryCall) (place : Nat)
    (apart : ∀ call ∈ calls, call.storedAt place = none) : latest calls place = none :=
  List.findSome?_eq_none_iff.mpr fun call member => apart call (List.mem_reverse.mp member)

end MemoryCall

namespace Memory

def after (memory : Memory) : MemoryCall → Memory
  | .read address => (memory.read address.toNat).2
  | .readWord address => (memory.readWord address.toNat).2
  | .write address byte => (memory.write address.toNat byte).2
  | .writeWord address value => (memory.writeWord address.toNat value).2
  | .poke address value => (memory.poke address.toNat value).2
  | .pushKey key => (memory.pushKey key).2

def afterAll (memory : Memory) (calls : List MemoryCall) : Memory := calls.foldl after memory

section

variable (memory : Memory)

theorem poke_eq_writeBytes (address : Nat) (value : Word) :
    (memory.poke address value).2 =
      if value < 256 then (memory.writeBytes address [value.lowestByte]).2 else memory := by
  unfold poke
  split
  · exact write_eq_writeBytes memory address _
  · rfl

theorem peek?_after (call : MemoryCall) (place : Nat) (high : Location.memoryStart ≤ place)
    (inside : place < Location.memoryEnd) :
    (memory.after call).peek? place = (call.storedAt place).or (memory.peek? place) := by
  cases call with
  | read address => exact peek?_of_cells _ _ (cells_read memory address.toNat) place
  | readWord address =>
      exact peek?_of_cells _ _ (view_readWord cells cells_read memory address.toNat) place
  | write address byte =>
      rw [after, write_eq_writeBytes]
      exact memory.peek?_writeBytes_eq _ place _ high inside
  | writeWord address value => exact memory.peek?_writeBytes_eq _ place _ high inside
  | poke address value =>
      rw [after, poke_eq_writeBytes, MemoryCall.storedAt]
      split
      · exact memory.peek?_writeBytes_eq _ place _ high inside
      · rfl
  | pushKey key => rfl

theorem peek?_afterAll (calls : List MemoryCall) (place : Nat)
    (high : Location.memoryStart ≤ place) (inside : place < Location.memoryEnd) :
    (memory.afterAll calls).peek? place =
      (MemoryCall.latest calls place).or (memory.peek? place) := by
  -- By induction over the calls: each leaves what it does not store.
  induction calls generalizing memory with
  | nil => rfl
  | cons call calls ih =>
      have first := memory.peek?_after call place high inside
      have rest := ih (memory.after call)
      rw [first, ← Option.or_assoc] at rest
      rw [afterAll, List.foldl_cons, ← afterAll, rest]
      simp only [MemoryCall.latest, List.reverse_cons, List.findSome?_append]
      simp

theorem devices_writeBytes_high (address : Nat) (bytes : List UInt8)
    (high : Location.memoryStart ≤ address) :
    (memory.writeBytes address bytes).2.keyboard = memory.keyboard ∧
      (memory.writeBytes address bytes).2.display = memory.display := by
  refine ⟨memory.keyboard_writeBytes address bytes, ?_⟩
  rw [display_writeBytes, shown_placed_above address bytes (Nat.lt_of_lt_of_le (by decide) high)]
  rfl

theorem devices_after (call : MemoryCall) (address : Word) (found : call.address? = some address)
    (high : Location.memoryStart ≤ address.toNat) :
    (memory.after call).keyboard = memory.keyboard ∧
      (memory.after call).display = memory.display := by
  cases call with
  | pushKey key => cases found
  | read place =>
      cases found
      refine ⟨?_, display_read memory _⟩
      rw [after, keyboard_read, answering_high _ _ high]
      rfl
  | readWord place =>
      cases found
      refine ⟨?_, view_readWord display display_read memory _⟩
      rw [after, keyboard_readWord, answering_high _ _ high]
      rfl
  | write place byte =>
      cases found
      rw [after, write_eq_writeBytes]
      exact memory.devices_writeBytes_high _ _ high
  | writeWord place value =>
      cases found
      exact memory.devices_writeBytes_high _ _ high
  | poke place value =>
      cases found
      rw [after, poke_eq_writeBytes]
      split
      · exact memory.devices_writeBytes_high _ _ high
      · exact ⟨rfl, rfl⟩

end

end Memory

namespace Word

theorem bounds_of_high (place : Word) (high : 0x40000000 ≤ place) :
    Location.memoryStart ≤ place.toNat ∧ place.toNat < Location.memoryEnd :=
  ⟨UInt32.le_iff_toNat_le.mp high, place.toNat_lt⟩

end Word

namespace Memory

section

variable (memory : Memory)

theorem writeWord_readWord (address value : Word) (later : List MemoryCall)
    (high : 0x40000000 ≤ address) (fits : address ≤ 0xFFFFFFFC)
    (apart : ∀ call ∈ later, ∀ place, address.toNat ≤ place → place < address.toNat + 4 →
      call.storedAt place = none) :
    let stored := memory.writeWord address.toNat value
    let left := stored.2.afterAll later
    stored.1 = .ok () ∧ left.readWord address.toNat = (.ok value, left) := by
  intro stored left
  have start := (Word.bounds_of_high address high).1
  have room : address.toNat + 4 ≤ Location.memoryEnd :=
    Nat.add_le_add_right (UInt32.le_iff_toNat_le.mp fits) 4
  obtain ⟨written, done⟩ := writeBytes_of_fits memory address.toNat value.bytes start room
  have outcome : stored = (.ok (), written) := done
  have held := peekWord?_writeWord memory written address.toNat value start done
  have kept : left.peekWord? address.toNat = written.peekWord? address.toNat := by
    apply peekWord?_congr
    intro place above below
    have untouched := MemoryCall.latest_eq_none later place fun call member =>
      apart call member place above below
    simp only [left, outcome]
    rw [peek?_afterAll written later place (Nat.le_trans start above)
      (Nat.lt_of_lt_of_le below room), untouched, Option.none_or]
  exact ⟨congrArg Prod.fst outcome, readWord_of_peekWord? left _ value (kept.trans held)⟩

theorem peek?_writeWord (address value place : Word) (high : 0x40000000 ≤ address)
    (reached : 0x40000000 ≤ place) :
    (memory.after (.writeWord address value)).peek? place.toNat =
      if address ≤ place ∧ place.toNat < address.toNat + 4 then
        value.bytes[place.toNat - address.toNat]?
      else memory.peek? place.toNat := by
  obtain ⟨start, inside⟩ := Word.bounds_of_high place reached
  rw [peek?_after memory _ place.toNat start inside, MemoryCall.storedAt,
    byteAt_high _ _ _ (Word.bounds_of_high address high).1]
  simp only [UInt32.le_iff_toNat_le]
  by_cases before : address.toNat ≤ place.toNat
  · by_cases covered : place.toNat < address.toNat + 4
    · obtain ⟨byte, found⟩ : ∃ byte, value.bytes[place.toNat - address.toNat]? = some byte := by
        have short : place.toNat - address.toNat < value.bytes.length := by
          show place.toNat - address.toNat < 4
          omega
        exact ⟨_, List.getElem?_eq_getElem short⟩
      rw [if_pos before, if_pos ⟨before, covered⟩, found, Option.some_or]
    · have long : value.bytes.length ≤ place.toNat - address.toNat := by
        show 4 ≤ place.toNat - address.toNat
        omega
      rw [if_pos before, if_neg fun both => covered both.2, List.getElem?_eq_none long,
        Option.none_or]
  · rw [if_neg before, if_neg fun both => before both.1, Option.none_or]

end

end Memory

/-- Whatever was called, general memory holds at each address the byte that was stored there last,
or zero. Only stores into it change it, and it never changes the devices. So a word is read back as
long as nothing is stored over it, and of two words that overlap the later one is whole. -/
theorem general_memory_is_byte_map (calls : List MemoryCall) :
    let memory := Memory.empty.afterAll calls
    (∀ place : Word, 0x40000000 ≤ place →
      let byte := (MemoryCall.latest calls place.toNat).getD 0
      memory.peek? place.toNat = some byte ∧
        memory.read place.toNat = (.ok byte.toUInt32, memory)) ∧
    (∀ (call : MemoryCall) (place : Word), 0x40000000 ≤ place →
      (call.stores = false ∨ ∀ address ∈ call.address?, address < 0x40000000) →
      (memory.after call).peek? place.toNat = memory.peek? place.toNat) ∧
    (∀ (call : MemoryCall) (address : Word), call.address? = some address → 0x40000000 ≤ address →
      (memory.after call).keyboard = memory.keyboard ∧
        (memory.after call).display = memory.display) ∧
    (∀ (address value : Word) (later : List MemoryCall),
      0x40000000 ≤ address → address ≤ 0xFFFFFFFC →
      (∀ call ∈ later, ∀ place, address.toNat ≤ place → place < address.toNat + 4 →
        call.storedAt place = none) →
      let stored := memory.writeWord address.toNat value
      let left := stored.2.afterAll later
      stored.1 = .ok () ∧ left.readWord address.toNat = (.ok value, left)) ∧
    (∀ address value second other place : Word,
      0x40000000 ≤ address → 0x40000000 ≤ second → 0x40000000 ≤ place →
      ((memory.after (.writeWord address value)).after (.writeWord second other)).peek?
          place.toNat =
        if second ≤ place ∧ place.toNat < second.toNat + 4 then
          other.bytes[place.toNat - second.toNat]?
        else if address ≤ place ∧ place.toNat < address.toNat + 4 then
          value.bytes[place.toNat - address.toNat]?
        else memory.peek? place.toNat) := by
  intro memory
  refine ⟨?_, ?_, ?_, memory.writeWord_readWord, ?_⟩
  · intro place reached byte
    obtain ⟨high, inside⟩ := Word.bounds_of_high place reached
    have fresh : Memory.empty.peek? place.toNat = some 0 := by
      rw [Memory.peek?_of_high _ _ high inside]
      rfl
    have held : memory.peek? place.toNat = some byte := by
      rw [Memory.peek?_afterAll _ calls _ high inside, fresh, Option.or_some]
    exact ⟨held, Memory.read_of_peek? memory _ byte held⟩
  · intro call place reached apart
    obtain ⟨high, inside⟩ := Word.bounds_of_high place reached
    have silent := MemoryCall.storedAt_low call place.toNat
      (apart.imp_right fun low address found => UInt32.lt_iff_toNat_lt.mp (low address found))
    rw [Memory.peek?_after memory call _ high inside, silent, Option.none_or]
  · intro call address found high
    exact memory.devices_after call address found (Word.bounds_of_high address high).1
  · intro address value second other place high above reached
    rw [Memory.peek?_writeWord _ second other place above reached,
      Memory.peek?_writeWord _ address value place high reached]

theorem overlap_is_byte_map :
    let calls : List MemoryCall := [.writeWord 0x40000000 0x11223344, .pushKey 7]
    let second : Word := 0x40000002
    let later : List MemoryCall := [.poke 0x40000002 0x100, .read 0x20000001, .write 0x40000006 9]
    let stored := (Memory.empty.afterAll calls).writeWord second.toNat 0xAABBCCDD
    let left := stored.2.afterAll later
    (Memory.empty.afterAll calls).peek? 0x40000001 = some 0x22 ∧ stored.1 = .ok () ∧
      left.readWord second.toNat = (.ok 0xAABBCCDD, left) := by
  intro calls second later stored left
  have map := general_memory_is_byte_map calls
  refine ⟨(map.1 0x40000001 (by decide)).1, ?_⟩
  refine map.2.2.2.1 second 0xAABBCCDD later (by decide) (by decide) ?_
  intro call member place above below
  have bounds : 0x40000002 ≤ place ∧ place < 0x40000006 := ⟨above, below⟩
  have apart : byteAt 0x40000006 [9] place = none := byteAt_before _ _ _ bounds.2
  simp only [later, List.mem_cons, List.not_mem_nil, or_false] at member
  rcases member with rfl | rfl | rfl
  · rfl
  · rfl
  · exact apart

end ToyComputer
