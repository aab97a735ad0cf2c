import Mathlib.Data.List.Induction
import ToyComputer.Assembly.Line

/-!
Places: where the lines of a source begin when each takes up the bytes of its instruction.
-/

namespace ToyComputer.Assembly

def Line.size (line : Line) : Nat := (line.operation.map Operation.size).getD 0

def totalSize (lines : List Line) : Nat := lines.foldr (fun line size => line.size + size) 0

/-- The address where a line begins: what the lines before it take up. -/
def addressOf (lines : List Line) (index : Nat) : Nat := totalSize (lines.take index)

/-- A line with its index and its address. -/
structure Place where
  address : Nat
  index : Nat
  line : Line
  deriving DecidableEq, Repr

def places (lines : List Line) : List Place :=
  lines.zipIdx.map fun (line, index) => ⟨addressOf lines index, index, line⟩

@[simp] theorem totalSize_cons (line : Line) (lines : List Line) :
    totalSize (line :: lines) = line.size + totalSize lines := rfl

theorem totalSize_append (front back : List Line) :
    totalSize (front ++ back) = totalSize front + totalSize back := by
  induction front with
  | nil => simp [totalSize]
  | cons line front ih => rw [List.cons_append, totalSize_cons, totalSize_cons, ih, Nat.add_assoc]

@[simp] theorem totalSize_singleton (line : Line) : totalSize [line] = line.size := by
  simp [totalSize]

theorem addressOf_of_length_le (lines : List Line) (index : Nat) (past : lines.length ≤ index) :
    addressOf lines index = totalSize lines := by
  rw [addressOf, List.take_of_length_le past]

theorem addressOf_append (front back : List Line) (index : Nat) (inside : index ≤ front.length) :
    addressOf (front ++ back) index = addressOf front index := by
  rw [addressOf, List.take_append_of_le_length inside, addressOf]

theorem addressOf_succ (lines : List Line) (index : Nat) (line : Line)
    (present : lines[index]? = some line) :
    addressOf lines (index + 1) = addressOf lines index + line.size := by
  rw [addressOf, List.take_add_one, present, Option.toList_some, totalSize_append,
    totalSize_singleton, addressOf]

theorem addressOf_le_totalSize (lines : List Line) (index : Nat) :
    addressOf lines index ≤ totalSize lines := by
  calc totalSize (lines.take index)
      ≤ totalSize (lines.take index) + totalSize (lines.drop index) := Nat.le_add_right _ _
    _ = totalSize lines := by rw [← totalSize_append, List.take_append_drop]

theorem places_append_singleton (lines : List Line) (line : Line) :
    places (lines ++ [line]) = places lines ++ [⟨totalSize lines, lines.length, line⟩] := by
  have last : addressOf (lines ++ [line]) lines.length = totalSize lines := by
    rw [addressOf_append lines [line] _ (Nat.le_refl _),
      addressOf_of_length_le lines _ (Nat.le_refl _)]
  have earlier : lines.zipIdx.map (fun (line', index) =>
      (⟨addressOf (lines ++ [line]) index, index, line'⟩ : Place)) = places lines := by
    apply List.map_congr_left
    intro given member
    rcases given with ⟨line', index⟩
    have inside : index < lines.length := by
      have found := List.mem_zipIdx_iff_getElem?.mp member
      exact (List.getElem?_eq_some_iff.mp found).1
    simp only [addressOf_append lines [line] index (Nat.le_of_lt inside)]
  rw [places, List.zipIdx_append, List.map_append, earlier]
  simp [last]

theorem filterMap_places_append {α : Type} (select : Place → Option α) (lines : List Line)
    (line : Line) :
    (places (lines ++ [line])).filterMap select =
      (places lines).filterMap select ++ (select ⟨totalSize lines, lines.length, line⟩).toList := by
  rw [places_append_singleton, List.filterMap_append]
  cases found : select ⟨totalSize lines, lines.length, line⟩ with
  | none => rw [List.filterMap_cons_none found, List.filterMap_nil, Option.toList_none]
  | some value => rw [List.filterMap_cons_some found, List.filterMap_nil, Option.toList_some]

theorem mem_places (lines : List Line) (place : Place) :
    place ∈ places lines ↔
      lines[place.index]? = some place.line ∧ place.address = addressOf lines place.index := by
  constructor
  · intro member
    obtain ⟨⟨line, index⟩, found, rfl⟩ := List.mem_map.mp member
    exact ⟨List.mem_zipIdx_iff_getElem?.mp found, rfl⟩
  · intro given
    rcases given with ⟨present, located⟩
    refine List.mem_map.mpr
      ⟨(place.line, place.index), List.mem_zipIdx_iff_getElem?.mpr present, ?_⟩
    simp only [← located]

theorem mem_places_append (front back : List Line) (place : Place)
    (member : place ∈ places front) : place ∈ places (front ++ back) := by
  obtain ⟨found, located⟩ := (mem_places front place).mp member
  have inside := (List.getElem?_eq_some_iff.mp found).1
  refine (mem_places _ place).mpr ⟨?_, ?_⟩
  · rw [List.getElem?_append_left inside, found]
  · rw [located, addressOf_append front back _ (Nat.le_of_lt inside)]

theorem address_le_totalSize (lines : List Line) (place : Place) (member : place ∈ places lines) :
    place.address + place.line.size ≤ totalSize lines := by
  obtain ⟨present, located⟩ := (mem_places lines place).mp member
  calc place.address + place.line.size
      = addressOf lines (place.index + 1) := by rw [located, addressOf_succ lines _ _ present]
    _ ≤ totalSize lines := addressOf_le_totalSize lines _

theorem places_ordered (lines : List Line) :
    (places lines).Pairwise fun earlier later =>
      earlier.address + earlier.line.size ≤ later.address ∧ earlier.index < later.index := by
  induction lines using List.reverseRecOn with
  | nil => exact List.Pairwise.nil
  | append_singleton lines line ih =>
      rw [places_append_singleton, List.pairwise_append]
      refine ⟨ih, List.pairwise_singleton _ _, ?_⟩
      intro place member last atEnd
      rw [List.mem_singleton.mp atEnd]
      refine ⟨address_le_totalSize lines place member, ?_⟩
      exact (List.getElem?_eq_some_iff.mp ((mem_places lines place).mp member).1).1

theorem places_cover (lines : List Line) (position : Nat) :
    position < totalSize lines ↔
      ∃ place ∈ places lines,
        place.address ≤ position ∧ position < place.address + place.line.size := by
  constructor
  · induction lines using List.reverseRecOn with
    | nil => intro below; exact absurd below (Nat.not_lt_zero _)
    | append_singleton lines line ih =>
        intro below
        rw [totalSize_append, totalSize_singleton] at below
        rw [places_append_singleton]
        by_cases before : position < totalSize lines
        · obtain ⟨place, member, inside⟩ := ih before
          exact ⟨place, List.mem_append_left _ member, inside⟩
        · refine ⟨⟨totalSize lines, lines.length, line⟩,
            List.mem_append_right _ (List.mem_singleton_self _), ?_, below⟩
          exact Nat.le_of_not_lt before
  · intro given
    rcases given with ⟨place, member, _, below⟩
    exact Nat.lt_of_lt_of_le below (address_le_totalSize lines place member)

def instructionLines (lines : List Line) : List Nat :=
  ((places lines).filter fun place => place.line.operation.isSome).map Place.index

theorem mem_instructionLines (lines : List Line) (index : Nat) :
    index ∈ instructionLines lines ↔
      ∃ line operation, lines[index]? = some line ∧ line.operation = some operation := by
  rw [instructionLines, List.mem_map]
  constructor
  · intro given
    rcases given with ⟨place, member, rfl⟩
    obtain ⟨listed, present⟩ := List.mem_filter.mp member
    obtain ⟨operation, present⟩ := Option.isSome_iff_exists.mp present
    exact ⟨place.line, operation, ((mem_places lines place).mp listed).1, present⟩
  · intro given
    rcases given with ⟨line, operation, found, present⟩
    refine ⟨⟨addressOf lines index, index, line⟩, List.mem_filter.mpr ⟨?_, ?_⟩, rfl⟩
    · exact (mem_places lines _).mpr ⟨found, rfl⟩
    · simp [present]

theorem instructionLines_ascending (lines : List Line) :
    (instructionLines lines).Pairwise fun earlier later => earlier < later := by
  rw [instructionLines, List.pairwise_map]
  exact ((places_ordered lines).imp fun ordered => ordered.2).filter _

theorem addressOf_eq (lines : List Line) (first second : Nat) (order : first ≤ second)
    (empty : ∀ index, first ≤ index → index < second → index ∉ instructionLines lines) :
    addressOf lines first = addressOf lines second := by
  induction order with
  | refl => rfl
  | @step second order ih =>
      rw [ih fun index above below => empty index above (Nat.lt_succ_of_lt below)]
      cases found : lines[second]? with
      | none =>
          have past : lines.length ≤ second := List.getElem?_eq_none_iff.mp found
          rw [addressOf_of_length_le lines second past,
            addressOf_of_length_le lines (second + 1) (Nat.le_succ_of_le past)]
      | some line =>
          rw [addressOf_succ lines second line found]
          cases present : line.operation with
          | none => simp [Line.size, present]
          | some operation =>
              have listed := (mem_instructionLines lines second).mpr
                ⟨line, operation, found, present⟩
              exact absurd listed (empty second order (Nat.lt_succ_self second))

/-- The first line at or after `index` that has an instruction. -/
def nextInstruction? (lines : List Line) (index : Nat) : Option Nat :=
  (instructionLines lines).find? fun next => index ≤ next

theorem nextInstruction?_eq_some (lines : List Line) (index next : Nat) :
    nextInstruction? lines index = some next ↔
      next ∈ instructionLines lines ∧ index ≤ next ∧
        ∀ other ∈ instructionLines lines, index ≤ other → next ≤ other := by
  have ascending := instructionLines_ascending lines
  rw [nextInstruction?, List.find?_eq_some_iff_append]
  constructor
  · intro given
    rcases given with ⟨after, before, rest, split, skipped⟩
    rw [split, List.pairwise_append, List.pairwise_cons] at ascending
    refine ⟨by simp [split], of_decide_eq_true after, ?_⟩
    intro other member above
    rw [split, List.mem_append, List.mem_cons] at member
    rcases member with early | rfl | late
    · have below := skipped other early
      simp [above] at below
    · exact Nat.le_refl _
    · exact Nat.le_of_lt (ascending.2.1.1 other late)
  · intro given
    rcases given with ⟨member, after, least⟩
    obtain ⟨before, rest, split⟩ := List.append_of_mem member
    rw [split, List.pairwise_append] at ascending
    refine ⟨decide_eq_true after, before, rest, split, ?_⟩
    intro other early
    have below := ascending.2.2 other early next List.mem_cons_self
    by_contra reached
    have above : index ≤ other := by simpa using reached
    have late := least other (by simp [split, early]) above
    omega

theorem nextInstruction?_eq_none (lines : List Line) (index : Nat) :
    nextInstruction? lines index = none ↔ ∀ other ∈ instructionLines lines, other < index := by
  rw [nextInstruction?, List.find?_eq_none]
  simp

theorem addressOf_nextInstruction (lines : List Line) (index next : Nat)
    (found : nextInstruction? lines index = some next) :
    addressOf lines index = addressOf lines next := by
  obtain ⟨_, order, least⟩ := (nextInstruction?_eq_some lines index next).mp found
  apply addressOf_eq lines index next order
  intro between above below member
  exact Nat.not_le_of_lt below (least between member above)

theorem addressOf_noInstruction (lines : List Line) (index : Nat)
    (absent : nextInstruction? lines index = none) : addressOf lines index = totalSize lines := by
  rcases Nat.le_total lines.length index with past | inside
  · exact addressOf_of_length_le lines index past
  · rw [← addressOf_of_length_le lines lines.length (Nat.le_refl _)]
    apply addressOf_eq lines index lines.length inside
    intro between above below member
    have before := (nextInstruction?_eq_none lines index).mp absent between member
    omega

theorem instructionLines_lt (lines : List Line) (first second early late : Nat)
    (one : (instructionLines lines)[first]? = some early)
    (other : (instructionLines lines)[second]? = some late) (order : first < second) :
    early < late := by
  obtain ⟨inside, rfl⟩ := List.getElem?_eq_some_iff.mp one
  obtain ⟨within, rfl⟩ := List.getElem?_eq_some_iff.mp other
  have ascending := List.pairwise_iff_getElem.mp (instructionLines_ascending lines)
  exact ascending first second inside within order

theorem position_lt (lines : List Line) (first second early late : Nat)
    (one : (instructionLines lines)[first]? = some early)
    (other : (instructionLines lines)[second]? = some late) (less : early < late) :
    first < second := by
  by_contra reached
  rcases Nat.lt_or_eq_of_le (Nat.le_of_not_lt reached) with before | rfl
  · have := instructionLines_lt lines second first late early other one before
    omega
  · rw [one] at other
    cases other
    exact Nat.lt_irrefl _ less

theorem nextInstruction?_succ (lines : List Line) (count index : Nat)
    (found : (instructionLines lines)[count]? = some index) :
    nextInstruction? lines (index + 1) = (instructionLines lines)[count + 1]? := by
  cases follows : (instructionLines lines)[count + 1]? with
  | none =>
      have last := List.getElem?_eq_none_iff.mp follows
      rw [nextInstruction?_eq_none]
      intro other member
      by_contra above
      obtain ⟨position, there⟩ := List.mem_iff_getElem?.mp member
      have behind := position_lt lines count position index other found there (by omega)
      have inside := (List.getElem?_eq_some_iff.mp there).1
      omega
  | some next =>
      rw [nextInstruction?_eq_some]
      refine ⟨List.mem_of_getElem? follows, ?_, ?_⟩
      · exact instructionLines_lt lines count (count + 1) index next found follows
          (Nat.lt_succ_self count)
      · intro other member above
        obtain ⟨position, there⟩ := List.mem_iff_getElem?.mp member
        have behind := position_lt lines count position index other found there above
        rcases Nat.lt_or_eq_of_le behind with beyond | rfl
        · exact Nat.le_of_lt
            (instructionLines_lt lines (count + 1) position next other follows there beyond)
        · rw [there] at follows
          cases follows
          exact Nat.le_refl _

end ToyComputer.Assembly
