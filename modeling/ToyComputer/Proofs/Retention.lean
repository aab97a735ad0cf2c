import ToyComputer.Device.Display

/-!
Retention: the display holds the latest of the bytes that were ever written to it, and whoever looks
at it before half of its capacity was written anew misses none.
-/

namespace ToyComputer.Display

/-- What a display is after these bytes were written to it, of which it may have dropped the
earliest. -/
structure Shows (display : Display) (bytes : List UInt8) : Prop where
  written : display.written = bytes.length
  latest : display.bytes.toList <:+ bytes
  retained : min bytes.length (capacity / 2) ≤ display.bytes.size

theorem shows_empty : Shows {} [] := ⟨rfl, List.suffix_rfl, Nat.le_refl _⟩

theorem toList_extract_from (bytes : Array UInt8) (start : Nat) :
    (bytes.extract start).toList = bytes.toList.drop start := by
  simp [List.take_of_length_le]

theorem shows_push (display : Display) (bytes : List UInt8) (byte : UInt8)
    (before : display.Shows bytes) : (display.push byte).Shows (bytes ++ [byte]) := by
  obtain ⟨written, latest, retained⟩ := before
  have longer : (display.bytes.push byte).toList <:+ bytes ++ [byte] := by
    obtain ⟨dropped, rfl⟩ := latest
    exact ⟨dropped, by simp⟩
  constructor
  · simp [push, written]
  · simp only [push]
    split
    · rw [toList_extract_from]
      exact (List.drop_suffix _ _).trans longer
    · exact longer
  · simp only [push, List.length_append, List.length_singleton]
    split
    · next full =>
        simp only [capacity, Array.size_push, Array.size_extract] at full ⊢
        omega
    · rw [Array.size_push]
      omega

theorem shows_pushAll (display : Display) (bytes fresh : List UInt8)
    (before : display.Shows bytes) : (display.pushAll fresh).Shows (bytes ++ fresh) := by
  induction fresh generalizing display bytes with
  | nil => simpa [pushAll] using before
  | cons byte fresh ih =>
      have after := ih (display.push byte) (bytes ++ [byte]) (shows_push display bytes byte before)
      simpa [pushAll] using after

theorem since_of_retained (display : Display) (bytes : List UInt8) (seen : Nat)
    (shown : display.Shows bytes) (recent : bytes.length - seen ≤ display.bytes.size) :
    display.since seen = bytes.drop seen := by
  have size : display.bytes.toList.length = display.bytes.size := Array.length_toList
  have kept := List.suffix_iff_eq_drop.mp shown.latest
  have short := shown.latest.length_le
  rw [size] at kept short
  rw [since, toList_extract_from, kept, List.drop_drop, shown.written]
  by_cases ahead : bytes.length ≤ seen
  · rw [List.drop_of_length_le ahead, List.drop_of_length_le]
    omega
  · congr 1
    omega

/-- What is not older than half of the capacity is still there. -/
theorem since_eq_drop (display : Display) (bytes : List UInt8) (seen : Nat)
    (shown : display.Shows bytes) (recent : bytes.length - seen ≤ capacity / 2) :
    display.since seen = bytes.drop seen := by
  have retained := shown.retained
  exact since_of_retained display bytes seen shown (by omega)

end ToyComputer.Display
