import ToyComputer.Proofs.Retention

/-!
Polling: how much a display retains is told by how much was written to it, and goes up and down. One
byte more than half of the capacity is always there once so much was written, so whoever looks in
time after each batch of bytes gathers all of them.
-/

namespace ToyComputer

/-- How many bytes are left of so many that were written. -/
def retained (written : Nat) : Nat :=
  if written ≤ 1000 then written else 501 + (written - 1001) % 500

def latest (count : Nat) (bytes : List UInt8) : List UInt8 := bytes.drop (bytes.length - count)

/-- Someone who looks at a display from time to time. -/
structure Poller where
  gathered : List UInt8 := []
  seen : Nat := 0
  deriving DecidableEq, Repr

def Poller.poll (poller : Poller) (display : Display) : Poller where
  gathered := poller.gathered ++ display.since poller.seen
  seen := display.written

def Display.polled (state : Display × Poller) (batch : List UInt8) : Display × Poller :=
  let display := state.1.pushAll batch
  (display, state.2.poll display)

theorem retained_le (written : Nat) : retained written ≤ written := by
  unfold retained
  split
  · exact Nat.le_refl written
  · omega

theorem le_retained (written : Nat) : min written 501 ≤ retained written := by
  -- Right after the older half was dropped there are the least bytes, and they are this many.
  unfold retained
  split
  · exact Nat.min_le_left written 501
  · exact Nat.le_trans (Nat.min_le_right written 501) (Nat.le_add_right 501 _)

theorem retained_succ (written : Nat) :
    retained (written + 1) =
      if 1000 < retained written + 1 then retained written + 1 - 500 else retained written + 1 := by
  rcases Nat.lt_trichotomy written 1000 with fewer | rfl | more
  · have before : retained written = written := if_pos (Nat.le_of_lt fewer)
    have after : retained (written + 1) = written + 1 := if_pos fewer
    rw [before, after, if_neg (Nat.not_lt.mpr fewer)]
  · rfl
  · have before : retained written = 501 + (written - 1001) % 500 := if_neg (Nat.not_le.mpr more)
    have after : retained (written + 1) = 501 + (written + 1 - 1001) % 500 :=
      if_neg (Nat.not_le.mpr (Nat.lt_succ_of_lt more))
    rw [before, after]
    split <;> omega

namespace Display

theorem pushAll_append (display : Display) (first second : List UInt8) :
    display.pushAll (first ++ second) = (display.pushAll first).pushAll second :=
  List.foldl_append

theorem size_push (display : Display) (byte : UInt8)
    (sized : display.bytes.size = retained display.written) :
    (display.push byte).bytes.size = retained (display.push byte).written := by
  have written : (display.push byte).written = display.written + 1 := rfl
  rw [written, retained_succ, ← sized]
  simp only [push, capacity, Array.size_push]
  split
  · simp
  · exact Array.size_push byte

theorem size_pushAll (display : Display) (bytes : List UInt8)
    (sized : display.bytes.size = retained display.written) :
    (display.pushAll bytes).bytes.size = retained (display.pushAll bytes).written := by
  induction bytes generalizing display with
  | nil => exact sized
  | cons byte bytes ih =>
      apply ih (display.push byte)
      exact size_push display byte sized

theorem shows_all (bytes : List UInt8) : (pushAll {} bytes).Shows bytes :=
  shows_pushAll {} [] bytes shows_empty

theorem size_all (bytes : List UInt8) :
    (pushAll {} bytes).bytes.size = retained bytes.length := by
  rw [size_pushAll {} bytes rfl, (shows_all bytes).written]

theorem toList_all (bytes : List UInt8) :
    (pushAll {} bytes).bytes.toList = latest (retained bytes.length) bytes := by
  have size : (pushAll {} bytes).bytes.toList.length = retained bytes.length :=
    Array.length_toList.trans (size_all bytes)
  calc (pushAll {} bytes).bytes.toList
      = bytes.drop (bytes.length - (pushAll {} bytes).bytes.toList.length) :=
        List.suffix_iff_eq_drop.mp (shows_all bytes).latest
    _ = latest (retained bytes.length) bytes := by rw [size, latest]

theorem since_all (bytes : List UInt8) (seen : Nat) :
    ∃ start,
      start + min (bytes.length - seen) (retained bytes.length) = (pushAll {} bytes).bytes.size ∧
      (pushAll {} bytes).since seen = (pushAll {} bytes).bytes.toList.drop start := by
  refine ⟨(pushAll {} bytes).bytes.size - ((pushAll {} bytes).written - seen), ?_,
    toList_extract_from _ _⟩
  rw [size_all, (shows_all bytes).written]
  omega

theorem since_eq_latest (bytes : List UInt8) (seen : Nat) :
    (pushAll {} bytes).since seen =
      latest (min (bytes.length - seen) (retained bytes.length)) bytes := by
  obtain ⟨start, reaches, cut⟩ := since_all bytes seen
  have fewer := retained_le bytes.length
  rw [size_all] at reaches
  rw [cut, toList_all, latest, latest, List.drop_drop]
  congr 1
  omega

theorem since_recent (bytes : List UInt8) (seen : Nat) (recent : bytes.length - seen ≤ 501) :
    (pushAll {} bytes).since seen = bytes.drop seen := by
  have enough := le_retained bytes.length
  apply since_of_retained _ bytes seen (shows_all bytes)
  rw [size_all]
  omega

theorem polled_all (log batch : List UInt8) (short : batch.length ≤ 501) :
    polled (pushAll {} log, ⟨log, log.length⟩) batch =
      (pushAll {} (log ++ batch), ⟨log ++ batch, (log ++ batch).length⟩) := by
  have recent : (log ++ batch).length - log.length ≤ 501 := by
    rwa [List.length_append, Nat.add_sub_cancel_left]
  have fresh : (pushAll {} (log ++ batch)).since log.length = batch := by
    rw [since_recent (log ++ batch) log.length recent, List.drop_left]
  simp only [polled, Poller.poll, ← pushAll_append, fresh, (shows_all (log ++ batch)).written]

theorem polled_batches (log : List UInt8) (batches : List (List UInt8))
    (short : ∀ batch ∈ batches, batch.length ≤ 501) :
    batches.foldl polled (pushAll {} log, ⟨log, log.length⟩) =
      (pushAll {} (log ++ batches.flatten),
        ⟨log ++ batches.flatten, (log ++ batches.flatten).length⟩) := by
  induction batches generalizing log with
  | nil => rw [List.flatten_nil, List.append_nil]; rfl
  | cons batch batches ih =>
      have first := short batch List.mem_cons_self
      have others := ih (log ++ batch) fun next member =>
        short next (List.mem_cons_of_mem batch member)
      rw [List.foldl_cons, polled_all log batch first, others, List.flatten_cons, List.append_assoc]

/-- A display counts all bytes and retains the latest, and of the bytes behind the first so many it
tells the latest that it retains. No byte is missed by a poller that looks after every batch, if no
batch is longer than what is retained at the least. -/
theorem display_retains_latest :
    (∀ bytes : List UInt8,
      let display := pushAll {} bytes
      display.written = bytes.length ∧ display.bytes.size = retained bytes.length ∧
      display.bytes.toList = latest (retained bytes.length) bytes ∧
      ∀ seen, display.since seen =
          latest (min (bytes.length - seen) (retained bytes.length)) bytes ∧
        ∃ start,
          start + min (bytes.length - seen) (retained bytes.length) = display.bytes.size ∧
          display.since seen = display.bytes.toList.drop start) ∧
    ∀ batches : List (List UInt8), (∀ batch ∈ batches, batch.length ≤ 501) →
      (batches.foldl polled ({}, {})).2.gathered = batches.flatten := by
  constructor
  · intro bytes display
    refine ⟨(shows_all bytes).written, size_all bytes, toList_all bytes, ?_⟩
    intro seen
    exact ⟨since_eq_latest bytes seen, since_all bytes seen⟩
  · intro batches short
    have followed := polled_batches [] batches short
    exact congrArg (fun state : Display × Poller => state.2.gathered) followed

def threeBatches : List (List UInt8) :=
  [List.replicate 501 7, List.replicate 499 8, [9, 10, 11]]

theorem threeBatches_gathered :
    (∀ batch ∈ threeBatches, batch.length ≤ 501) ∧
      (threeBatches.foldl polled ({}, {})).2.gathered = threeBatches.flatten ∧
      (pushAll {} threeBatches.flatten).bytes.size = 503 := by
  have short : ∀ batch ∈ threeBatches, batch.length ≤ 501 := by decide +kernel
  obtain ⟨held, followed⟩ := display_retains_latest
  obtain ⟨_, size, _⟩ := held threeBatches.flatten
  exact ⟨short, followed threeBatches short, size.trans (by decide +kernel)⟩

end Display

end ToyComputer
