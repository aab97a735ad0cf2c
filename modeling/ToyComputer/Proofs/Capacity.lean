import ToyComputer.Proofs.StepLimit
import ToyComputer.Proofs.Streaming

/-!
Capacity: a writer that runs full cuts the output off and changes nothing else. As long as all that
was written fits, the runner does what it does with a writer that takes everything; at the first byte
too many it gives up, wherever that byte comes from.
-/

namespace ToyComputer

namespace Writer

/-- What a writer of this capacity keeps of all that this one took. -/
def limited (capacity : Nat) (writer : Writer) : Writer :=
  ⟨(writer.written.toList.take capacity).toArray, some capacity⟩

def Extends (first second : Writer) : Prop := first.written.toList <+: second.written.toList

namespace Extends

variable {first second : Writer}

theorem refl (writer : Writer) : Extends writer writer := List.prefix_refl _

theorem trans {third : Writer} (more : Extends first second) (further : Extends second third) :
    Extends first third :=
  List.IsPrefix.trans more further

theorem size (more : Extends first second) : first.written.size ≤ second.written.size := by
  simpa using List.IsPrefix.length_le more

theorem limited (more : Extends first second) {capacity : Nat}
    (full : capacity ≤ first.written.size) : second.limited capacity = first.limited capacity := by
  obtain ⟨rest, whole⟩ := more
  have enough : capacity ≤ first.written.toList.length := by simpa using full
  simp only [Writer.limited, ← whole, List.take_append_of_le_length enough]

end Extends

theorem write_limited (capacity : Nat) (writer : Writer) (bytes : List UInt8)
    (unlimited : writer.capacity = none) (fits : writer.written.size ≤ capacity) :
    ∃ behind : Writer, writer.write bytes = (true, behind) ∧ behind.capacity = none ∧
      (writer.limited capacity).write bytes =
        (decide (behind.written.size ≤ capacity), behind.limited capacity) := by
  refine ⟨_, writer.write_unlimited bytes unlimited, unlimited, ?_⟩
  have kept : writer.written.toList.take capacity = writer.written.toList :=
    List.take_of_length_le (by simpa using fits)
  simp only [write, room, limited, kept, Array.toArray_toList, Array.size_append,
    List.size_toArray, Prod.mk.injEq, Writer.mk.injEq, and_true]
  constructor
  · rw [Bool.eq_iff_iff, beq_iff_eq, decide_eq_true_eq]
    omega
  · apply Array.toList_inj.mp
    rw [Array.toList_append, Array.toList_append, List.take_append, kept]
    simp [List.take_eq_take_min, Nat.min_comm]

end Writer

namespace Run

variable {σ τ : Type}

def map (view : σ → τ) (run : Run σ) : Run τ :=
  { session := run.session, visitor := view run.visitor, steps := run.steps, visits := run.visits }

theorem turn_map (view : σ → τ) (visit : Visitor σ) (other : Visitor τ) (limit : Option Nat)
    (run : Run σ)
    (alike : other (view run.visitor) run.session.machine =
      ((visit run.visitor run.session.machine).1, view (visit run.visitor run.session.machine).2.1,
        (visit run.visitor run.session.machine).2.2)) :
    (run.map view).turn other limit =
      ((run.turn visit limit).1, (run.turn visit limit).2.map view) := by
  have looked : (run.map view).looked other = (run.looked visit).map view := by
    simp only [Run.looked, visited, map, alike]
  have visited : (run.map view).visited other = run.visited visit := by
    simp only [visited, map, alike]
  have signal : (other (run.map view).visitor (run.map view).session.machine).1 =
      (visit run.visitor run.session.machine).1 := by
    simp only [map, alike]
  rw [turn_eq, turn_eq, looked, visited, signal]
  cases (visit run.visitor run.session.machine).1 with
  | cancel => rfl
  | proceed =>
      simp only [map]
      rcases exceeds limit run.steps (run.visited visit) with _ | bound
      · rcases (run.looked visit).session.stepLoaded with ⟨error | status, after⟩
        · rfl
        · cases status <;> rfl
      · rfl

theorem turn_cancelled (visit : Visitor σ) (limit : Option Nat) (run : Run σ)
    (cancels : (visit run.visitor run.session.machine).1 = .cancel) :
    run.turn visit limit = (some (.ok ⟨run.steps, .cancelled⟩), run.looked visit) := by
  simp only [turn_eq, cancels]

theorem start_map (view : σ → τ) (session : Session) (source : String) (visitor : σ) :
    start session source (view visitor) =
      ((start session source visitor).1, (start session source visitor).2.map view) := by
  unfold start
  rcases session.load source with ⟨error | done, after⟩ <;> rfl

theorem visitor_start (session : Session) (source : String) (visitor : σ) :
    (start session source visitor).2.visitor = visitor := by
  unfold start
  rcases session.load source with ⟨error | done, after⟩ <;> rfl

end Run

namespace Runner

theorem writeAll_limited (capacity : Nat) (writer : Writer) (texts : List (List UInt8))
    (unlimited : writer.capacity = none) (fits : writer.written.size ≤ capacity) :
    ∃ behind : Writer, writeAll writer texts = (true, behind) ∧
      writeAll (writer.limited capacity) texts =
        (decide (behind.written.size ≤ capacity), behind.limited capacity) := by
  induction texts generalizing writer with
  | nil => exact ⟨writer, rfl, by simp [writeAll, fits]⟩
  | cons bytes texts ih =>
      obtain ⟨next, took, still, cut⟩ := writer.write_limited capacity bytes unlimited fits
      simp only [writeAll, took, cut]
      by_cases room : next.written.size ≤ capacity
      · obtain ⟨behind, all, same⟩ := ih next still room
        exact ⟨behind, all, by simpa only [room, decide_true] using same⟩
      · -- The texts behind this one are not even tried.
        have full : capacity < next.written.size := Nat.lt_of_not_le room
        have more : next.Extends (writeAll next texts).2 := by
          rw [writeAll_unlimited next texts still]
          simp [Writer.Extends]
        have past := Nat.not_le_of_lt (Nat.lt_of_lt_of_le full more.size)
        refine ⟨(writeAll next texts).2, ?_, ?_⟩
        · rw [writeAll_unlimited next texts still]
        · simp only [room, past, decide_false, more.limited (Nat.le_of_lt full)]

namespace Console

/-- The console as it is if its writer has this capacity. -/
def limited (capacity : Nat) (console : Console) : Console :=
  { console with writer := console.writer.limited capacity }

structure Unlimited (console : Console) : Prop where
  writer : console.writer.capacity = none
  intact : console.failed = false

/-- The writer failed, and it holds the first of the bytes that this other one took. -/
structure CutOff (console : Console) (writer : Writer) (capacity : Nat) : Prop where
  failed : console.failed = true
  writer : console.writer = writer.limited capacity

theorem copyDisplay_unlimited (console : Console) (display : Display)
    (unlimited : console.Unlimited) :
    (console.copyDisplay display).Unlimited ∧
      console.writer.Extends (console.copyDisplay display).writer := by
  unfold copyDisplay
  split
  · exact ⟨unlimited, .refl _⟩
  · rw [console.writer.write_unlimited _ unlimited.writer]
    exact ⟨⟨unlimited.writer, unlimited.intact⟩, by simp [Writer.Extends]⟩

theorem copyDisplay_limited (capacity : Nat) (console : Console) (display : Display)
    (unlimited : console.Unlimited) (fits : console.writer.written.size ≤ capacity) :
    ((console.copyDisplay display).writer.written.size ≤ capacity ∧
      (console.limited capacity).copyDisplay display =
        (console.copyDisplay display).limited capacity) ∨
    (capacity < (console.copyDisplay display).writer.written.size ∧
      ((console.limited capacity).copyDisplay display).CutOff
        (console.copyDisplay display).writer capacity) := by
  obtain ⟨behind, took, _, cut⟩ :=
    console.writer.write_limited capacity (display.since console.seen) unlimited.writer fits
  unfold copyDisplay
  simp only [limited]
  split
  · exact Or.inl ⟨fits, rfl⟩
  · simp only [took, cut]
    by_cases room : behind.written.size ≤ capacity
    · refine Or.inl ⟨room, ?_⟩
      simp only [room, decide_true]
    · refine Or.inr ⟨Nat.lt_of_not_le room, ?_⟩
      simp only [room, decide_false]
      exact ⟨rfl, rfl⟩

def typed (console : Console) (machine : Machine) : Console :=
  { console with
    input := (typeInput machine.memory.keyboard console.input).2.2
    arrived := [] }

theorem visit_eq (console : Console) (machine : Machine) :
    console.visit machine =
      (if (console.visit machine).2.1.failed then .cancel else .proceed,
        (console.typed machine).copyDisplay machine.memory.display,
        (console.visit machine).2.2) := rfl

theorem visit_unlimited (console : Console) (machine : Machine) (unlimited : console.Unlimited) :
    (console.visit machine).2.1.Unlimited ∧
      console.writer.Extends (console.visit machine).2.1.writer := by
  rw [visit_eq]
  exact copyDisplay_unlimited (console.typed machine) _ ⟨unlimited.writer, unlimited.intact⟩

/-- What a visit writes fits, or the writer fails and the visit cancels the run. -/
theorem visit_limited (capacity : Nat) (console : Console) (machine : Machine)
    (unlimited : console.Unlimited) (fits : console.writer.written.size ≤ capacity) :
    ((console.visit machine).2.1.writer.written.size ≤ capacity ∧
      (console.limited capacity).visit machine =
        ((console.visit machine).1, (console.visit machine).2.1.limited capacity,
          (console.visit machine).2.2)) ∨
    (capacity < (console.visit machine).2.1.writer.written.size ∧
      ((console.limited capacity).visit machine).1 = .cancel ∧
      ((console.limited capacity).visit machine).2.1.CutOff
        (console.visit machine).2.1.writer capacity) := by
  rcases copyDisplay_limited capacity (console.typed machine) machine.memory.display
      ⟨unlimited.writer, unlimited.intact⟩ fits with ⟨room, same⟩ | ⟨overflows, cut⟩
  · refine Or.inl ⟨room, ?_⟩
    have after : ((console.limited capacity).visit machine).2.1 =
        (console.visit machine).2.1.limited capacity := same
    rw [visit_eq, after]
    exact congrArg₂ Prod.mk rfl (congrArg₂ Prod.mk after rfl)
  · refine Or.inr ⟨overflows, ?_, cut⟩
    rw [visit_eq]
    exact if_pos cut.failed

end Console

variable (limit : Option Nat) (capacity : Nat)

/-- What some turns come to with a writer of this capacity, where they come to `turned` with one that
takes everything: the same if all that was written fits, and otherwise an end. -/
inductive Limited (turned : Option (Except SessionError Summary) × Run Console) :
    Option (Except SessionError Summary) × Run Console → Prop where
  | fits (unlimited : turned.2.visitor.Unlimited)
    (room : turned.2.visitor.writer.written.size ≤ capacity) :
    Limited turned (turned.1, turned.2.map (Console.limited capacity))
  | full (result : Except SessionError Summary) (final : Run Console)
    (unlimited : turned.2.visitor.Unlimited)
    (overflows : capacity < turned.2.visitor.writer.written.size)
    (off : final.visitor.CutOff turned.2.visitor.writer capacity) :
    Limited turned (some result, final)

theorem turn_unlimited (run : Run Console) (unlimited : run.visitor.Unlimited) :
    (run.turn Console.visit limit).2.visitor.Unlimited ∧
      run.visitor.writer.Extends (run.turn Console.visit limit).2.visitor.writer := by
  rw [Run.visitor_turn]
  exact run.visitor.visit_unlimited _ unlimited

theorem turns_unlimited (count : Nat) (run : Run Console) (unlimited : run.visitor.Unlimited) :
    (run.turns Console.visit limit count).2.visitor.Unlimited ∧
      run.visitor.writer.Extends (run.turns Console.visit limit count).2.visitor.writer := by
  induction count generalizing run with
  | zero => exact ⟨unlimited, .refl _⟩
  | succ count ih =>
      have first := turn_unlimited limit run unlimited
      rw [Run.turns]
      rcases turned : run.turn Console.visit limit with ⟨_ | result, next⟩
      · rw [turned] at first
        obtain ⟨kept, more⟩ := ih next first.1
        exact ⟨kept, first.2.trans more⟩
      · rw [turned] at first
        exact first

theorem turn_limited (run : Run Console) (unlimited : run.visitor.Unlimited)
    (fits : run.visitor.writer.written.size ≤ capacity) :
    Limited capacity (run.turn Console.visit limit)
      ((run.map (Console.limited capacity)).turn Console.visit limit) := by
  have still := (turn_unlimited limit run unlimited).1
  have visitor := Run.visitor_turn Console.visit limit run
  rcases run.visitor.visit_limited capacity run.session.machine unlimited fits with
    ⟨room, alike⟩ | ⟨overflows, cancels, off⟩
  · rw [Run.turn_map _ _ _ limit run alike]
    exact .fits still (visitor ▸ room)
  · rw [Run.turn_cancelled _ limit (run.map (Console.limited capacity)) cancels]
    exact .full _ _ still (visitor ▸ overflows) (visitor ▸ off)

theorem turns_limited (count : Nat) (run : Run Console) (unlimited : run.visitor.Unlimited)
    (fits : run.visitor.writer.written.size ≤ capacity) :
    Limited capacity (run.turns Console.visit limit count)
      ((run.map (Console.limited capacity)).turns Console.visit limit count) := by
  -- By induction over the turns: where the writer fails the run ends, and what would be written in
  -- later turns lies behind the capacity.
  induction count generalizing run with
  | zero => exact .fits unlimited fits
  | succ count ih =>
      have first := turn_limited limit capacity run unlimited fits
      rw [Run.turns, Run.turns]
      generalize run.turn Console.visit limit = turned at first ⊢
      generalize (run.map (Console.limited capacity)).turn Console.visit limit = other at first ⊢
      rcases turned with ⟨result, next⟩
      cases first with
      | fits still room =>
          cases result with
          | none => exact ih next still room
          | some result => exact .fits still room
      | full ended final still overflows off =>
          cases result with
          | none =>
              obtain ⟨last, more⟩ := turns_unlimited limit count next still
              refine .full ended final last (Nat.lt_of_lt_of_le overflows more.size) ⟨off.failed, ?_⟩
              rw [more.limited (Nat.le_of_lt overflows)]
              exact off.writer
          | some result => exact .full ended final still overflows off

theorem run_limited (session : Session) (source : String) (console : Console) (count : Nat)
    (unlimited : console.Unlimited) (fits : console.writer.written.size ≤ capacity) :
    Limited capacity (session.run source limit Console.visit console count)
      (session.run source limit Console.visit (console.limited capacity) count) := by
  have visitor := Run.visitor_start session source console
  rw [Session.run, Session.run, Run.start_map]
  generalize Run.start session source console = started at visitor ⊢
  rcases started with ⟨_ | result, run⟩
  · cases visitor
    exact turns_limited limit capacity count run unlimited fits
  · cases visitor
    exact .fits unlimited fits

/-- What a runner with a writer of this capacity gives, where one with a writer that takes everything
gives this. -/
def cutOff (given : Except Failure Unit × Writer) : Except Failure Unit × Writer :=
  (if given.2.written.size ≤ capacity then given.1 else .error .writerFull,
    given.2.limited capacity)

theorem conclude_unlimited (options : Options) (result : Except SessionError Summary)
    (run : Run Console) (unlimited : run.visitor.Unlimited) :
    run.visitor.writer.Extends (conclude options result run).2 := by
  simp only [conclude, unlimited.intact, Bool.false_eq_true, if_false,
    writeAll_unlimited run.visitor.writer _ unlimited.writer]
  cases result <;> simp [Writer.Extends]

theorem conclude_limited (options : Options) (result : Except SessionError Summary)
    (run : Run Console) (unlimited : run.visitor.Unlimited)
    (fits : run.visitor.writer.written.size ≤ capacity) :
    conclude options result (run.map (Console.limited capacity)) =
      cutOff capacity (conclude options result run) := by
  simp only [conclude, Run.map, Console.limited, unlimited.intact, Bool.false_eq_true, if_false]
  generalize [run.session.machine.memory.display.since run.visitor.seen,
    if options.dump then run.session.machine.registers.table.toUTF8.data.toList else []] = texts
  obtain ⟨behind, took, cut⟩ :=
    writeAll_limited capacity run.visitor.writer texts unlimited.writer fits
  simp only [took, cut]
  by_cases room : behind.written.size ≤ capacity
  all_goals cases result <;> simp [cutOff, room]

theorem conclude_cutOff (options : Options) (result other : Except SessionError Summary)
    (run cut : Run Console) (unlimited : run.visitor.Unlimited)
    (overflows : capacity < run.visitor.writer.written.size)
    (off : cut.visitor.CutOff run.visitor.writer capacity) :
    conclude options other cut = cutOff capacity (conclude options result run) := by
  have more := conclude_unlimited options result run unlimited
  have beyond := Nat.not_le_of_lt (Nat.lt_of_lt_of_le overflows more.size)
  rw [cutOff, if_neg beyond, more.limited (Nat.le_of_lt overflows), ← off.writer]
  simp only [conclude, off.failed, if_true]

theorem writeListing_limited (source : String) (writer : Writer)
    (unlimited : writer.capacity = none) (fits : writer.written.size ≤ capacity) :
    writeListing source (writer.limited capacity) =
      cutOff capacity (writeListing source writer) := by
  unfold writeListing
  cases Assembly.assemble source with
  | error error => simp only [cutOff, fits, if_true]
  | ok program =>
      simp only [Writer.writeText]
      generalize (String.join _).toUTF8.data.toList = bytes
      obtain ⟨behind, took, _, cut⟩ := writer.write_limited capacity bytes unlimited fits
      simp only [took, cut]
      by_cases room : behind.written.size ≤ capacity
      all_goals simp [cutOff, room]

theorem execute_limited (source : String) (options : Options) (arrived : List UInt8)
    (writer : Writer) (count : Nat) (given : Except Failure Unit × Writer)
    (unlimited : writer.capacity = none) (fits : writer.written.size ≤ capacity)
    (ended : execute source options arrived writer count = some given) :
    execute source options arrived (writer.limited capacity) count =
      some (cutOff capacity given) := by
  unfold execute at ended ⊢
  split at ended
  · next lists =>
      cases ended
      rw [if_pos lists, writeListing_limited capacity source writer unlimited fits]
  · next runs =>
      have ran := run_limited options.steps capacity Session.fresh source
        (options.console arrived writer) count ⟨unlimited, rfl⟩ fits
      have console : options.console arrived (writer.limited capacity) =
          (options.console arrived writer).limited capacity := rfl
      rw [if_neg runs, console]
      generalize Session.fresh.run source options.steps Console.visit
        (options.console arrived writer) count = free at ended ran
      generalize Session.fresh.run source options.steps Console.visit
        ((options.console arrived writer).limited capacity) count = other at ran ⊢
      rcases free with ⟨_ | result, run⟩
      · cases ended
      · cases ended
        cases ran with
        | fits still room =>
            exact congrArg some (conclude_limited capacity options result run still room)
        | full ended final still overflows off =>
            exact congrArg some
              (conclude_cutOff capacity options result ended run final still overflows off)

/-- A writer that takes only so many bytes cuts the output off there, and the result is its failure
whatever it was otherwise. If the output fits, nothing changes. -/
theorem full_writer_cuts_output (source : String) (options : Options) (arrived : List UInt8)
    (capacity count : Nat) (result : Except Failure Unit) (output : Writer)
    (ended : execute source options arrived {} count = some (result, output)) :
    ∃ after : Writer,
      execute source options arrived { capacity := some capacity } count =
        some (if capacity < output.written.size then .error .writerFull else result, after) ∧
      after.written.toList = output.written.toList.take capacity := by
  have empty : ({ capacity := some capacity } : Writer) = ({} : Writer).limited capacity := by
    simp [Writer.limited]
  rw [empty, execute_limited capacity source options arrived {} count _ rfl (Nat.zero_le _) ended]
  refine ⟨output.limited capacity, ?_, rfl⟩
  simp only [cutOff, ← Nat.not_lt, ite_not]

theorem twoBytes_cut_off : ∃ output after,
    execute twoBytes {} [] {} 3 = some (.error (.session
      (.execution 14 (some 2) (.illegalAddress 0x20000004))), output) ∧
      output.written.toList = [72, 0xF0] ∧
      execute twoBytes {} [] { capacity := some 1 } 3 = some (.error .writerFull, after) ∧
      after.written.toList = [72] := by
  obtain ⟨⟨result, output⟩, ended⟩ := Option.isSome_iff_exists.mp
    (by decide +kernel : (execute twoBytes {} [] {} 3).isSome = true)
  have given : (execute twoBytes {} [] {} 3).map (fun given => (given.1, given.2.written.toList)) =
      some (.error (.session (.execution 14 (some 2) (.illegalAddress 0x20000004))),
        [72, 0xF0]) := by decide +kernel
  rw [ended] at given
  obtain ⟨failed, written⟩ := Prod.mk.inj (Option.some.inj given)
  obtain ⟨after, cut, kept⟩ := full_writer_cuts_output twoBytes {} [] 1 3 result output ended
  have overflows : 1 < output.written.size := by
    rw [← Array.length_toList, written]
    decide
  rw [if_pos overflows] at cut
  rw [written] at kept
  exact ⟨output, after, failed ▸ ended, written, cut, kept⟩

end Runner

end ToyComputer
