import ToyComputer.Proofs.Layout
import ToyComputer.Proofs.Retention
import ToyComputer.Proofs.Stores
import ToyComputer.Proofs.Turns
import ToyComputer.Runner.Execute

/-!
Streaming: what the runner writes is what the program gave to the display. The display is copied
before every step and a step writes at most one byte, so nothing is dropped before it was copied.
-/

namespace ToyComputer

theorem Writer.write_unlimited (writer : Writer) (bytes : List UInt8)
    (unlimited : writer.capacity = none) :
    writer.write bytes = (true, { writer with written := writer.written ++ bytes.toArray }) := by
  simp [write, room, unlimited]

namespace Runner

theorem writeAll_unlimited (writer : Writer) (texts : List (List UInt8))
    (unlimited : writer.capacity = none) :
    writeAll writer texts =
      (true, { writer with written := writer.written ++ texts.flatten.toArray }) := by
  induction texts generalizing writer with
  | nil => simp [writeAll]
  | cons bytes texts ih =>
      rw [writeAll, Writer.write_unlimited writer bytes unlimited]
      have rest := ih { writer with written := writer.written ++ bytes.toArray } unlimited
      refine rest.trans ?_
      simp

/-- The console has copied the first bytes that the display was given, behind what was written
before. -/
structure Console.Copied (console : Console) (before log : List UInt8) : Prop where
  unlimited : console.writer.capacity = none
  intact : console.failed = false
  inside : console.seen ≤ log.length
  written : console.writer.written.toList = before ++ log.take console.seen

theorem copyDisplay_complete (console : Console) (display : Display) (before log : List UInt8)
    (copied : console.Copied before log) (shown : display.Shows log)
    (recent : log.length ≤ console.seen + 1) :
    (console.copyDisplay display).Copied before log ∧
      (console.copyDisplay display).seen = log.length := by
  obtain ⟨unlimited, intact, inside, written⟩ := copied
  have fresh := Display.since_eq_drop display log console.seen shown
    (by simp only [Display.capacity]; omega)
  unfold Console.copyDisplay
  split
  · next nothing =>
      rw [fresh, List.drop_eq_nil_iff] at nothing
      have all : console.seen = log.length := Nat.le_antisymm inside nothing
      exact ⟨⟨unlimited, intact, inside, written⟩, all⟩
  · rw [Writer.write_unlimited console.writer _ unlimited, fresh]
    simp only [shown.written]
    refine ⟨⟨unlimited, intact, Nat.le_refl _, ?_⟩, trivial⟩
    rw [List.take_length]
    simp [written]

theorem Console.Copied.extend {console : Console} {before log : List UInt8}
    (copied : console.Copied before log) (fresh : List UInt8) :
    console.Copied before (log ++ fresh) := by
  obtain ⟨unlimited, intact, inside, written⟩ := copied
  refine ⟨unlimited, intact, ?_, ?_⟩
  · rw [List.length_append]
    omega
  · rw [written, List.take_append_of_le_length inside]

theorem console_visit (console : Console) (machine : Machine) :
    (Console.visit console machine).2.1 =
      Console.copyDisplay
        { console with
          input := (Console.typeInput machine.memory.keyboard console.input).2.2
          arrived := [] }
        machine.memory.display := rfl

theorem display_visited (run : Run Console) :
    (run.visited Console.visit).memory.display = run.session.machine.memory.display := rfl

/-- Before a turn the console may have missed the byte of the last step, but no more. -/
structure Streams (before log : List UInt8) (run : Run Console) : Prop where
  shown : run.session.machine.memory.display.Shows log
  copied : run.visitor.Copied before log
  recent : log.length ≤ run.visitor.seen + 1

theorem streams_turn (limit : Option Nat) (before log : List UInt8) (run : Run Console)
    (streams : Streams before log run) :
    Streams before (log ++ (run.stepping? Console.visit limit).toList.flatMap Machine.displayed)
      (run.turn Console.visit limit).2 := by
  obtain ⟨shown, ⟨unlimited, intact, inside, written⟩, recent⟩ := streams
  have visitor := Run.visitor_turn Console.visit limit run
  rw [console_visit] at visitor
  obtain ⟨copied, seen⟩ := copyDisplay_complete
    { run.visitor with
      input := (Console.typeInput run.session.machine.memory.keyboard run.visitor.input).2.2
      arrived := [] }
    run.session.machine.memory.display before log ⟨unlimited, intact, inside, written⟩ shown recent
  rw [← visitor] at copied seen
  have machine := Run.machine_turn Console.visit limit run
  cases stepped : run.stepping? Console.visit limit with
  | none =>
      rw [stepped, Option.map_none, Option.getD_none] at machine
      refine ⟨?_, copied.extend _, ?_⟩
      · rw [machine, display_visited]
        simpa using shown
      · rw [seen]
        simp
  | some stepping =>
      rw [stepped, Option.map_some, Option.getD_some] at machine
      have visited := Run.stepping?_eq_some Console.visit limit run stepping stepped
      have display : (run.turn Console.visit limit).2.session.machine.memory.display =
          run.session.machine.memory.display.pushAll stepping.displayed :=
        calc (run.turn Console.visit limit).2.session.machine.memory.display
            = stepping.memory.display.pushAll stepping.displayed := by
              rw [machine, Machine.display_step]
          _ = run.session.machine.memory.display.pushAll stepping.displayed := by
              rw [visited, display_visited]
      refine ⟨?_, copied.extend _, ?_⟩
      · rw [display]
        simpa using Display.shows_pushAll _ log stepping.displayed shown
      · have single := stepping.length_displayed
        rw [seen]
        simpa using single

theorem streams_turns (limit : Option Nat) (before log : List UInt8) (count : Nat)
    (run : Run Console) (streams : Streams before log run) :
    Streams before (log ++ (run.stepping Console.visit limit count).flatMap Machine.displayed)
      (run.turns Console.visit limit count).2 := by
  induction count generalizing log run with
  | zero => simpa [Run.stepping, Run.turns] using streams
  | succ count ih =>
      have after := streams_turn limit before log run streams
      rw [Run.stepping, Run.turns, List.flatMap_append, ← List.append_assoc]
      rcases taken : run.turn Console.visit limit with ⟨_ | result, next⟩
      · rw [taken] at after
        exact ih _ next after
      · rw [taken] at after
        simpa using after

theorem conclude_complete (options : Options) (result : Except SessionError Summary)
    (run : Run Console) (before log : List UInt8) (streams : Streams before log run) :
    (conclude options result run).2.written.toList =
      before ++ log ++
        (if options.dump then run.session.machine.registers.table.toUTF8.data.toList else []) := by
  obtain ⟨shown, ⟨unlimited, intact, inside, written⟩, recent⟩ := streams
  have fresh := Display.since_eq_drop _ log run.visitor.seen shown
    (by simp only [Display.capacity]; omega)
  have whole :
      before ++ log.take run.visitor.seen ++ log.drop run.visitor.seen = before ++ log := by
    rw [List.append_assoc, List.take_append_drop]
  simp only [conclude, intact, Bool.false_eq_true, if_false,
    writeAll_unlimited run.visitor.writer _ unlimited, fresh]
  cases result
  all_goals simp [written, ← List.append_assoc, whole]

theorem streams_start (program : Program) (options : Options) (arrived : List UInt8)
    (writer : Writer) (unlimited : writer.capacity = none) :
    Streams writer.written.toList [] (Run.loaded program (options.console arrived writer)) where
  shown := Display.shows_empty
  copied := ⟨unlimited, rfl, Nat.le_refl _, by simp [Run.loaded, Options.console]⟩
  recent := Nat.zero_le _

/-- The runner writes each byte that the program gives to the display once and in order, and then
the register table if it was asked for, however the run ends. -/
theorem execute_streams_display (source : String) (program : Program) (options : Options)
    (arrived : List UInt8) (writer after : Writer) (count : Nat) (result : Except Failure Unit)
    (assembled : Assembly.assemble source = .ok program) (runs : options.listing = false)
    (unlimited : writer.capacity = none)
    (ended : execute source options arrived writer count = some (result, after)) :
    let run := Run.loaded program (options.console arrived writer)
    let last := (run.turns Console.visit options.steps count).2.session.machine
    after.written.toList = writer.written.toList ++
      (run.stepping Console.visit options.steps count).flatMap Machine.displayed ++
      (if options.dump then last.registers.table.toUTF8.data.toList else []) := by
  intro run last
  have streams := streams_turns options.steps writer.written.toList [] count run
    (streams_start program options arrived writer unlimited)
  have begun := Session.run_eq Session.fresh source options.steps Console.visit
    (options.console arrived writer) count program assembled
  simp only [execute, runs, Bool.false_eq_true, if_false, begun] at ended
  split at ended
  · next outcome final turned =>
      have concluded := conclude_complete options outcome final _ _ (turned ▸ streams)
      have same : last = final.session.machine := by
        simp only [last]
        rw [turned]
      rw [Option.some.inj ended] at concluded
      rw [same]
      exact concluded
  · cases ended

def twoBytes : String := "copy r0, 72\nsb [0x20000003], r0\nsw [0x20000003], sp"

theorem twoBytes_streamed : ∃ result after,
    execute twoBytes {} [] {} 3 = some (result, after) ∧ after.written.toList = [72, 0xF0] := by
  have assembled := Assembly.assembles twoBytes (by decide +kernel)
  obtain ⟨⟨result, after⟩, ended⟩ := Option.isSome_iff_exists.mp
    (by decide +kernel : (execute twoBytes {} [] {} 3).isSome = true)
  have streamed :=
    execute_streams_display twoBytes _ {} [] {} after 3 result assembled rfl rfl ended
  exact ⟨result, after, ended, streamed.trans (by decide +kernel)⟩

end Runner

end ToyComputer
