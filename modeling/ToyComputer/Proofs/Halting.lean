import ToyComputer.Proofs.Calls
import ToyComputer.Proofs.Scheduling

/-!
What it means that a summary says the program has halted. A session only remembers whether a program
is loaded, and an error unloads one too: a program that an error cut off has not come to its end, but
resuming the session reports it as halted.
-/

namespace ToyComputer

/-- An error of a step or of the step limit cuts a program off. One that does not assemble was never
begun. -/
def SessionError.cutsOff : SessionError → Bool
  | assembly _ => false
  | execution .. | stepLimitExceeded _ => true

def cutsOff {α : Type} : Except SessionError α → Bool
  | .error error => error.cutsOff
  | .ok _ => false

def Call.goesOn : Call → Bool
  | resume _ | pushKey _ => true
  | _ => false

/-- Whether the program is cut off after a call, given whether it was before. -/
def Call.leavesCutOff (call : Call) (before : Bool) (reply : Except SessionError Reply) : Bool :=
  cutsOff reply || (call.goesOn && before)

/-- The sessions that calls lead to, each with whether its program was cut off. -/
inductive Session.Traced : Bool → Session → Prop where
  | fresh : Traced false Session.fresh
  | call {cut : Bool} {session after : Session} {call : Call} {machines : List Machine}
    {reply : Except SessionError Reply} (before : Traced cut session)
    (returned : call.Returns session machines reply after) :
    Traced (call.leavesCutOff cut reply) after

theorem Machine.isHalted_of_fault (machine after : Machine) (fault : Fault)
    (failed : machine.step = (.error fault, after)) : after.isHalted = false := by
  rcases machine.step_cases with ⟨_, same⟩ | ⟨instruction, _, memory, found, _, same⟩ |
    ⟨_, _, _, _, _, same⟩
  · rw [same] at failed; cases failed
  · rw [same] at failed
    cases failed
    exact Option.isNone_eq_false_iff.mpr (Option.isSome_of_eq_some found)
  · rw [same] at failed; cases failed

namespace Session

/-- An unloaded session has come to its end unless it was cut off. -/
structure Settled (cut : Bool) (session : Session) : Prop where
  running : session.loaded = true → cut = false
  stopped : session.loaded = false → session.machine.isHalted = !cut

structure Ended (result : Except SessionError Summary) (after : Session) : Prop where
  settled : after.Settled (ToyComputer.cutsOff result)
  unloaded : ∀ steps, result = .ok ⟨steps, .halted⟩ → after.loaded = false

theorem settled_of_loaded (session : Session) (loaded : session.loaded = true) :
    session.Settled false :=
  ⟨fun _ => rfl, fun unloaded => by rw [loaded] at unloaded; cases unloaded⟩

theorem settled_fresh : fresh.Settled false := ⟨nofun, fun _ => rfl⟩

namespace Ended

variable (after : Session)

theorem error (error : SessionError) (settled : after.Settled error.cutsOff) :
    Ended (.error error) after :=
  ⟨settled, fun _ same => by cases same⟩

theorem ongoing (steps : Nat) (outcome : Outcome) (other : outcome ≠ .halted)
    (loaded : after.loaded = true) : Ended (.ok ⟨steps, outcome⟩) after :=
  ⟨settled_of_loaded after loaded, fun _ same => by cases same; exact absurd rfl other⟩

theorem halted (steps : Nat) (settled : after.Settled false) (unloaded : after.loaded = false) :
    Ended (.ok ⟨steps, .halted⟩) after :=
  ⟨settled, fun _ _ => unloaded⟩

end Ended

theorem stepLoaded_settled (session : Session) (loaded : session.loaded = true) :
    session.stepLoaded.2.Settled (ToyComputer.cutsOff session.stepLoaded.1) ∧
      (session.stepLoaded.1 = .ok .continuing → session.stepLoaded.2.loaded = true) ∧
      (session.stepLoaded.1 = .ok .halted → session.stepLoaded.2.loaded = false) := by
  unfold stepLoaded
  split
  · exact ⟨settled_of_loaded _ loaded, fun _ => loaded, nofun⟩
  · next machine stepped =>
      obtain ⟨none, rfl⟩ := Machine.step_halted session.machine machine stepped
      exact ⟨⟨nofun, fun _ => Option.isNone_iff_eq_none.mpr none⟩, nofun, fun _ => rfl⟩
  · next fault machine stepped =>
      exact ⟨⟨nofun, fun _ => Machine.isHalted_of_fault _ machine fault stepped⟩, nofun, nofun⟩

theorem resumeFrom_ended (steps more : Nat) (session : Session) (loaded : session.loaded = true) :
    Ended (resumeFrom steps more session).1 (resumeFrom steps more session).2 := by
  induction more generalizing steps session with
  | zero =>
      simp only [resumeFrom, loaded, if_true]
      exact .ongoing _ steps .paused (by decide) loaded
  | succ more ih =>
      obtain ⟨settled, continues, halts⟩ := session.stepLoaded_settled loaded
      simp only [resumeFrom, loaded, if_true]
      generalize session.stepLoaded = stepped at settled continues halts ⊢
      rcases stepped with ⟨error | status, next⟩
      · exact .error next error settled
      · cases status with
        | continuing => exact ih (steps + 1) next (continues rfl)
        | halted => exact .halted next steps settled (halts rfl)

end Session

namespace Run

variable {σ : Type} (visit : Visitor σ) (limit : Option Nat)

theorem turn_ended (run : Run σ) (loaded : run.session.loaded = true) :
    (∃ next, run.turn visit limit = (none, next) ∧ next.session.loaded = true) ∨
    (∃ result final, run.turn visit limit = (some result, final) ∧
      Session.Ended result final.session) := by
  rw [turn_eq]
  cases signal : (visit run.visitor run.session.machine).1 with
  | cancel => exact Or.inr ⟨_, _, rfl, .ongoing _ _ .cancelled (by decide) loaded⟩
  | proceed =>
      cases exceeded : exceeds limit run.steps (run.visited visit) with
      | some bound =>
          obtain ⟨_, _, present⟩ := (exceeds_eq_some limit run.steps bound _).mp exceeded
          have settled : Session.Settled true (run.looked visit).session.unload :=
            ⟨nofun, fun _ => Option.isNone_eq_false_iff.mpr present⟩
          exact Or.inr ⟨_, _, rfl, .error _ _ settled⟩
      | none =>
          obtain ⟨settled, continues, halts⟩ :=
            (run.looked visit).session.stepLoaded_settled loaded
          generalize (run.looked visit).session.stepLoaded = stepped at settled continues halts ⊢
          rcases stepped with ⟨error | status, after⟩
          · exact Or.inr ⟨_, _, rfl, .error after error settled⟩
          · cases status with
            | continuing => exact Or.inl ⟨_, rfl, continues rfl⟩
            | halted => exact Or.inr ⟨_, _, rfl, .halted after _ settled (halts rfl)⟩

theorem turns_ended (count : Nat) (run final : Run σ) (result : Except SessionError Summary)
    (loaded : run.session.loaded = true)
    (ended : run.turns visit limit count = (some result, final)) :
    Session.Ended result final.session := by
  induction count generalizing run with
  | zero => cases ended
  | succ count ih =>
      rcases run.turn_ended visit limit loaded with
        ⟨next, turned, still⟩ | ⟨_, _, turned, done⟩
      · rw [turns, turned] at ended
        exact ih next still ended
      · rw [turns, turned] at ended
        cases ended
        exact done

end Run

theorem Session.run_ended {σ : Type} (session : Session) (source : String) (limit : Option Nat)
    (visit : Visitor σ) (visitor : σ) (count : Nat) (result : Except SessionError Summary)
    (final : Run σ) (ended : session.run source limit visit visitor count = (some result, final)) :
    Session.Ended result final.session := by
  rcases session.run_cases source limit visit visitor count with
    ⟨program, _, same, _⟩ | ⟨error, same, _⟩
  · rw [same] at ended
    exact (Run.loaded program visitor).turns_ended visit limit count final result rfl ended
  · rw [same] at ended
    cases ended
    exact .error _ _ settled_fresh

theorem cutsOff_map {α β : Type} (wrap : α → β) (result : Except SessionError α) :
    cutsOff (result.map wrap) = cutsOff result := by
  cases result <;> rfl

namespace Call

variable {session after : Session} {machines : List Machine}

theorem leavesCutOff_of_starts (call : Call) (before : Bool) (reply : Except SessionError Reply)
    (starts : call.goesOn = false) : call.leavesCutOff before reply = cutsOff reply := by
  rw [leavesCutOff, starts, Bool.false_and, Bool.or_false]

theorem settled_resume (limit : Nat) (cut : Bool) (settled : session.Settled cut) :
    (session.resume limit).2.Settled
      ((Call.resume limit).leavesCutOff cut ((session.resume limit).1.map .summary)) := by
  rw [leavesCutOff, cutsOff_map, Session.resume]
  cases loaded : session.loaded with
  | false =>
      rw [Session.resumeFrom_unloaded 0 limit session loaded]
      exact settled
  | true =>
      rw [settled.running loaded, Bool.and_false, Bool.or_false]
      exact (session.resumeFrom_ended 0 limit loaded).settled

theorem settled_singleStep (source : String) :
    (session.singleStep source).2.Settled (ToyComputer.cutsOff (session.singleStep source).1) := by
  rcases session.singleStep_cases source with ⟨ready, found, same⟩ | ⟨_, _, error, same⟩
  · rw [same]
    exact (ready.stepLoaded_settled (session.readied?_loaded ready source found)).1
  · rw [same]
    exact Session.settled_fresh

theorem Returns.settled {call : Call} {reply : Except SessionError Reply} {cut : Bool}
    (returned : call.Returns session machines reply after) (settled : session.Settled cut) :
    after.Settled (call.leavesCutOff cut reply) := by
  cases returned with
  | reset => exact Session.settled_fresh
  | pushKey key => exact ⟨settled.running, settled.stopped⟩
  | resume limit => exact settled_resume limit cut settled
  | load source =>
      rcases session.load_cases source with ⟨program, _, same⟩ | ⟨error, _, same⟩
      · rw [same]
        exact Session.settled_of_loaded _ rfl
      · rw [same]
        exact Session.settled_fresh
  | singleStep source =>
      rw [leavesCutOff_of_starts _ _ _ rfl, cutsOff_map]
      exact settled_singleStep source
  | run source limit visit visitor count result final ended =>
      rw [leavesCutOff_of_starts _ _ _ rfl, cutsOff_map]
      exact (session.run_ended source limit visit visitor count result final ended).settled

end Call

theorem Session.Traced.settled {cut : Bool} {session : Session}
    (traced : Session.Traced cut session) : session.Settled cut := by
  induction traced with
  | fresh => exact settled_fresh
  | call before returned ih => exact returned.settled ih

theorem Call.ok_of_map {α : Type} (result : Except SessionError α) (wrap : α → Reply)
    (reply : Reply) (answered : .ok reply = result.map wrap) :
    ∃ value, result = .ok value ∧ reply = wrap value := by
  cases result with
  | error error => cases answered
  | ok value => cases answered; exact ⟨value, rfl, rfl⟩

/-- Where a summary comes from that says halted. -/
theorem Call.Returns.halted_cases {call : Call} {session after : Session} {machines : List Machine}
    {steps : Nat}
    (returned : call.Returns session machines (.ok (.summary ⟨steps, .halted⟩)) after) :
    (call.goesOn = true ∧ session.loaded = false ∧ steps = 0 ∧ after = session) ∨
    ((call.goesOn = true → session.loaded = true) ∧ after.loaded = false) := by
  generalize answer : Except.ok (Reply.summary ⟨steps, .halted⟩) = reply at returned
  cases returned with
  | reset => cases answer
  | pushKey key => cases answer
  | load source =>
      obtain ⟨_, _, other⟩ := ok_of_map _ _ _ answer
      cases other
  | singleStep source =>
      obtain ⟨_, _, other⟩ := ok_of_map _ _ _ answer
      cases other
  | resume limit =>
      obtain ⟨summary, resumed, same⟩ := ok_of_map _ _ _ answer
      cases same
      cases loaded : session.loaded with
      | false =>
          rw [Session.resume, Session.resumeFrom_unloaded 0 limit session loaded] at resumed ⊢
          cases resumed
          exact Or.inl ⟨rfl, rfl, rfl, rfl⟩
      | true =>
          exact Or.inr ⟨fun _ => rfl,
            (session.resumeFrom_ended 0 limit loaded).unloaded steps resumed⟩
  | run source limit visit visitor count result final ended =>
      obtain ⟨summary, rfl, same⟩ := ok_of_map _ _ _ answer
      cases same
      have unloaded :=
        (session.run_ended source limit visit visitor count _ final ended).unloaded steps rfl
      exact Or.inr ⟨fun goes => absurd goes Bool.false_ne_true, unloaded⟩

/-- If a summary says halted, there is nothing left to execute, except where a session goes on whose
program was cut off. That does nothing, and an instruction is still to come. -/
theorem halted_summary {cut : Bool} {session after : Session} {call : Call}
    {machines : List Machine} {steps : Nat} (traced : Session.Traced cut session)
    (returned : call.Returns session machines (.ok (.summary ⟨steps, .halted⟩)) after) :
    (after.machine.isHalted = !(cut && call.goesOn)) ∧
      (cut = true → call.goesOn = true → steps = 0 ∧ after = session) := by
  rcases returned.halted_cases with ⟨goes, unloaded, rfl, rfl⟩ | ⟨going, unloaded⟩
  · refine ⟨?_, fun _ _ => ⟨rfl, rfl⟩⟩
    rw [goes, Bool.and_true]
    exact traced.settled.stopped unloaded
  · refine ⟨?_, fun broken goes => ?_⟩
    · rw [Bool.and_comm]
      exact (returned.settled traced.settled).stopped unloaded
    · rw [traced.settled.running (going goes)] at broken
      cases broken

def watch : Visitor Unit := fun _ machine => (.proceed, (), machine.memory)

def runOne (limit : Option Nat) (count : Nat) :
    Option (Except SessionError Summary) × Run Unit :=
  Session.fresh.run "copy r0, 1" limit watch () count

theorem runOne_returns (limit : Option Nat) (count : Nat) (result : Except SessionError Summary)
    (ended : (runOne limit count).1 = some result) :
    ∃ machines, (Call.run "copy r0, 1" limit watch ()).Returns Session.fresh machines
      (result.map .summary) (runOne limit count).2.session :=
  ⟨_, .run _ limit watch () count result _ (Prod.ext ended rfl)⟩

def cutShort : Session := (runOne (some 0) 1).2.session

theorem traced_cutShort : Session.Traced true cutShort := by
  have exceeded : (runOne (some 0) 1).1 = some (.error (.stepLimitExceeded 0)) := by decide +kernel
  obtain ⟨machines, returned⟩ := runOne_returns (some 0) 1 _ exceeded
  exact .call .fresh returned

theorem resume_cutShort : (Call.resume 0).Returns cutShort [] (.ok (.summary ⟨0, .halted⟩))
    cutShort := by
  have unloaded : cutShort.loaded = false := by decide +kernel
  have returned : (Call.resume 0).Returns cutShort _ _ _ := .resume 0
  rw [Session.resume, Session.resumeFrom_unloaded 0 0 _ unloaded] at returned
  exact returned

theorem resumed_says_halted :
    Session.Traced true cutShort ∧
      (Call.resume 0).Returns cutShort [] (.ok (.summary ⟨0, .halted⟩)) cutShort ∧
      ¬ cutShort.machine.isHalted = true :=
  ⟨traced_cutShort, resume_cutShort, by decide +kernel⟩

theorem runOne_summary :
    (runOne none 2).2.session.machine.isHalted = true ∧ cutShort.machine.isHalted = false := by
  have ended : (runOne none 2).1 = some (.ok ⟨1, .halted⟩) := by decide +kernel
  obtain ⟨_, ran⟩ := runOne_returns none 2 _ ended
  exact ⟨(halted_summary .fresh ran).1, (halted_summary traced_cutShort resume_cutShort).1⟩

end ToyComputer
