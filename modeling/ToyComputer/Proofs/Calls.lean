import ToyComputer.Proofs.StepLimit

/-!
Calls: what a session is asked to do, one call after the other. A call may load a source first; what
it does then leaves the program alone, and it fails in a step only with the last machine that took
one.
-/

namespace ToyComputer

/-- A call of a session. A run brings its visitor along. -/
inductive Call : Type 1 where
  | reset
  | load (source : String)
  | singleStep (source : String)
  | resume (limit : Nat)
  | pushKey (key : UInt8)
  | run {σ : Type} (source : String) (limit : Option Nat) (visit : Visitor σ) (visitor : σ)

inductive Reply where
  | done
  | accepted (taken : Bool)
  | status (status : Status)
  | summary (summary : Summary)
  deriving DecidableEq, Repr

namespace Session

/-- The session that takes a single step: this one, or else what comes of loading the source. -/
def readied? (session : Session) (source : String) : Option Session :=
  if session.loaded then some session
  else
    match session.load source with
    | (.ok _, session) => some session
    | (.error _, _) => none

def resuming : (more : Nat) → Session → List Machine
  | 0, _ => []
  | more + 1, session =>
    if session.loaded then
      session.machine ::
        match session.stepLoaded with
        | (.ok .continuing, next) => resuming more next
        | _ => []
    else []

def running {σ : Type} (session : Session) (source : String) (limit : Option Nat)
    (visit : Visitor σ) (visitor : σ) (count : Nat) : List Machine :=
  match Run.start session source visitor with
  | (none, run) => run.stepping visit limit count
  | (some _, _) => []

end Session

/-- A call returns: the machines that took a step in it, each as it was before its step, the reply or
the error, and the session that it leaves. A run may go on forever, and then it does not return. -/
inductive Call.Returns (session : Session) :
    Call → List Machine → Except SessionError Reply → Session → Prop where
  | reset : Returns session .reset [] (.ok .done) session.reset
  | load (source : String) :
    Returns session (.load source) [] ((session.load source).1.map fun _ => .done)
      (session.load source).2
  | singleStep (source : String) :
    Returns session (.singleStep source) ((session.readied? source).map Session.machine).toList
      ((session.singleStep source).1.map .status) (session.singleStep source).2
  | resume (limit : Nat) :
    Returns session (.resume limit) (session.resuming limit)
      ((session.resume limit).1.map .summary) (session.resume limit).2
  | pushKey (key : UInt8) :
    Returns session (.pushKey key) [] (.ok (.accepted (session.pushKey key).1))
      (session.pushKey key).2
  | run {σ : Type} (source : String) (limit : Option Nat) (visit : Visitor σ) (visitor : σ)
    (count : Nat) (result : Except SessionError Summary) (final : Run σ)
    (ended : session.run source limit visit visitor count = (some result, final)) :
    Returns session (.run source limit visit visitor)
      (session.running source limit visit visitor count) (result.map .summary) final.session

/-- The source that a call loads. A single step loads its source only if nothing is loaded. -/
def Call.loading? (session : Session) : Call → Option String
  | .load source => some source
  | .run source .. => some source
  | .singleStep source => if session.loaded then none else some source
  | _ => none

/-- The sessions that calls lead to, each with the source that was loaded last. -/
inductive Session.Reached : Option String → Session → Prop where
  | fresh : Reached none Session.fresh
  | call {source : Option String} {session after : Session} {call : Call}
    {machines : List Machine} {reply : Except SessionError Reply}
    (before : Reached source session) (returned : call.Returns session machines reply after) :
    Reached (call.loading? session <|> source) after

namespace Session

def Holds (source : Option String) (session : Session) : Prop :=
  session.loaded = true →
    ∃ text, source = some text ∧ Assembly.assemble text = .ok session.machine.program

/-- What becomes of a session without loading anything, while these machines take a step. -/
structure Proceeds (begun : Session) (machines : List Machine) (after : Session) : Prop where
  program : after.machine.program = begun.machine.program
  loaded : after.loaded = true → begun.loaded = true
  stepping : ∀ machine ∈ machines, machine.program = begun.machine.program

/-- The last of these machines fails in its step, and what is left of it is no longer loaded. -/
def FailsAt (machines : List Machine) (pc : Word) (line : Option Nat) (fault : Fault)
    (after : Session) : Prop :=
  after.loaded = false ∧ ∃ earlier machine, machines = earlier ++ [machine] ∧
    machine.step = (.error fault, after.machine) ∧ pc = machine.registers.pc ∧
    line = machine.currentLine?

theorem Holds.proceeds {source : Option String} {begun after : Session} {machines : List Machine}
    (holds : begun.Holds source) (proceeds : begun.Proceeds machines after) :
    after.Holds source := by
  intro loaded
  rw [proceeds.program]
  exact holds (proceeds.loaded loaded)

namespace Proceeds

theorem refl (session : Session) : session.Proceeds [] session :=
  ⟨rfl, id, by simp⟩

theorem append {begun middle after : Session} {first second : List Machine}
    (one : begun.Proceeds first middle) (other : middle.Proceeds second after) :
    begun.Proceeds (first ++ second) after := by
  refine ⟨other.program.trans one.program, fun loaded => one.loaded (other.loaded loaded), ?_⟩
  intro machine member
  rcases List.mem_append.mp member with early | late
  · exact one.stepping machine early
  · exact (other.stepping machine late).trans one.program

end Proceeds

theorem FailsAt.append {machines : List Machine} {pc : Word} {line : Option Nat} {fault : Fault}
    {after : Session} (before : List Machine) (fails : FailsAt machines pc line fault after) :
    FailsAt (before ++ machines) pc line fault after := by
  obtain ⟨unloaded, earlier, machine, rfl, failed⟩ := fails
  exact ⟨unloaded, before ++ earlier, machine, (List.append_assoc before earlier _).symm, failed⟩

theorem load_cases (session : Session) (source : String) :
    (∃ program, Assembly.assemble source = .ok program ∧
      session.load source = (.ok (), ⟨Machine.start program, true⟩)) ∨
    (∃ error, Assembly.assemble source = .error error ∧
      session.load source = (.error (.assembly error), fresh)) := by
  cases assembled : Assembly.assemble source with
  | error error => exact Or.inr ⟨error, rfl, by simp only [load, assembled]; rfl⟩
  | ok program => exact Or.inl ⟨program, rfl, by simp only [load, assembled]⟩

theorem holds_load (session : Session) (source : String) :
    (session.load source).2.Holds (some source) := by
  rcases session.load_cases source with ⟨program, assembled, same⟩ | ⟨_, _, same⟩
  · rw [same]
    exact fun _ => ⟨source, rfl, assembled⟩
  · rw [same]
    exact nofun

theorem stepLoaded_proceeds (session : Session) :
    session.Proceeds [session.machine] session.stepLoaded.2 := by
  refine ⟨?_, ?_, ?_⟩
  · rw [machine_stepLoaded, Machine.program_step]
  · unfold stepLoaded
    split
    · exact id
    · exact nofun
    · exact nofun
  · intro machine member
    rw [List.mem_singleton.mp member]

theorem stepLoaded_failsAt (session after : Session) (pc : Word) (line : Option Nat) (fault : Fault)
    (failed : session.stepLoaded = (.error (.execution pc line fault), after)) :
    FailsAt [session.machine] pc line fault after := by
  -- A failing step leaves the program counter and the program alone, so what is looked up behind
  -- it is what was there before it.
  unfold stepLoaded at failed
  split at failed
  · cases failed
  · cases failed
  · next fault machine stepped =>
      cases failed
      refine ⟨rfl, [], session.machine, rfl, stepped, ?_⟩
      rcases Machine.step_cases session.machine with ⟨_, same⟩ | ⟨_, _, _, _, _, same⟩ |
        ⟨_, _, _, _, _, same⟩
      · rw [same] at stepped; cases stepped
      · rw [same] at stepped; cases stepped; exact ⟨rfl, rfl⟩
      · rw [same] at stepped; cases stepped

theorem singleStep_cases (session : Session) (source : String) :
    (∃ ready, session.readied? source = some ready ∧
      session.singleStep source = ready.stepLoaded) ∨
    (session.readied? source = none ∧ session.loaded = false ∧
      ∃ error, session.singleStep source = (.error (.assembly error), fresh)) := by
  unfold readied? singleStep
  cases loaded : session.loaded with
  | true => exact Or.inl ⟨session, rfl, rfl⟩
  | false =>
      rcases session.load_cases source with ⟨program, _, same⟩ | ⟨error, _, same⟩
      · rw [same]
        exact Or.inl ⟨_, rfl, rfl⟩
      · rw [same]
        exact Or.inr ⟨rfl, rfl, error, rfl⟩

theorem readied?_loaded (session ready : Session) (source : String)
    (found : session.readied? source = some ready) : ready.loaded = true := by
  unfold readied? at found
  split at found
  · next loaded => cases found; exact loaded
  · rcases session.load_cases source with ⟨program, _, same⟩ | ⟨error, _, same⟩
    · rw [same] at found
      cases found
      rfl
    · rw [same] at found
      cases found

theorem readied?_holds (session ready : Session) (text : String) (source : Option String)
    (found : session.readied? text = some ready) (holds : session.Holds source) :
    ready.Holds ((Call.singleStep text).loading? session <|> source) := by
  unfold readied? at found
  unfold Call.loading?
  cases loaded : session.loaded with
  | true =>
      simp only [loaded, if_true] at found ⊢
      cases found
      exact holds
  | false =>
      simp only [loaded] at found ⊢
      have held := session.holds_load text
      rcases session.load_cases text with ⟨program, _, same⟩ | ⟨_, _, same⟩
      · rw [same] at found held
        cases found
        exact held
      · rw [same] at found
        cases found

theorem resuming_unloaded (session : Session) (more : Nat) (idle : session.loaded = false) :
    session.resuming more = [] := by
  cases more with
  | zero => rfl
  | succ more => simp [resuming, idle]

theorem resumeFrom_proceeds (steps more : Nat) (session : Session) :
    session.Proceeds (session.resuming more) (resumeFrom steps more session).2 := by
  induction more generalizing steps session with
  | zero => exact .refl session
  | succ more ih =>
      unfold resuming resumeFrom
      split
      · have first := session.stepLoaded_proceeds
        generalize session.stepLoaded = stepped at first ⊢
        rcases stepped with ⟨error | status, next⟩
        · exact first
        · cases status with
          | continuing => exact first.append (ih (steps + 1) next)
          | halted => exact first
      · exact .refl session

theorem resumeFrom_failsAt (steps more : Nat) (session after : Session) (pc : Word)
    (line : Option Nat) (fault : Fault)
    (failed : resumeFrom steps more session = (.error (.execution pc line fault), after)) :
    FailsAt (session.resuming more) pc line fault after := by
  induction more generalizing steps session with
  | zero => cases failed
  | succ more ih =>
      unfold resuming
      unfold resumeFrom at failed
      split at failed
      · next loaded =>
          rw [if_pos loaded]
          split at failed
          · next stepped =>
              simp only [stepped]
              cases failed
              exact session.stepLoaded_failsAt after pc line fault stepped
          · next next stepped =>
              simp only [stepped]
              exact (ih (steps + 1) next failed).append [session.machine]
          · cases failed
      · cases failed

end Session

namespace Run

variable {σ : Type} (visit : Visitor σ) (limit : Option Nat)

theorem looked_proceeds (run : Run σ) :
    run.session.Proceeds [] (run.looked visit).session :=
  ⟨rfl, id, by simp⟩

/-- How a turn ends for the session: it takes no step, or the one of the visited machine. -/
theorem turn_cases (run : Run σ) :
    (run.stepping? visit limit = none ∧
      ∃ result, (run.turn visit limit).1 = some result ∧
        (∀ pc line fault, result ≠ .error (.execution pc line fault)) ∧
        run.session.Proceeds [] (run.turn visit limit).2.session) ∨
    (run.stepping? visit limit = some (run.visited visit) ∧
      (run.turn visit limit).2.session = (run.looked visit).session.stepLoaded.2 ∧
      ∀ error, (run.turn visit limit).1 = some (.error error) →
        (run.looked visit).session.stepLoaded.1 = .error error) := by
  cases signal : (visit run.visitor run.session.machine).1 with
  | cancel =>
      simp only [turn_eq, stepping?, signal]
      exact Or.inl ⟨trivial, _, rfl, nofun, run.looked_proceeds visit⟩
  | proceed =>
      cases exceeded : exceeds limit run.steps (run.visited visit) with
      | some bound =>
          simp only [turn_eq, stepping?, signal, exceeded]
          exact Or.inl ⟨trivial, _, rfl, nofun, ⟨rfl, nofun, by simp⟩⟩
      | none =>
          simp only [turn_eq, stepping?, signal, exceeded]
          rcases (run.looked visit).session.stepLoaded with ⟨error | status, after⟩
          · exact Or.inr ⟨trivial, rfl, fun _ same =>
              congrArg Except.error (Except.error.inj (Option.some.inj same))⟩
          · cases status with
            | continuing => exact Or.inr ⟨trivial, rfl, nofun⟩
            | halted => exact Or.inr ⟨trivial, rfl, nofun⟩

theorem turn_proceeds (run : Run σ) :
    run.session.Proceeds (run.stepping? visit limit).toList (run.turn visit limit).2.session := by
  rcases run.turn_cases visit limit with ⟨none, _, _, _, proceeds⟩ | ⟨one, same, _⟩
  · rw [none]
    exact proceeds
  · rw [one, same]
    exact (run.looked_proceeds visit).append (run.looked visit).session.stepLoaded_proceeds

theorem turn_failsAt (run final : Run σ) (pc : Word) (line : Option Nat) (fault : Fault)
    (failed : run.turn visit limit = (some (.error (.execution pc line fault)), final)) :
    Session.FailsAt (run.stepping? visit limit).toList pc line fault final.session := by
  rcases run.turn_cases visit limit with ⟨_, result, ended, other, _⟩ | ⟨one, same, fails⟩
  · rw [failed] at ended
    cases ended
    exact absurd rfl (other pc line fault)
  · rw [failed] at same fails
    rw [one]
    exact (run.looked visit).session.stepLoaded_failsAt final.session pc line fault
      (Prod.ext (fails _ rfl) same.symm)

theorem turns_proceeds (count : Nat) (run : Run σ) :
    run.session.Proceeds (run.stepping visit limit count)
      (run.turns visit limit count).2.session := by
  induction count generalizing run with
  | zero => exact .refl run.session
  | succ count ih =>
      have first := run.turn_proceeds visit limit
      unfold turns stepping
      rcases turned : run.turn visit limit with ⟨_ | result, next⟩
      · rw [turned] at first
        exact first.append (ih next)
      · rw [turned] at first
        simpa only [List.append_nil] using first

theorem turns_failsAt (count : Nat) (run final : Run σ) (pc : Word) (line : Option Nat)
    (fault : Fault) (failed : run.turns visit limit count =
      (some (.error (.execution pc line fault)), final)) :
    Session.FailsAt (run.stepping visit limit count) pc line fault final.session := by
  induction count generalizing run with
  | zero => cases failed
  | succ count ih =>
      unfold stepping
      rcases turns_succ_cases visit limit count run final _ failed with
        ⟨next, first, rest⟩ | ⟨ended, first, same⟩
      · rw [first]
        exact (ih next rest).append _
      · cases same
        rw [first]
        simpa only [List.append_nil] using run.turn_failsAt visit limit final pc line fault first

end Run

theorem Session.run_cases {σ : Type} (session : Session) (source : String) (limit : Option Nat)
    (visit : Visitor σ) (visitor : σ) (count : Nat) :
    (∃ program, Assembly.assemble source = .ok program ∧
      session.run source limit visit visitor count =
        (Run.loaded program visitor).turns visit limit count ∧
      session.running source limit visit visitor count =
        (Run.loaded program visitor).stepping visit limit count) ∨
    (∃ error, session.run source limit visit visitor count =
        (some (.error (.assembly error)), { session := fresh, visitor }) ∧
      session.running source limit visit visitor count = []) := by
  unfold run running Run.start
  rcases session.load_cases source with ⟨program, assembled, same⟩ | ⟨error, _, same⟩
  · simp only [same]
    exact Or.inl ⟨program, assembled, rfl, rfl⟩
  · simp only [same]
    exact Or.inr ⟨error, rfl, trivial⟩

namespace Call

variable {session after : Session} {machines : List Machine}

theorem Returns.proceeds {call : Call} {reply : Except SessionError Reply} {source : Option String}
    (returned : call.Returns session machines reply after) (holds : session.Holds source) :
    ∃ begun : Session, begun.Holds (call.loading? session <|> source) ∧
      begun.Proceeds machines after ∧ (machines ≠ [] → begun.loaded = true) := by
  have idle : ∀ source, Session.fresh.Holds source := fun _ => nofun
  cases returned with
  | reset => exact ⟨Session.fresh, idle _, .refl _, fun stepped => absurd rfl stepped⟩
  | load text => exact ⟨_, session.holds_load text, .refl _, fun stepped => absurd rfl stepped⟩
  | pushKey key => exact ⟨session, holds, ⟨rfl, id, by simp⟩, fun stepped => absurd rfl stepped⟩
  | resume limit =>
      refine ⟨session, holds, session.resumeFrom_proceeds 0 limit, fun stepped => ?_⟩
      by_contra unloaded
      exact stepped (session.resuming_unloaded limit (Bool.not_eq_true _ ▸ unloaded))
  | singleStep text =>
      rcases session.singleStep_cases text with ⟨ready, found, same⟩ | ⟨none, _, error, same⟩
      · rw [found, same]
        exact ⟨ready, session.readied?_holds ready text source found holds,
          ready.stepLoaded_proceeds, fun _ => session.readied?_loaded ready text found⟩
      · rw [none, same]
        exact ⟨Session.fresh, idle _, .refl _, fun stepped => absurd rfl stepped⟩
  | run text limit visit visitor count result final ended =>
      rcases session.run_cases text limit visit visitor count with
        ⟨program, assembled, same, stepping⟩ | ⟨error, same, stepping⟩
      · have turns := (Run.loaded program visitor).turns_proceeds visit limit count
        rw [← same, ended, ← stepping] at turns
        exact ⟨_, fun _ => ⟨text, rfl, assembled⟩, turns, fun _ => rfl⟩
      · rw [ended] at same
        cases same
        rw [stepping]
        exact ⟨Session.fresh, idle _, .refl _, fun stepped => absurd rfl stepped⟩

theorem error_of_map {α : Type} (result : Except SessionError α) (wrap : α → Reply)
    (error : SessionError) (failed : Except.error error = result.map wrap) :
    result = .error error := by
  cases result with
  | error other => cases failed; rfl
  | ok value => cases failed

theorem Returns.failsAt {call : Call} {pc : Word} {line : Option Nat} {fault : Fault}
    (returned : call.Returns session machines (.error (.execution pc line fault)) after) :
    Session.FailsAt machines pc line fault after := by
  generalize failure : Except.error (SessionError.execution pc line fault) = reply at returned
  cases returned with
  | reset => cases failure
  | pushKey key => cases failure
  | load text =>
      have broken := error_of_map _ _ _ failure
      rcases session.load_cases text with ⟨_, _, same⟩ | ⟨_, _, same⟩
      · rw [same] at broken; cases broken
      · rw [same] at broken; cases broken
  | resume limit =>
      exact session.resumeFrom_failsAt 0 limit _ pc line fault
        (Prod.ext (error_of_map _ _ _ failure) rfl)
  | singleStep text =>
      have broken := error_of_map _ _ _ failure
      rcases session.singleStep_cases text with ⟨ready, found, same⟩ | ⟨_, _, _, same⟩
      · rw [same] at broken ⊢
        rw [found]
        exact ready.stepLoaded_failsAt _ pc line fault (Prod.ext broken rfl)
      · rw [same] at broken
        cases broken
  | run text limit visit visitor count result final ended =>
      obtain rfl := error_of_map result _ _ failure
      rcases session.run_cases text limit visit visitor count with
        ⟨program, _, same, stepping⟩ | ⟨_, same, _⟩
      · rw [stepping]
        rw [same] at ended
        exact (Run.loaded program visitor).turns_failsAt visit limit count final pc line fault ended
      · rw [same] at ended
        cases ended

end Call

/-- A session that calls have led to holds the source that was loaded last. -/
theorem Session.Reached.holds {source : Option String} {session : Session}
    (reached : Session.Reached source session) : session.Holds source := by
  induction reached with
  | fresh => exact nofun
  | call before returned ih =>
      obtain ⟨begun, holds, proceeds, _⟩ := returned.proceeds ih
      exact holds.proceeds proceeds

end ToyComputer
