import ToyComputer.Proofs.Executions
import ToyComputer.Proofs.Layout
import ToyComputer.Proofs.Turns

/-!
Scheduling: single steps, resumed sessions and cancelled runs all go through the one execution that
a program has, however its steps are divided among them.
-/

namespace ToyComputer

def Summary.behind (summary : Summary) (before : Nat) : Summary :=
  { summary with steps := before + summary.steps }

namespace Session

/-- The ways in which a loaded session stops that is resumed for `more` steps: they are used up, or
the program halts or fails. -/
inductive Stops (machine : Machine) (steps more : Nat) :
    Except SessionError Summary × Session → Prop where
  | paused (last : Machine) (reached : machine.after? more = some last) :
    Stops machine steps more (.ok ⟨steps + more, .paused⟩, ⟨last, true⟩)
  | halted (done : Nat) (last : Machine) (within : done < more)
    (reached : machine.after? done = some last) (halts : last.step = (.ok .halted, last)) :
    Stops machine steps more (.ok ⟨steps + done, .halted⟩, ⟨last, false⟩)
  | failed (done : Nat) (last after : Machine) (fault : Fault) (within : done < more)
    (reached : machine.after? done = some last) (fails : last.step = (.error fault, after)) :
    Stops machine steps more
      (.error (.execution after.registers.pc after.currentLine? fault), ⟨after, false⟩)

theorem Stops.after_step {machine next : Machine} {steps more : Nat}
    {stopped : Except SessionError Summary × Session}
    (stepped : machine.step = (.ok .continuing, next))
    (stops : Stops next (steps + 1) more stopped) : Stops machine steps (more + 1) stopped := by
  cases stops with
  | paused last reached =>
      rw [Nat.add_assoc, Nat.add_comm 1 more]
      exact .paused last (by rw [Machine.after?_of_step machine next more stepped, reached])
  | halted done last within reached halts =>
      rw [Nat.add_assoc, Nat.add_comm 1 done]
      exact .halted (done + 1) last (Nat.succ_lt_succ within)
        (by rw [Machine.after?_of_step machine next done stepped, reached]) halts
  | failed done last after fault within reached fails =>
      exact .failed (done + 1) last after fault (Nat.succ_lt_succ within)
        (by rw [Machine.after?_of_step machine next done stepped, reached]) fails

theorem resumeFrom_stops (steps more : Nat) (machine : Machine) :
    Stops machine steps more (resumeFrom steps more ⟨machine, true⟩) := by
  induction more generalizing steps machine with
  | zero => exact .paused machine rfl
  | succ more ih =>
      rcases stepped : machine.step with ⟨fault | status, after⟩
      · simp only [resumeFrom, stepLoaded, stepped, if_true]
        exact .failed 0 machine after fault (Nat.succ_pos more) rfl stepped
      · cases status with
        | continuing =>
            simp only [resumeFrom, stepLoaded, stepped, if_true]
            exact (ih (steps + 1) after).after_step stepped
        | halted =>
            obtain ⟨_, rfl⟩ := Machine.step_halted machine after stepped
            simp only [resumeFrom, stepLoaded, stepped, if_true]
            exact .halted 0 after (Nat.succ_pos more) rfl stepped

theorem resumeFrom_unloaded (steps more : Nat) (session : Session)
    (idle : session.loaded = false) :
    resumeFrom steps more session = (.ok ⟨steps, .halted⟩, session) := by
  cases more with
  | zero => simp [resumeFrom, idle]
  | succ more => simp [resumeFrom, idle]

theorem resumeFrom_behind (before steps more : Nat) (session : Session) :
    resumeFrom (before + steps) more session =
      ((resumeFrom steps more session).1.map (·.behind before),
        (resumeFrom steps more session).2) := by
  induction more generalizing steps session with
  | zero => rfl
  | succ more ih =>
      simp only [resumeFrom]
      split
      · split
        · rfl
        · exact ih (steps + 1) _
        · rfl
      · rfl

theorem resumeFrom_add (steps first second : Nat) (session : Session) :
    resumeFrom steps (first + second) session =
      match resumeFrom steps first session with
      | (.ok ⟨done, .paused⟩, next) => resumeFrom done second next
      | stopped => stopped := by
  induction first generalizing steps session with
  | zero =>
      rw [Nat.zero_add, resumeFrom]
      cases loaded : session.loaded with
      | true => rfl
      | false => rw [resumeFrom_unloaded steps second session loaded]; rfl
  | succ first ih =>
      rw [Nat.add_right_comm, resumeFrom, resumeFrom]
      split
      · split
        · rfl
        · exact ih (steps + 1) _
        · rfl
      · rfl

/-- A session that is resumed twice goes on where it paused. -/
theorem resume_add (first second : Nat) (session : Session) :
    session.resume (first + second) =
      match session.resume first with
      | (.ok ⟨done, .paused⟩, next) =>
        ((next.resume second).1.map (·.behind done), (next.resume second).2)
      | stopped => stopped := by
  rw [resume, resumeFrom_add, resume]
  split
  · exact resumeFrom_behind _ 0 second _
  · rfl

theorem resume_cases (limit : Nat) (session : Session) :
    (∃ done next, session.resume limit = (.ok ⟨done, .paused⟩, next)) ∨
    (∃ done next, session.resume limit = (.ok ⟨done, .halted⟩, next) ∧ next.loaded = false) ∨
    (∃ error next, session.resume limit = (.error error, next) ∧ next.loaded = false) := by
  obtain ⟨machine, loaded⟩ := session
  cases loaded with
  | false => exact Or.inr (Or.inl ⟨0, _, resumeFrom_unloaded 0 limit _ rfl, rfl⟩)
  | true =>
      have stops := resumeFrom_stops 0 limit machine
      rw [resume]
      generalize resumeFrom 0 limit ⟨machine, true⟩ = stopped at stops
      cases stops with
      | paused last reached => exact Or.inl ⟨_, _, rfl⟩
      | halted done last within reached halts => exact Or.inr (Or.inl ⟨_, _, rfl, rfl⟩)
      | failed done last after fault within reached fails => exact Or.inr (Or.inr ⟨_, _, rfl, rfl⟩)

theorem resume_resume (first second : Nat) (session : Session) :
    ((session.resume first).2.resume second).2 = (session.resume (first + second)).2 ∧
    (∀ summary, (session.resume (first + second)).1 = .ok summary →
      ∃ one other, (session.resume first).1 = .ok one ∧
        ((session.resume first).2.resume second).1 = .ok other ∧
        one.steps + other.steps = summary.steps ∧ other.outcome = summary.outcome) ∧
    (∀ error, (session.resume (first + second)).1 = .error error →
      (session.resume first).1 = .error error ∨
        ∃ done, (session.resume first).1 = .ok ⟨done, .paused⟩ ∧
          ((session.resume first).2.resume second).1 = .error error) := by
  rw [resume_add]
  rcases resume_cases first session with ⟨done, next, stopped⟩ |
    ⟨done, next, stopped, unloaded⟩ | ⟨error, next, stopped, unloaded⟩
  · simp only [stopped]
    refine ⟨trivial, ?_, ?_⟩
    · intro summary ended
      cases later : (next.resume second).1 with
      | error error => rw [later] at ended; cases ended
      | ok other => rw [later] at ended; cases ended; exact ⟨_, _, rfl, rfl, rfl, rfl⟩
    · intro error failed
      cases later : (next.resume second).1 with
      | error error => rw [later] at failed; cases failed; exact Or.inr ⟨_, rfl, rfl⟩
      | ok other => rw [later] at failed; cases failed
  · have rest : next.resume second = (.ok ⟨0, .halted⟩, next) :=
      resumeFrom_unloaded 0 second next unloaded
    simp only [stopped, rest]
    refine ⟨trivial, ?_, ?_⟩
    · intro summary ended
      cases ended
      exact ⟨_, _, rfl, rfl, rfl, rfl⟩
    · intro error failed
      cases failed
  · have rest : next.resume second = (.ok ⟨0, .halted⟩, next) :=
      resumeFrom_unloaded 0 second next unloaded
    simp only [stopped, rest]
    refine ⟨trivial, ?_, ?_⟩
    · intro summary ended
      cases ended
    · intro other failed
      exact Or.inl failed

end Session

inductive Request where
  | singleStep (source : String)
  | resume (limit : Nat)
  deriving DecidableEq, Repr

def Request.limit : Request → Nat
  | singleStep _ => 1
  | resume limit => limit

/-- What a session says about a request that did not fail. -/
structure Report where
  steps : Nat
  halted : Bool
  deriving DecidableEq, Repr

def Status.report : Status → Report
  | continuing => ⟨1, false⟩
  | halted => ⟨0, true⟩

def Summary.report (summary : Summary) : Report := ⟨summary.steps, summary.outcome == .halted⟩

namespace Session

def answer (session : Session) : Request → Except SessionError Report × Session
  | .singleStep source =>
    ((session.singleStep source).1.map Status.report, (session.singleStep source).2)
  | .resume limit => ((session.resume limit).1.map Summary.report, (session.resume limit).2)

/-- Requests that a session answers in turn without an error, each while its program is loaded, and
the steps that the answers report together. -/
inductive Answers (first : Session) : List Request → Nat → Session → Prop where
  | none : Answers first [] 0 first
  | one (requests : List Request) (steps : Nat) (session after : Session) (request : Request)
    (report : Report) (before : Answers first requests steps session)
    (loaded : session.loaded = true) (answered : session.answer request = (.ok report, after)) :
    Answers first (requests ++ [request]) (steps + report.steps) after

theorem answer_eq (machine : Machine) (request : Request) :
    answer ⟨machine, true⟩ request = answer ⟨machine, true⟩ (.resume request.limit) := by
  cases request with
  | resume limit => rfl
  | singleStep source =>
      rcases stepped : machine.step with ⟨fault | status, after⟩
      · simp only [answer, Request.limit, singleStep, resume, resumeFrom, stepLoaded, stepped,
          if_true]
        rfl
      · cases status
        all_goals
          simp only [answer, Request.limit, singleStep, resume, resumeFrom, stepLoaded, stepped,
            if_true]
          rfl

section

variable {start machine : Machine} {steps : Nat} (reached : start.after? steps = some machine)
  (request : Request)

include reached

theorem answer_ok (report : Report) (after : Session)
    (answered : answer ⟨machine, true⟩ request = (.ok report, after)) :
    start.after? (steps + report.steps) = some after.machine ∧
    after.loaded = !report.halted ∧
    (report.halted = true → after.machine.step = (.ok .halted, after.machine)) ∧
    (report.halted = false → report.steps = request.limit) := by
  have stops := resumeFrom_stops 0 request.limit machine
  rw [answer_eq, answer, resume] at answered
  generalize resumeFrom 0 request.limit ⟨machine, true⟩ = stopped at stops answered
  cases stops with
  | paused last there =>
      cases answered
      refine ⟨?_, rfl, nofun, fun _ => Nat.zero_add _⟩
      rw [Machine.after?_add start machine steps _ reached, ← there]
      exact congrArg machine.after? (Nat.zero_add _)
  | halted done last within there halts =>
      cases answered
      refine ⟨?_, rfl, fun _ => halts, nofun⟩
      rw [Machine.after?_add start machine steps _ reached, ← there]
      exact congrArg machine.after? (Nat.zero_add _)
  | failed done last next fault within there fails => cases answered

theorem answer_error (error : SessionError) (after : Session)
    (answered : answer ⟨machine, true⟩ request = (.error error, after)) :
    ∃ done last fault, done < request.limit ∧ start.after? (steps + done) = some last ∧
      last.step = (.error fault, after.machine) ∧ after.loaded = false ∧
      error = .execution after.machine.registers.pc after.machine.currentLine? fault := by
  have stops := resumeFrom_stops 0 request.limit machine
  rw [answer_eq, answer, resume] at answered
  generalize resumeFrom 0 request.limit ⟨machine, true⟩ = stopped at stops answered
  cases stops with
  | paused last there => cases answered
  | halted done last within there halts => cases answered
  | failed done last next fault within there fails =>
      cases answered
      refine ⟨done, last, fault, within, ?_, fails, rfl, rfl⟩
      rw [Machine.after?_add start machine steps _ reached, there]

end

theorem answers_follow (start : Machine) (requests : List Request) (steps : Nat)
    (session : Session) (answers : Answers ⟨start, true⟩ requests steps session) :
    start.after? steps = some session.machine := by
  induction answers with
  | none => rfl
  | one requests steps session after request report before loaded answered ih =>
      obtain ⟨machine, _⟩ := session
      cases loaded
      exact (answer_ok ih request report after answered).1

end Session

/-- A visitor that touches nothing, lets so many visits pass and cancels at the next one, whatever it
finds. -/
def CancelsAfter {σ : Type} (visit : Visitor σ) : (count : Nat) → σ → Prop
  | 0, visitor => ∀ machine, (visit visitor machine).1 = .cancel ∧
      (visit visitor machine).2.2 = machine.memory
  | count + 1, visitor => ∀ machine, (visit visitor machine).1 = .proceed ∧
      (visit visitor machine).2.2 = machine.memory ∧
      CancelsAfter visit count (visit visitor machine).2.1

/-- Where a resumption pauses, a run is cancelled. -/
def Summary.cancelled (summary : Summary) : Summary :=
  if summary.outcome = .paused then { summary with outcome := .cancelled } else summary

namespace Run

variable {σ : Type}

/-- A run that is left alone and cancelled is a resumption. -/
theorem turns_cancelled (visit : Visitor σ) (limit : Option Nat) (more : Nat) (run : Run σ)
    (machine : Machine) (count : Nat) (session : run.session = ⟨machine, true⟩)
    (cancels : CancelsAfter visit more run.visitor)
    (below : ∀ bound ∈ limit, run.steps + more ≤ bound) (enough : more < count) :
    ∃ final, run.turns visit limit count =
        (some ((Session.resumeFrom run.steps more run.session).1.map Summary.cancelled), final) ∧
      final.session = (Session.resumeFrom run.steps more run.session).2 := by
  induction more generalizing run machine count with
  | zero =>
      obtain ⟨count, rfl⟩ := Nat.exists_eq_add_of_lt enough
      obtain ⟨signal, untouched⟩ := cancels machine
      simp only [turns, turn, session, signal, untouched]
      exact ⟨_, rfl, rfl⟩
  | succ more ih =>
      obtain ⟨count, rfl⟩ := Nat.exists_eq_add_of_lt (Nat.zero_lt_of_lt enough)
      obtain ⟨signal, untouched, later⟩ := cancels machine
      have allowed : exceeds limit run.steps machine = none :=
        exceeds_eq_none limit run.steps machine fun bound given => by
          have := below bound given
          omega
      -- What is left of the turn is the step that the resumption takes.
      simp only [turns, turn, session, signal, untouched, allowed, Session.resumeFrom, if_true]
      rcases stepped : machine.step with ⟨fault | status, after⟩
      · simp only [Session.stepLoaded, stepped]
        exact ⟨_, rfl, rfl⟩
      · cases status with
        | halted =>
            simp only [Session.stepLoaded, stepped]
            exact ⟨_, rfl, rfl⟩
        | continuing =>
            simp only [Session.stepLoaded, stepped]
            refine ih _ after _ rfl later (fun bound given => ?_) (by omega)
            have := below bound given
            simp only
            omega

end Run

theorem Session.run_cancelled {σ : Type} (session : Session) (source : String)
    (limit : Option Nat) (visit : Visitor σ) (visitor : σ) (more count : Nat)
    (cancels : CancelsAfter visit more visitor) (below : ∀ bound ∈ limit, more ≤ bound)
    (enough : more < count) :
    (session.run source limit visit visitor count).2.session =
        ((session.load source).2.resume more).2 ∧
      (session.run source limit visit visitor count).1 =
        some (match (session.load source).1 with
          | .error error => .error error
          | .ok _ => ((session.load source).2.resume more).1.map Summary.cancelled) := by
  cases assembled : Assembly.assemble source with
  | error error =>
      simp only [run, Run.start, load, assembled]
      exact ⟨(congrArg Prod.snd (resumeFrom_unloaded 0 more _ rfl)).symm, trivial⟩
  | ok program =>
      obtain ⟨final, ended, left⟩ := Run.turns_cancelled visit limit more
        (Run.loaded program visitor) (Machine.start program) count rfl cancels
        (by simpa [Run.loaded] using below) enough
      rw [run_eq session source limit visit visitor count program assembled, ended, left]
      simp only [load, assembled]
      exact ⟨rfl, rfl⟩

/-- How a program is scheduled does not change what it computes. Single steps and resumptions go
through its one execution and end where it ends; two resumptions are one; and a run that is cancelled
is a resumption. -/
theorem schedule_immaterial (source : String) :
    (∀ (program : Program) (session : Session), Assembly.assemble source = .ok program →
      ∀ requests steps current,
        Session.Answers (session.load source).2 requests steps current →
        (Machine.start program).after? steps = some current.machine ∧
        (current.loaded = true → ∀ request,
          (∀ report after, current.answer request = (.ok report, after) →
            (Machine.start program).after? (steps + report.steps) = some after.machine ∧
            after.loaded = !report.halted ∧
            (report.halted = true → after.machine.step = (.ok .halted, after.machine)) ∧
            (report.halted = false → report.steps = request.limit)) ∧
          (∀ error after, current.answer request = (.error error, after) →
            ∃ done last fault, done < request.limit ∧
              (Machine.start program).after? (steps + done) = some last ∧
              last.step = (.error fault, after.machine) ∧ after.loaded = false ∧
              error = .execution after.machine.registers.pc after.machine.currentLine? fault))) ∧
    (∀ (session : Session) (first second : Nat),
      ((session.resume first).2.resume second).2 = (session.resume (first + second)).2 ∧
      (∀ summary, (session.resume (first + second)).1 = .ok summary →
        ∃ one other, (session.resume first).1 = .ok one ∧
          ((session.resume first).2.resume second).1 = .ok other ∧
          one.steps + other.steps = summary.steps ∧ other.outcome = summary.outcome) ∧
      (∀ error, (session.resume (first + second)).1 = .error error →
        (session.resume first).1 = .error error ∨
          ∃ done, (session.resume first).1 = .ok ⟨done, .paused⟩ ∧
            ((session.resume first).2.resume second).1 = .error error)) ∧
    (∀ (σ : Type) (visit : Visitor σ) (visitor : σ) (session : Session) (limit : Option Nat)
      (more count : Nat), CancelsAfter visit more visitor → (∀ bound ∈ limit, more ≤ bound) →
      more < count →
        (session.run source limit visit visitor count).2.session =
            ((session.load source).2.resume more).2 ∧
          (session.run source limit visit visitor count).1 =
            some (match (session.load source).1 with
              | .error error => .error error
              | .ok _ => ((session.load source).2.resume more).1.map Summary.cancelled)) := by
  refine ⟨?_, fun session first second => Session.resume_resume first second session,
    fun σ visit visitor session limit more count cancels below enough =>
      session.run_cancelled source limit visit visitor more count cancels below enough⟩
  intro program session assembled requests steps current answers
  have first : (session.load source).2 = ⟨Machine.start program, true⟩ := by
    simp only [Session.load, assembled]
  rw [first] at answers
  have reached := Session.answers_follow (Machine.start program) requests steps current answers
  refine ⟨reached, fun loaded request => ?_⟩
  obtain ⟨machine, _⟩ := current
  cases loaded
  exact ⟨Session.answer_ok reached request, Session.answer_error reached request⟩

def cancelSecond : Visitor Nat := fun visits machine =>
  (if visits = 1 then .cancel else .proceed, visits + 1, machine.memory)

def threeCopies : String := "copy r0, 1\ncopy r1, 2\ncopy r2, 3"

theorem threeCopies_scheduled :
    ∃ program current, Assembly.assemble threeCopies = .ok program ∧
      Session.Answers (Session.fresh.load threeCopies).2 [.singleStep "", .resume 1] 2 current ∧
      (Machine.start program).after? 2 = some current.machine ∧
      (∃ halted, (Machine.start program).after? 3 = some halted ∧
        halted.step = (.ok .halted, halted)) ∧
      (Session.fresh.run threeCopies none cancelSecond 0 2).2.session =
        ((Session.fresh.load threeCopies).2.resume 1).2 := by
  obtain ⟨follows, _, cancelled⟩ := schedule_immaterial threeCopies
  have assembled := Assembly.assembles threeCopies (by decide +kernel)
  have answers : Session.Answers (Session.fresh.load threeCopies).2 [.singleStep "", .resume 1] 2 _ :=
    .one _ 1 _ _ (.resume 1) ⟨1, false⟩
      (.one [] 0 _ _ (.singleStep "") ⟨1, false⟩ .none (by decide +kernel)
        (Prod.ext (by decide +kernel) rfl))
      (by decide +kernel) (Prod.ext (by decide +kernel) rfl)
  obtain ⟨reached, next⟩ := follows _ _ assembled _ _ _ answers
  obtain ⟨ended, _, halts, _⟩ := (next (by decide +kernel) (.resume 5)).1 ⟨1, true⟩ _
    (Prod.ext (by decide +kernel) rfl)
  refine ⟨_, _, assembled, answers, reached, ⟨_, ended, halts rfl⟩, ?_⟩
  exact (cancelled Nat cancelSecond 0 Session.fresh none 1 2
    (fun machine => ⟨rfl, rfl, fun machine => ⟨rfl, rfl⟩⟩) nofun (by decide)).1

end ToyComputer
