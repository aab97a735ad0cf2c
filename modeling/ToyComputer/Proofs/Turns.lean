import ToyComputer.Session.Run

/-!
Turns: what one turn of a run does to the visitor and to the machine, and which machines take a step
in the course of a run.
-/

namespace ToyComputer

theorem Session.machine_stepLoaded (session : Session) :
    session.stepLoaded.2.machine = session.machine.step.2 := by
  unfold stepLoaded
  split
  all_goals
    next stepped => rw [stepped]

namespace Run

theorem exceeds_eq_some (limit : Option Nat) (steps bound : Nat) (machine : Machine) :
    exceeds limit steps machine = some bound ↔
      limit = some bound ∧ bound ≤ steps ∧ machine.instruction?.isSome := by
  simp only [exceeds, Option.filter_eq_some_iff, Machine.isHalted, Bool.and_eq_true,
    decide_eq_true_eq, Bool.not_eq_true', Option.isNone_eq_false_iff]

theorem exceeds_eq_none (limit : Option Nat) (steps : Nat) (machine : Machine)
    (below : ∀ bound ∈ limit, steps < bound) : exceeds limit steps machine = none := by
  apply Option.eq_none_iff_forall_ne_some.mpr
  intro bound passed
  obtain ⟨limited, reached, _⟩ := (exceeds_eq_some limit steps bound machine).mp passed
  exact absurd reached (Nat.not_le_of_lt (below bound limited))

variable {σ : Type} (visit : Visitor σ) (limit : Option Nat)

theorem turns_succ_cases (count : Nat) (run final : Run σ)
    (result : Option (Except SessionError Summary))
    (turned : run.turns visit limit (count + 1) = (result, final)) :
    (∃ next, run.turn visit limit = (none, next) ∧
      next.turns visit limit count = (result, final)) ∨
    (∃ ended, run.turn visit limit = (some ended, final) ∧ result = some ended) := by
  rw [turns] at turned
  rcases first : run.turn visit limit with ⟨_ | ended, next⟩
  · rw [first] at turned
    exact Or.inl ⟨next, rfl, turned⟩
  · rw [first] at turned
    cases turned
    exact Or.inr ⟨ended, rfl, rfl⟩

def visited (run : Run σ) : Machine :=
  { run.session.machine with memory := (visit run.visitor run.session.machine).2.2 }

/-- The machine that takes a step in the next turn, if it comes to that. -/
def stepping? (run : Run σ) : Option Machine :=
  match (visit run.visitor run.session.machine).1 with
  | .cancel => none
  | .proceed =>
    match exceeds limit run.steps (run.visited visit) with
    | some _ => none
    | none => some (run.visited visit)

/-- The machines that take a step in up to `count` turns, each as it is before its step. -/
def stepping : (count : Nat) → Run σ → List Machine
  | 0, _ => []
  | count + 1, run =>
    (run.stepping? visit limit).toList ++
      match run.turn visit limit with
      | (none, next) => stepping count next
      | (some _, _) => []

/-- A run as it is before each of up to `count` turns. -/
def turning : (count : Nat) → Run σ → List (Run σ)
  | 0, _ => []
  | count + 1, run =>
    run ::
      match run.turn visit limit with
      | (none, next) => turning count next
      | (some _, _) => []

theorem visitor_turn (run : Run σ) :
    (run.turn visit limit).2.visitor = (visit run.visitor run.session.machine).2.1 := by
  unfold turn
  simp only
  split
  · rfl
  · split
    · rfl
    · split <;> rfl

theorem machine_turn (run : Run σ) :
    (run.turn visit limit).2.session.machine =
      ((run.stepping? visit limit).map fun machine => machine.step.2).getD (run.visited visit) := by
  unfold turn stepping?
  simp only
  cases signal : (visit run.visitor run.session.machine).1 with
  | cancel => rfl
  | proceed =>
      have stepped := Session.machine_stepLoaded
        { run.session with machine := run.visited visit }
      simp only [visited] at stepped ⊢
      split
      · next exceeded =>
          simp only [exceeded, Option.map_none, Option.getD_none]
          rfl
      · next allowed =>
          split
          all_goals
            next done =>
              rw [done] at stepped
              simp only [allowed, Option.map_some, Option.getD_some]
              exact stepped

theorem stepping?_eq_some (run : Run σ) (machine : Machine)
    (found : run.stepping? visit limit = some machine) : machine = run.visited visit := by
  unfold stepping? at found
  split at found
  · cases found
  · split at found
    · cases found
    · cases found; rfl

def loaded (program : Program) (visitor : σ) : Run σ :=
  { session := { machine := Machine.start program, loaded := true }, visitor }

theorem start_eq (session : Session) (source : String) (program : Program) (visitor : σ)
    (assembled : Assembly.assemble source = .ok program) :
    start session source visitor = (none, loaded program visitor) := by
  simp only [start, Session.load, assembled, loaded]

end Run

theorem Session.run_eq {σ : Type} (session : Session) (source : String) (limit : Option Nat)
    (visit : Visitor σ) (visitor : σ) (count : Nat) (program : Program)
    (assembled : Assembly.assemble source = .ok program) :
    session.run source limit visit visitor count =
      (Run.loaded program visitor).turns visit limit count := by
  simp only [run, Run.start_eq session source program visitor assembled]

end ToyComputer
