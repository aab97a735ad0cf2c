import ToyComputer.Proofs.Steps

/-!
Executions: what a machine becomes by one executed instruction after the other. What comes next is
never a choice, so an execution is told by where it starts and how long it is.
-/

namespace ToyComputer.Machine

def next? (machine : Machine) : Option Machine :=
  match machine.step with
  | (.ok .continuing, after) => some after
  | _ => none

theorem next?_eq_some (machine after : Machine) :
    machine.next? = some after ↔ machine.step = (.ok .continuing, after) := by
  unfold next?
  constructor
  · intro found
    split at found
    · next stepped => cases found; exact stepped
    · cases found
  · intro stepped
    rw [stepped]

/-- What has become of a machine after so many executed instructions, if it executes that many. -/
def after? (machine : Machine) : (count : Nat) → Option Machine
  | 0 => some machine
  | count + 1 => (machine.after? count).bind next?

theorem after?_succ (machine after : Machine) (count : Nat) :
    machine.after? (count + 1) = some after ↔
      ∃ before, machine.after? count = some before ∧ before.step = (.ok .continuing, after) := by
  simp only [after?, Option.bind_eq_some_iff, next?_eq_some]

theorem after?_add (machine middle : Machine) (first second : Nat)
    (reached : machine.after? first = some middle) :
    machine.after? (first + second) = middle.after? second := by
  induction second with
  | zero => exact reached
  | succ second ih => rw [← Nat.add_assoc, after?, after?, ih]

theorem after?_of_step (machine after : Machine) (count : Nat)
    (stepped : machine.step = (.ok .continuing, after)) :
    machine.after? (count + 1) = after.after? count := by
  have first : machine.after? 1 = some after :=
    (machine.after?_succ after 0).mpr ⟨machine, rfl, stepped⟩
  rw [Nat.add_comm, after?_add machine after 1 count first]

end ToyComputer.Machine
