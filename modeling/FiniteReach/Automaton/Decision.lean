import FiniteReach.Automaton.Reach
import FiniteReach.Automaton.Run
import FiniteReach.Collect

/-!
# Acceptable words

Two words are acceptable for an automaton when some state, reachable from where the first word ends
that starts in the initial state, is taken to a final state by the second word. Such a state is a
witness.

The runs of the second word from all states are independent of each other and may be done in any
order, or at once. `Workers` is all that is promised by those who do them: either they have a value
for each state, or they come back with the error of one state, whichever that is. A `Schedule` is
the order in which results become known, and workers who stop at the first error that they know
keep the promise on every schedule.
-/

namespace FiniteReach

/-! ## Many tasks at once -/

theorem any_eq_true {n : Nat} (test : Fin n → Bool) :
    (n.any fun i h => test ⟨i, h⟩) = true ↔ ∃ s, test s = true := by
  simp [Nat.any_eq_finRange_any]

/-- What is promised by those who do a task for each of `0, …, n - 1`. -/
structure Workers (n : Nat) where
  /-- The values of all tasks in their places, or the error of a task that fails. -/
  gather {ε α : Type} : (Fin n → Except ε α) → Except ε (Vector α n)
  /-- Whether some number passes a test. -/
  any : (Fin n → Bool) → Bool
  gather_eq_ok {ε α : Type} {task : Fin n → Except ε α} {v : Vector α n} :
    gather task = .ok v ↔ ∀ s, task s = .ok (v.get s)
  exists_of_gather_eq_error {ε α : Type} {task : Fin n → Except ε α} {e : ε} :
    gather task = .error e → ∃ s, task s = .error e
  any_eq_true {test : Fin n → Bool} : any test = true ↔ ∃ s, test s = true

/-- The order in which the results for the states `0, …, n - 1` become known: which state's result
is the `i`-th, and the place of each state's result. -/
structure Schedule (n : Nat) where
  state : Fin n → Fin n
  place : Fin n → Fin n
  state_place : ∀ s, state (place s) = s

namespace Schedule

variable {n : Nat}

/-- From the last state to the first. -/
def descending (n : Nat) : Schedule n := ⟨Fin.rev, Fin.rev, Fin.rev_rev⟩

/-- The results of all states, or the first error to become known. -/
def tabulate {ε α : Type} (schedule : Schedule n) (task : Fin n → Except ε α) :
    Except ε (Vector α n) :=
  (FiniteReach.tabulate fun i => task (schedule.state i)).map fun results =>
    Vector.ofFn fun s => results.get (schedule.place s)

/-- Whether some state passes a test; the first that is known to pass settles it. -/
def any (schedule : Schedule n) (test : Fin n → Bool) : Bool :=
  n.any fun i h => test (schedule.state ⟨i, h⟩)

theorem tabulate_eq_ok {ε α : Type} {schedule : Schedule n} {task : Fin n → Except ε α}
    {v : Vector α n} : schedule.tabulate task = .ok v ↔ ∀ s, task s = .ok (v.get s) := by
  constructor
  · intro h s
    cases hr : FiniteReach.tabulate fun i => task (schedule.state i) with
    | error e => simp [tabulate, hr, Except.map] at h
    | ok results =>
      have hs := FiniteReach.tabulate_eq_ok.1 hr (schedule.place s)
      simp only [tabulate, hr, Except.map, Except.ok.injEq] at h
      simpa [← h, schedule.state_place] using hs
  · intro h
    have hr : FiniteReach.tabulate (fun i => task (schedule.state i)) =
        .ok (Vector.ofFn fun i => v.get (schedule.state i)) :=
      FiniteReach.tabulate_eq_ok.2 fun i => by simp [h]
    rw [tabulate, hr]
    simp only [Except.map, Except.ok.injEq]
    exact ext_get fun s => by simp [schedule.state_place]

theorem exists_of_tabulate_eq_error {ε α : Type} {schedule : Schedule n}
    {task : Fin n → Except ε α} {e : ε} (h : schedule.tabulate task = .error e) :
    ∃ s, task s = .error e := by
  cases hr : FiniteReach.tabulate fun i => task (schedule.state i) with
  | ok results => simp [tabulate, hr, Except.map] at h
  | error e' =>
    obtain ⟨i, hi, _⟩ := FiniteReach.exists_of_tabulate_eq_error hr
    simp only [tabulate, hr, Except.map, Except.error.injEq] at h
    exact ⟨schedule.state i, h ▸ hi⟩

theorem any_eq_true {schedule : Schedule n} {test : Fin n → Bool} :
    schedule.any test = true ↔ ∃ s, test s = true := by
  rw [any, FiniteReach.any_eq_true fun i => test (schedule.state i)]
  constructor
  · intro ⟨i, h⟩
    exact ⟨schedule.state i, h⟩
  · intro ⟨s, h⟩
    exact ⟨schedule.place s, by rwa [schedule.state_place]⟩

/-- Workers whose results become known on a schedule. -/
def workers (schedule : Schedule n) : Workers n where
  gather := schedule.tabulate
  any := schedule.any
  gather_eq_ok := tabulate_eq_ok
  exists_of_gather_eq_error := exists_of_tabulate_eq_error
  any_eq_true := any_eq_true

end Schedule

/-- Workers who begin with the last state. -/
def Workers.descending (n : Nat) : Workers n := (Schedule.descending n).workers

/-! ## The decision -/

namespace Automaton

/-- Whether two words are acceptable, or the first symbol that is none. -/
def acceptable (A : Automaton) (first second : Word) : Except IndexFault Bool := do
  let start ← A.follow ⟨A.initial, A.initial_lt⟩ 0 first
  let lasts ← tabulate fun s => A.follow s 0 second
  let reached := A.reachMarks start
  let final := A.finalMarks
  return A.stateCount.any fun s h => reached.get ⟨s, h⟩ && final.get (lasts.get ⟨s, h⟩)

/-- Whether two words are acceptable, with the work for the states done by workers. -/
def acceptableOn (A : Automaton) (workers : Workers A.stateCount) (first second : Word) :
    Except IndexFault Bool := do
  let start ← A.follow ⟨A.initial, A.initial_lt⟩ 0 first
  let lasts ← workers.gather fun s => A.follow s 0 second
  let reached := A.reachMarks start
  let final := A.finalMarks
  return workers.any fun s => reached.get s && final.get (lasts.get s)

/-- The answer in words. -/
def verdict (acceptable : Bool) : String :=
  if acceptable then "Words are acceptable" else "Words are not acceptable"

end Automaton

end FiniteReach
