import FiniteReach.Proofs.Decision
import FiniteReach.Proofs.Machine.Search

/-!
# Queries on the machine

The queries of an automaton, done by the machine for any numbers: states are compared before the
table is asked, symbols are looked for in the row of the state that a run is in, and every candidate
for a witness is searched for anew. The machine gets the answer that is defined elsewhere, or the
fault of the question, and never traps (`queries_eq`).
-/

namespace FiniteReach.Machine

/-- Why the machine does not answer a question. -/
inductive Stop where
  /-- It has trapped, or goes on forever. -/
  | trap
  /-- The question names something that the automaton does not have. -/
  | fault (fault : IndexFault)
  deriving DecidableEq, Repr

/-- What the machine gets, unless it traps. -/
def guarded {α : Type} : Option α → Except Stop α
  | none => .error .trap
  | some a => .ok a

/-! ## The queries -/

/-- The successor of `s` on `a`. -/
def step (A : Automaton) (s a : Nat) : Except Stop Nat :=
  if A.hasState s then
    if a < A.alphabetSize then guarded do A.table[← cell? s A.alphabetSize a]?
    else .error (.fault (.symbol a 0 A.alphabetSize))
  else .error (.fault (.state s A.stateCount))

/-- The state in which a word ends that starts in `s`; its first symbol has the given position. -/
def follow (A : Automaton) (s position : Nat) : Word → Except Stop Nat
  | [] => .ok s
  | a :: w => do
    let row ← guarded (successors A s)
    match row[a]? with
    | some t => follow A t (position + 1) w
    | none => .error (.fault (.symbol a position A.alphabetSize))

/-- The state in which a word ends that starts in `s`. -/
def apply (A : Automaton) (s : Nat) (w : Word) : Except Stop Nat :=
  if A.hasState s then follow A s 0 w else .error (.fault (.state s A.stateCount))

/-- Whether edges lead from `s` to `t`, or the first of the two that is no state. -/
noncomputable def tryReachable (A : Automaton) (s t : Nat) : Except Stop Bool :=
  if A.hasState s then
    if A.hasState t then guarded (reachable A s t) else .error (.fault (.state t A.stateCount))
  else .error (.fault (.state s A.stateCount))

/-- The states that can be reached from `s`, in ascending order. -/
noncomputable def closure (A : Automaton) (s : Nat) : Except Stop (List Nat) :=
  if A.hasState s then
    guarded do
      let last ← loop (Scratch.drainRound A) (← Scratch.start A s)
      return last.marked
  else .error (.fault (.state s A.stateCount))

/-- Whether two words are acceptable, with the work for the states done by workers. Every state that
the second word takes to a final one is searched for, although a witness makes other searches
needless: where nothing traps then, nothing does if some are left out. -/
noncomputable def acceptableOn (A : Automaton) (workers : Workers A.stateCount) (first second : Word) :
    Except Stop Bool := do
  let start ← apply A A.initial first
  let lasts ← workers.gather fun s => apply A s second
  let found ← workers.gather fun s =>
    if A.isFinal (lasts.get s) then guarded (reachable A start s) else .ok false
  return workers.any found.get

/-- Whether two words are acceptable. -/
noncomputable def acceptable (A : Automaton) (first second : Word) : Except Stop Bool :=
  acceptableOn A (.inOrder A.stateCount) first second

/-! ## Single steps and runs -/

variable {A : Automaton}

theorem step_eq (A : Automaton) (s a : Nat) : step A s a = (A.step s a).mapError .fault := by
  rw [step, Automaton.step]
  simp only [Automaton.hasState, decide_eq_true_eq]
  split
  · next hs =>
      split
      · next ha =>
          rw [cell?_eq, word?_of_lt (Nat.lt_trans (cell_lt hs ha) A.size_lt)]
          exact congrArg guarded (A.getElem?_table ⟨s, hs⟩ ⟨a, ha⟩)
      · rfl
  · rfl

/-- A run stays among the states, so the state it is in has a row in the table. -/
theorem follow_eq (s : Fin A.stateCount) (i : Nat) (w : Word) :
    follow A s i w = ((A.follow s i w).map Fin.val).mapError .fault := by
  induction w generalizing s i with
  | nil => rfl
  | cons a w ih =>
      rw [follow, successors_eq]
      show (match ((A.row s).map Fin.val)[a]? with
        | some t => follow A t (i + 1) w
        | none => _) = _
      by_cases ha : a < A.alphabetSize
      · rw [Automaton.getElem?_row s ha, Automaton.follow_cons ha]
        exact ih _ _
      · have hrow : ((A.row s).map Fin.val)[a]? = none := by
          simp [Automaton.row, ha]
        rw [hrow, Automaton.follow_strange ha]
        rfl

theorem apply_eq (A : Automaton) (s : Nat) (w : Word) :
    apply A s w = (A.apply s w).mapError .fault := by
  rw [apply, Automaton.apply]
  simp only [Automaton.hasState, decide_eq_true_eq]
  split
  · next hs => exact follow_eq ⟨s, hs⟩ 0 w
  · rfl

/-! ## Reachability -/

theorem tryReachable_eq (A : Automaton) (s t : Nat) :
    tryReachable A s t = (A.tryReachable s t).mapError .fault := by
  rw [tryReachable, Automaton.tryReachable, reachable_eq]
  split
  · split
    · rfl
    · rfl
  · rfl

theorem closure_eq (A : Automaton) (s : Nat) : closure A s = (A.closure s).mapError .fault := by
  rw [closure]
  simp only [Automaton.hasState, decide_eq_true_eq]
  split
  · next hs =>
      obtain ⟨last, hloop, _, hclosure⟩ := Automaton.exists_loop_drainRound ⟨s, hs⟩
      rw [Scratch.start_eq ⟨s, hs⟩, hclosure]
      simp only [Option.bind_eq_bind, Option.bind_some, loop_map Scratch.drainRound_of hloop]
      exact congrArg Except.ok (Scratch.marked_of last)
  · next hs =>
      rw [Automaton.closure, dif_neg hs]
      rfl

/-! ## The decision -/

theorem gather_of_forall_error {n : Nat} {ε α : Type} (workers : Workers n)
    {task : Fin n → Except ε α} {e : ε} (h : ∀ s, task s = .error e) (s : Fin n) :
    workers.gather task = .error e := by
  cases hg : workers.gather task with
  | ok v => cases (h s).symm.trans (workers.gather_eq_ok.1 hg s)
  | error e' =>
      obtain ⟨s', hs'⟩ := workers.exists_of_gather_eq_error hg
      cases hs'.symm.trans (h s')
      rfl

/-- The machine's runs of the second word from all states. -/
theorem gather_apply (workers : Workers A.stateCount) (second : Word) :
    workers.gather (fun s => apply A s second) =
      ((workers.gather fun s => A.follow s 0 second).map (·.map Fin.val)).mapError .fault := by
  have hrun (s : Fin A.stateCount) :
      apply A s second = ((A.follow s 0 second).map Fin.val).mapError .fault := by
    rw [apply_eq, Automaton.apply_of_lt s.2]
  cases hlasts : workers.gather fun s => A.follow s 0 second with
  | ok lasts =>
      refine workers.gather_eq_ok.2 fun s => ?_
      rw [hrun, workers.gather_eq_ok.1 hlasts s]
      exact congrArg Except.ok (Vector.getElem_map Fin.val s.2).symm
  | error e =>
      obtain ⟨s, hs⟩ := workers.exists_of_gather_eq_error hlasts
      refine gather_of_forall_error workers (fun r => ?_) s
      rw [hrun, Automaton.follow_error hs r]
      rfl

theorem acceptableOn_eq (A : Automaton) (workers : Workers A.stateCount) (first second : Word) :
    acceptableOn A workers first second =
      (A.acceptableOn workers first second).mapError .fault := by
  rw [← Automaton.acceptableOnEach_eq_acceptableOn, acceptableOn, Automaton.acceptableOnEach,
    apply_eq, Automaton.apply_of_lt A.initial_lt]
  cases A.follow ⟨A.initial, A.initial_lt⟩ 0 first with
  | error e => rfl
  | ok start =>
      -- The runs of the second word agree, and what is left asks no question that can be at fault.
      show (workers.gather _ >>= _) = Except.mapError _ (workers.gather _ >>= _)
      rw [gather_apply]
      cases workers.gather fun s => A.follow s 0 second with
      | error e => rfl
      | ok lasts =>
          have hfound : (workers.gather fun s =>
              if A.isFinal ((lasts.map Fin.val).get s) then guarded (reachable A start s)
              else .ok false) =
                .ok (Vector.ofFn fun s => A.isFinal (lasts.get s) && A.reachable start s) := by
            refine workers.gather_eq_ok.2 fun s => ?_
            have hlast : (lasts.map Fin.val).get s = (lasts.get s).1 := Vector.getElem_map _ s.2
            rw [hlast, reachable_eq, get_ofFn]
            cases A.isFinal (lasts.get s) <;> rfl
          show (workers.gather _ >>= _) = _
          rw [hfound]
          exact congrArg (fun test => Except.ok (workers.any test)) (funext fun s => get_ofFn _ s)

/-! ## All queries -/

/-- Whatever is asked, the machine answers or finds fault with the question, as it should. -/
theorem queries_eq (A : Automaton) :
    (∀ s a, step A s a = (A.step s a).mapError .fault) ∧
    (∀ s w, apply A s w = (A.apply s w).mapError .fault) ∧
    (∀ s t, guarded (reachable A s t) = .ok (A.reachable s t)) ∧
    (∀ s t, tryReachable A s t = (A.tryReachable s t).mapError .fault) ∧
    (∀ s, closure A s = (A.closure s).mapError .fault) ∧
    (∀ first second,
      acceptable A first second = (A.acceptable first second).mapError .fault) ∧
    ∀ workers first second,
      acceptableOn A workers first second =
        (A.acceptableOn workers first second).mapError .fault :=
  ⟨step_eq A, apply_eq A, fun s t => congrArg guarded (reachable_eq A s t), tryReachable_eq A,
    closure_eq A, acceptableOn_eq A _, acceptableOn_eq A⟩

end FiniteReach.Machine
