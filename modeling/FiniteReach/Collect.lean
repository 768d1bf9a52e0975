/-!
# The first error of many results

`collect` gathers the results of a list, `tabulate` those of a task for the numbers below a bound.
Either there is a value in each place (`tabulate_eq_ok`), or the first error is the result
(`exists_of_tabulate_eq_error`).
-/

namespace FiniteReach

theorem bind_eq_ok {ε α β : Type} {x : Except ε α} {f : α → Except ε β} {b : β} :
    x >>= f = .ok b ↔ ∃ a, x = .ok a ∧ f a = .ok b := by
  cases x with
  | error e => simp [bind, Except.bind]
  | ok a => simp [bind, Except.bind]

@[simp] theorem mapError_ok {ε ε' α : Type} (a : α) (f : ε → ε') :
    (Except.ok a : Except ε α).mapError f = .ok a := rfl

@[simp] theorem mapError_error {ε ε' α : Type} (e : ε) (f : ε → ε') :
    (Except.error e : Except ε α).mapError f = .error (f e) := rfl

theorem mapError_eq_ok {ε ε' α : Type} {x : Except ε α} {f : ε → ε'} {a : α} :
    x.mapError f = .ok a ↔ x = .ok a := by
  cases x with
  | error e => exact ⟨nofun, nofun⟩
  | ok a' =>
    constructor
    · intro h
      cases h
      rfl
    · intro h
      cases h
      rfl

theorem bind_eq_error {ε α β : Type} {x : Except ε α} {f : α → Except ε β} {e : ε} :
    x >>= f = .error e ↔ x = .error e ∨ ∃ a, x = .ok a ∧ f a = .error e := by
  cases x with
  | error e' => simp [bind, Except.bind]
  | ok a => simp [bind, Except.bind]

theorem mapError_eq_error {ε ε' α : Type} {x : Except ε α} {f : ε → ε'} {e' : ε'} :
    x.mapError f = .error e' ↔ ∃ e, x = .error e ∧ f e = e' := by
  cases x with
  | error e => simp
  | ok a => simp

theorem map_eq_ok {ε α β : Type} {x : Except ε α} {f : α → β} {b : β} :
    x.map f = .ok b ↔ ∃ a, x = .ok a ∧ f a = b := by
  cases x with
  | error e => simp [Except.map]
  | ok a => simp [Except.map]

theorem toOption_eq_some {ε α : Type} {x : Except ε α} {a : α} :
    x.toOption = some a ↔ x = .ok a := by
  cases x with
  | error e => exact ⟨nofun, nofun⟩
  | ok a' => simp [Except.toOption]

theorem map_eq_error {ε α β : Type} {x : Except ε α} {f : α → β} {e : ε} :
    x.map f = .error e ↔ x = .error e := by
  cases x with
  | error e' => simp [Except.map]
  | ok a => simp [Except.map]

theorem map_mapError {ε ε' α β : Type} (x : Except ε α) (f : α → β) (g : ε → ε') :
    (x.mapError g).map f = (x.map f).mapError g := by
  cases x with
  | error e => rfl
  | ok a => rfl

/-- All values in order, or the first error. -/
def collect {ε α : Type} : List (Except ε α) → Except ε (List α)
  | [] => .ok []
  | .error e :: _ => .error e
  | .ok a :: rest => (collect rest).map (a :: ·)

@[simp] theorem collect_nil {ε α : Type} : collect ([] : List (Except ε α)) = .ok [] := rfl

@[simp] theorem collect_error {ε α : Type} (e : ε) (rest : List (Except ε α)) :
    collect (.error e :: rest) = .error e := rfl

@[simp] theorem collect_ok {ε α : Type} (a : α) (rest : List (Except ε α)) :
    collect (.ok a :: rest) = (collect rest).map (a :: ·) := rfl

theorem collect_eq_ok {ε α : Type} {results : List (Except ε α)} {values : List α} :
    collect results = .ok values ↔ results = values.map .ok := by
  induction results generalizing values with
  | nil => cases values <;> simp
  | cons r rest ih =>
    cases r with
    | error e => cases values <;> simp
    | ok a =>
      rw [collect_ok]
      cases hr : collect rest with
      | error e =>
        cases values with
        | nil => simp [Except.map]
        | cons v vs => simp [Except.map, ← ih, hr]
      | ok us =>
        cases values with
        | nil => simp [Except.map]
        | cons v vs => simp [Except.map, ← ih, hr]

theorem collect_append_error {ε α : Type} (values : List α) (e : ε) (rest : List (Except ε α)) :
    collect (values.map .ok ++ .error e :: rest) = .error e := by
  induction values with
  | nil => rfl
  | cons v values ih =>
    rw [List.map_cons, List.cons_append, collect_ok, ih]
    rfl

theorem collect_append {ε α : Type} (front back : List (Except ε α)) :
    collect (front ++ back) = do
      let values ← collect front
      let others ← collect back
      return values ++ others := by
  induction front with
  | nil =>
    rw [List.nil_append, collect_nil]
    cases collect back <;> rfl
  | cons r front ih =>
    cases r with
    | error e => rfl
    | ok a =>
      rw [List.cons_append, collect_ok, collect_ok, ih]
      cases collect front with
      | error e => rfl
      | ok values => cases collect back <;> rfl

theorem ext_get {α : Type} {n : Nat} {v w : Vector α n} (h : ∀ i, v.get i = w.get i) : v = w :=
  Vector.ext fun i hi => h ⟨i, hi⟩

@[simp] theorem get_ofFn {α : Type} {n : Nat} (f : Fin n → α) (i : Fin n) :
    (Vector.ofFn f).get i = f i := Vector.getElem_ofFn i.2

@[simp] theorem get_push_last {α : Type} {n : Nat} (v : Vector α n) (a : α) :
    (v.push a).get (Fin.last n) = a := Vector.getElem_push_eq

@[simp] theorem get_push_castSucc {α : Type} {n : Nat} (v : Vector α n) (a : α) (i : Fin n) :
    (v.push a).get i.castSucc = v.get i := Vector.getElem_push_lt i.2

theorem get_pop {α : Type} {n : Nat} (v : Vector α (n + 1)) (i : Fin n) :
    v.pop.get i = v.get i.castSucc := Vector.getElem_pop i.2

/-- The values of a task for `0, …, n - 1`, or the first error. -/
def tabulate {ε α : Type} {n : Nat} (task : Fin n → Except ε α) : Except ε (Vector α n) :=
  Vector.ofFnM task

theorem tabulate_succ {ε α : Type} {n : Nat} (task : Fin (n + 1) → Except ε α) :
    tabulate task =
      match tabulate fun i => task i.castSucc, task (Fin.last n) with
      | .error e, _ => .error e
      | .ok _, .error e => .error e
      | .ok v, .ok a => .ok (v.push a) := by
  rw [tabulate, Vector.ofFnM_succ, tabulate]
  cases Vector.ofFnM fun i => task (Fin.castSucc i) <;> cases task (Fin.last n) <;> rfl

theorem tabulate_eq_ok {ε α : Type} {n : Nat} {task : Fin n → Except ε α} {v : Vector α n} :
    tabulate task = .ok v ↔ ∀ i, task i = .ok (v.get i) := by
  induction n with
  | zero =>
    have h : v = #v[] := by simp
    simp [tabulate, h, pure, Except.pure]
  | succ n ih =>
    rw [tabulate_succ]
    constructor
    · intro h
      cases hv : tabulate fun i => task (Fin.castSucc i) with
      | error e => simp [hv] at h
      | ok u =>
        cases ha : task (Fin.last n) with
        | error e => simp [hv, ha] at h
        | ok a =>
          simp only [hv, ha, Except.ok.injEq] at h
          subst h
          exact Fin.lastCases (by rw [ha, get_push_last]) fun i => by rw [ih.1 hv i, get_push_castSucc]
    · intro h
      have hv : tabulate (fun i => task (Fin.castSucc i)) = .ok v.pop :=
        ih.2 fun i => (h i.castSucc).trans (congrArg Except.ok (get_pop v i).symm)
      simp only [hv, h (Fin.last n), Except.ok.injEq]
      exact v.push_pop_back

theorem exists_of_tabulate_eq_error {ε α : Type} {n : Nat} {task : Fin n → Except ε α} {e : ε}
    (h : tabulate task = .error e) : ∃ i, task i = .error e ∧ ∀ j < i, ∃ a, task j = .ok a := by
  induction n with
  | zero => simp [tabulate, pure, Except.pure] at h
  | succ n ih =>
    rw [tabulate_succ] at h
    cases hv : tabulate fun i => task (Fin.castSucc i) with
    | error e' =>
      simp only [hv, Except.error.injEq] at h
      subst h
      obtain ⟨i, hi, hlt⟩ := ih hv
      exact ⟨i.castSucc, hi, fun j hj => hlt ⟨j, Nat.lt_trans hj i.2⟩ hj⟩
    | ok v =>
      cases ha : task (Fin.last n) with
      | ok a => simp [hv, ha] at h
      | error e' =>
        simp only [hv, ha, Except.error.injEq] at h
        subst h
        exact ⟨Fin.last n, ha, fun j hj => ⟨_, tabulate_eq_ok.1 hv ⟨j, hj⟩⟩⟩

end FiniteReach
