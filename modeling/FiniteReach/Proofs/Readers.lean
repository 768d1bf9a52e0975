import FiniteReach.Collect

/-!
# Readers one after another

A reader takes something off a state or fails. What a sequence of readers does is known from what the
first one does and what the rest does on the state that the first one leaves.
-/

namespace FiniteReach

variable {σ ε α β : Type} {x : StateT σ (Except ε) α} {f : α → StateT σ (Except ε) β} {s s' : σ}

theorem run_bind_of_ok {a : α} (h : x s = .ok (a, s')) : (x >>= f) s = f a s' := by
  change x s >>= (fun (a, s) => f a s) = _
  rw [h]
  rfl

theorem run_bind_eq_ok {b : β} {s'' : σ} : (x >>= f) s = .ok (b, s'') ↔
    ∃ a s', x s = .ok (a, s') ∧ f a s' = .ok (b, s'') :=
  bind_eq_ok.trans Prod.exists

theorem run_pure_eq_ok {a b : α} : (pure a : StateT σ (Except ε) α) s = .ok (b, s') ↔
    a = b ∧ s = s' := by
  change Except.ok (a, s) = Except.ok (b, s') ↔ _
  rw [Except.ok.injEq, Prod.mk.injEq]

end FiniteReach
