/-!
# The first of several

Faults are reported one at a time, and of several of one kind the first one. `FirstAt` says which
that is. Where some property of faults tells what is reported, and each input without such a fault
succeeds, it tells exactly what is reported (`eq_error_iff_of_total`).
-/

namespace FiniteReach

/-- `x` at position `i` is the first member of a list that has a property. -/
structure FirstAt {α : Type} (P : α → Prop) (members : List α) (i : Nat) (x : α) : Prop where
  getElem? : members[i]? = some x
  holds : P x
  before : ∀ y ∈ members.take i, ¬ P y

namespace FirstAt

variable {α β : Type} {P : α → Prop} {members : List α} {i : Nat} {x : α}

theorem mem (h : FirstAt P members i x) : x ∈ members := List.mem_of_getElem? h.getElem?

theorem exists_or_forall_not (P : α → Prop) (members : List α) :
    (∃ i x, FirstAt P members i x) ∨ ∀ x ∈ members, ¬ P x := by
  induction members with
  | nil => exact .inr nofun
  | cons y members ih =>
      by_cases hy : P y
      · exact .inl ⟨0, y, rfl, hy, nofun⟩
      · rcases ih with ⟨i, x, h⟩ | h
        · exact .inl ⟨i + 1, x, h.getElem?, h.holds, List.forall_mem_cons.2 ⟨hy, h.before⟩⟩
        · exact .inr (List.forall_mem_cons.2 ⟨hy, h⟩)

theorem eq_append (h : FirstAt P members i x) :
    members = members.take i ++ x :: members.drop (i + 1) ∧ (members.take i).length = i := by
  obtain ⟨hi, hx⟩ := List.getElem?_eq_some_iff.1 h.getElem?
  constructor
  · rw [← hx, ← List.drop_eq_getElem_cons hi, List.take_append_drop]
  · exact List.length_take_of_le (Nat.le_of_lt hi)

theorem findSome?_eq (h : FirstAt P members i x) {f : α → Option β} {b : β} (hx : f x = some b)
    (hf : ∀ y, ¬ P y → f y = none) : members.findSome? f = some b :=
  List.findSome?_eq_some_iff.2
    ⟨_, x, _, h.eq_append.1, hx, fun y hy => hf y (h.before y hy)⟩

theorem find?_eq (h : FirstAt P members i x) {p : α → Bool} (hp : ∀ y, p y = true ↔ P y) :
    members.find? p = some x := by
  refine List.find?_eq_some_iff_append.2 ⟨(hp x).2 h.holds, _, _, h.eq_append.1, fun y hy => ?_⟩
  rw [Bool.not_eq_true', ← Bool.not_eq_true, hp]
  exact h.before y hy

/-- Of a list in order, a member with the property is the first one or comes after it. -/
theorem eq_or_rel (h : FirstAt P members i x) {R : α → α → Prop} (hr : members.Pairwise R) {y : α}
    (hm : y ∈ members) (hy : P y) : y = x ∨ R x y := by
  rw [h.eq_append.1] at hm hr
  rcases List.mem_append.1 hm with hm | hm
  · exact absurd hy (h.before y hm)
  · rcases List.mem_cons.1 hm with rfl | hm
    · exact .inl rfl
    · exact .inr (List.rel_of_pairwise_cons (List.pairwise_append.1 hr).2.1 hm)

theorem map {P : β → Prop} (f : α → β) (h : FirstAt (fun y => P (f y)) members i x) :
    FirstAt P (members.map f) i (f x) where
  getElem? := by rw [List.getElem?_map, h.getElem?, Option.map_some]
  holds := h.holds
  before y hm := by
    rw [← List.map_take] at hm
    obtain ⟨z, hz, rfl⟩ := List.mem_map.1 hm
    exact h.before z hz

/-- The first member is the first one with its number as well. -/
theorem zipIdx (h : FirstAt P members i x) :
    FirstAt (fun entry => P entry.1) members.zipIdx i (x, i) where
  getElem? := by rw [List.getElem?_zipIdx, h.getElem?, Option.map_some, Nat.zero_add]
  holds := h.holds
  before entry hm := by
    obtain ⟨j, hj, rfl⟩ := List.mem_take_iff_getElem.1 hm
    rw [List.length_zipIdx] at hj
    rw [List.getElem_zipIdx]
    exact h.before _ (List.mem_take_iff_getElem.2 ⟨j, hj, rfl⟩)

end FirstAt

/-! ## The first number with a property -/

theorem firstAt_finRange {n : Nat} {P : Fin n → Prop} {c : Fin n} (hc : P c)
    (hbefore : ∀ c' < c, ¬ P c') : FirstAt P (List.finRange n) c.1 c where
  getElem? := by simp
  holds := hc
  before c' hm := by
    obtain ⟨j, hj, rfl⟩ := List.mem_take_iff_getElem.1 hm
    refine hbefore _ ?_
    rw [List.getElem_finRange, Fin.lt_def]
    exact (Nat.lt_min.1 hj).1

theorem exists_first_or {n : Nat} (P : Fin n → Prop) :
    (∃ c, P c ∧ ∀ c' < c, ¬ P c') ∨ ∀ c, ¬ P c := by
  rcases FirstAt.exists_or_forall_not P (List.finRange n) with ⟨i, c, h⟩ | h
  · refine .inl ⟨c, h.holds, fun c' hlt => h.before c' (List.mem_take_iff_getElem.2 ?_)⟩
    obtain ⟨hi, rfl⟩ := List.getElem?_eq_some_iff.1 h.getElem?
    rw [List.getElem_finRange, Fin.lt_def] at hlt
    exact ⟨c'.1, Nat.lt_min.2 ⟨hlt, by simp⟩, by simp⟩
  · exact .inr fun c => h c (List.mem_finRange c)

/-! ## The first fault -/

theorem eq_error_iff_of_total {ε α : Type} {x : Except ε α} {P : ε → Prop}
    (sound : ∀ e, P e → x = .error e) (total : (∃ e, P e) ∨ ∃ a, x = .ok a) (e : ε) :
    x = .error e ↔ P e := by
  constructor
  · intro h
    rcases total with ⟨e', he'⟩ | ⟨a, ha⟩
    · cases (sound e' he').symm.trans h
      exact he'
    · cases ha.symm.trans h
  · exact sound e

end FiniteReach
