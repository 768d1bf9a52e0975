import FiniteReach.Automaton.Reach
import FiniteReach.Proofs.Run
import Mathlib.Data.Fintype.Card

/-!
# What a search finds

A search marks exactly the states that some word leads to. Every search that began at a source keeps
`Invariant`, and one that runs long enough has an empty frontier. What has left the frontier is
then all that was marked, and no transition leaves it.
-/

namespace FiniteReach

namespace Search

variable {A : Automaton} {source s t : Fin A.stateCount} {search rest : Search A}

/-- The states that have left the frontier, the first to leave first. -/
def departed (search : Search A) : List (Fin A.stateCount) := search.order.toList.take search.left

/-! ## Marking states -/

theorem get_mark {n : Nat} {marks : Vector Bool n} {s t : Fin n} :
    (marks.setIfInBounds s.1 true).get t = true ↔ marks.get t = true ∨ t = s := by
  rw [get_setIfInBounds]
  split
  · next hst => simp [Fin.ext hst]
  · next hst =>
      have hts : t ≠ s := fun hts => hst (congrArg Fin.val hts).symm
      simp [hts]

/-- The order lists the marked states, each once. -/
structure Listed (search : Search A) : Prop where
  nodup : search.order.toList.Nodup
  visited_iff : ∀ s, search.visited.get s = true ↔ s ∈ search.order.toList

theorem order_visit : (search.visit s).order.toList =
    if search.visited.get s then search.order.toList else search.order.toList ++ [s] := by
  rw [visit]
  split <;> simp

theorem Listed.visit (h : search.Listed) (s : Fin A.stateCount) : (search.visit s).Listed := by
  by_cases hs : search.visited.get s = true
  · rwa [Search.visit, if_pos hs]
  · have hn : s ∉ search.order.toList := fun hm => hs ((h.visited_iff s).2 hm)
    rw [Search.visit, if_neg hs]
    constructor
    · rw [Array.toList_push, List.nodup_append]
      refine ⟨h.nodup, List.nodup_singleton s, ?_⟩
      intro a ha b hb hab
      cases List.mem_singleton.1 hb
      exact hn (hab ▸ ha)
    · intro t
      rw [Array.toList_push, List.mem_append, List.mem_singleton, ← h.visited_iff t]
      exact get_mark

theorem mem_order_visit (h : search.Listed) :
    t ∈ (search.visit s).order.toList ↔ t ∈ search.order.toList ∨ t = s := by
  rw [order_visit]
  split
  · next hs =>
      have hm := (h.visited_iff s).1 hs
      exact ⟨Or.inl, fun ht => ht.elim id fun he => he ▸ hm⟩
  · rw [List.mem_append, List.mem_singleton]

/-- Visiting states one after another changes nothing but the marks and the end of the order. -/
theorem Listed.foldl_visit (h : search.Listed) (states : List (Fin A.stateCount)) :
    (states.foldl Search.visit search).Listed ∧
      search.order.toList <+: (states.foldl Search.visit search).order.toList ∧
      (states.foldl Search.visit search).left = search.left ∧
      ∀ t, t ∈ (states.foldl Search.visit search).order.toList ↔
        t ∈ search.order.toList ∨ t ∈ states := by
  induction states generalizing search with
  | nil => exact ⟨h, List.prefix_refl _, rfl, by simp⟩
  | cons s states ih =>
      obtain ⟨hl, hp, hleft, hm⟩ := ih (h.visit s)
      refine ⟨hl, List.IsPrefix.trans ?_ hp, hleft.trans ?_, fun t => ?_⟩
      · rw [order_visit]
        split
        · exact List.prefix_refl _
        · exact List.prefix_append _ _
      · rw [Search.visit]
        split <;> rfl
      · rw [List.foldl_cons, hm t, mem_order_visit h, List.mem_cons, or_assoc]

/-! ## One step -/

/-- What stays true of a search that began at `source`. -/
structure Invariant (source : Fin A.stateCount) (search : Search A) : Prop extends
    search.Listed where
  left_le : search.left ≤ search.order.toList.length
  source_mem : source ∈ search.order.toList
  leads : ∀ s ∈ search.order.toList, A.Leads source s
  closed : ∀ s ∈ search.departed, ∀ t ∈ A.row s, t ∈ search.order.toList

theorem Invariant.start (source : Fin A.stateCount) : (Search.start source).Invariant source where
  nodup := List.nodup_singleton source
  visited_iff t := by
    simp only [Search.start, get_mark, get_replicate, List.mem_singleton, Bool.false_eq_true,
      false_or]
  left_le := Nat.zero_le _
  source_mem := List.mem_singleton_self source
  leads s hs := List.mem_singleton.1 hs ▸ Automaton.Leads.refl source
  closed s hs := by cases hs

theorem advance_eq_none : search.advance = none ↔ search.frontier = [] := by
  rw [advance, frontier, List.drop_eq_nil_iff, Array.length_toList]
  split
  · next h => simpa using h
  · next h => simpa using (Array.getElem?_eq_some_iff.1 h).1

/-- What an advance that takes `s` off the frontier does to a search. -/
structure Advanced (search : Search A) (s : Fin A.stateCount) (rest : Search A) : Prop extends
    rest.Listed where
  taken : search.order.toList[search.left]? = some s
  order_prefix : search.order.toList <+: rest.order.toList
  left_eq : rest.left = search.left + 1
  mem_order : ∀ t, t ∈ rest.order.toList ↔ t ∈ search.order.toList ∨ t ∈ A.row s

theorem Listed.advance (h : search.Listed) (ha : search.advance = some (s, rest)) :
    search.Advanced s rest := by
  rw [Search.advance] at ha
  split at ha
  · cases ha
  · next r hr =>
      cases ha
      have hs : ({ search with left := search.left + 1 } : Search A).Listed :=
        ⟨h.nodup, h.visited_iff⟩
      obtain ⟨hl, hp, hleft, hm⟩ := hs.foldl_visit (A.row s)
      exact ⟨hl, by rwa [Array.getElem?_toList], hp, hleft, hm⟩

/-- The state that is taken off the frontier joins those that have left it. -/
theorem Advanced.departed (h : search.Advanced s rest) :
    rest.departed = search.departed ++ [s] := by
  obtain ⟨tail, htail⟩ := h.order_prefix
  have hlt := (List.getElem?_eq_some_iff.1 h.taken).1
  rw [Search.departed, Search.departed, h.left_eq, ← htail, List.take_append_of_le_length hlt,
    List.take_add_one, h.taken]
  rfl

theorem Invariant.advance (h : search.Invariant source) (ha : search.advance = some (s, rest)) :
    rest.Invariant source := by
  have hr := h.toListed.advance ha
  refine ⟨hr.toListed, ?_, ?_, ?_, ?_⟩
  · rw [hr.left_eq]
    exact Nat.le_trans (List.getElem?_eq_some_iff.1 hr.taken).1 hr.order_prefix.length_le
  · exact (hr.mem_order source).2 (Or.inl h.source_mem)
  · intro t ht
    rcases (hr.mem_order t).1 ht with ht | ht
    · exact h.leads t ht
    · exact (h.leads s (List.mem_of_getElem? hr.taken)).tail ht
  · intro r hd t ht
    rw [hr.departed, List.mem_append, List.mem_singleton] at hd
    rcases hd with hd | rfl
    · exact (hr.mem_order t).2 (Or.inl (h.closed r hd t ht))
    · exact (hr.mem_order t).2 (Or.inr ht)

/-! ## Many steps -/

theorem Invariant.exhaust (h : search.Invariant source) (fuel : Nat) :
    (search.exhaust fuel).Invariant source := by
  induction fuel generalizing search with
  | zero => exact h
  | succ fuel ih =>
      rw [Search.exhaust]
      split
      · exact h
      · next ha => exact ih (h.advance ha)

theorem left_exhaust (h : search.Listed) (fuel : Nat) :
    (search.exhaust fuel).frontier = [] ∨ (search.exhaust fuel).left = search.left + fuel := by
  induction fuel generalizing search with
  | zero => exact Or.inr rfl
  | succ fuel ih =>
      rw [Search.exhaust]
      split
      · next ha => exact Or.inl (advance_eq_none.1 ha)
      · next ha =>
          have hr := h.advance ha
          rcases ih hr.toListed with hf | hf
          · exact Or.inl hf
          · refine Or.inr (hf.trans ?_)
            rw [hr.left_eq, Nat.add_assoc, Nat.add_comm 1]

/-- A search finds its target among the states that leave the frontier while it looks. -/
theorem mem_departed_exhaust (h : search.Listed) (fuel : Nat) :
    t ∈ (search.exhaust fuel).departed ↔ t ∈ search.departed ∨ search.finds t fuel = true := by
  induction fuel generalizing search with
  | zero => simp [exhaust, finds]
  | succ fuel ih =>
      rw [exhaust, finds]
      split
      · next ha => simp
      · next s rest ha =>
          have hr := h.advance ha
          rw [ih hr.toListed, hr.departed, List.mem_append, List.mem_singleton, Bool.or_eq_true,
            beq_iff_eq, or_assoc, eq_comm (a := t)]

/-- There are no more states to mark than states. -/
theorem Listed.length_le (h : search.Listed) : search.order.toList.length ≤ A.stateCount := by
  simpa using h.nodup.length_le_card

theorem frontier_exhaust (source : Fin A.stateCount) :
    ((start source).exhaust A.stateCount).frontier = [] := by
  have h := (Invariant.start source).exhaust A.stateCount
  rcases left_exhaust (Invariant.start source).toListed A.stateCount with hf | hf
  · exact hf
  · rw [frontier, List.drop_eq_nil_iff, hf]
    exact Nat.le_trans h.length_le (Nat.le_add_left _ _)

theorem departed_eq_order (hf : search.frontier = []) :
    search.departed = search.order.toList :=
  List.take_of_length_le (List.drop_eq_nil_iff.1 hf)

/-- A search that has emptied its frontier has marked what its source leads to. -/
theorem Invariant.mem_order_iff (h : search.Invariant source) (hf : search.frontier = [])
    (t : Fin A.stateCount) : t ∈ search.order.toList ↔ A.Leads source t := by
  constructor
  · exact h.leads t
  · intro ht
    exact ht.closed (fun s hs r hr => h.closed s (departed_eq_order hf ▸ hs) r hr) h.source_mem

end Search

namespace Automaton

variable {A : Automaton} {s t : Fin A.stateCount}

theorem reachMarks_iff : (A.reachMarks s).get t = true ↔ A.Leads s t := by
  have h := (Search.Invariant.start s).exhaust A.stateCount
  exact (h.visited_iff t).trans (h.mem_order_iff (Search.frontier_exhaust s) t)

theorem finds_iff :
    (Search.start s).finds t A.stateCount = true ↔ A.Leads s t := by
  have hf := Search.frontier_exhaust s
  have hd := Search.mem_departed_exhaust (Search.Invariant.start s).toListed A.stateCount (t := t)
  rw [Search.departed_eq_order hf,
    ((Search.Invariant.start s).exhaust A.stateCount).mem_order_iff hf t] at hd
  rw [hd]
  exact (or_iff_right List.not_mem_nil).symm

theorem reachable_iff : A.reachable s t = true ↔ A.Leads s t := by
  rw [reachable]
  split
  · next h =>
      cases Fin.ext h
      exact iff_of_true (decide_eq_true s.2) (Leads.refl s)
  · rw [dif_pos ⟨s.2, t.2⟩, finds_iff]

end Automaton

end FiniteReach
