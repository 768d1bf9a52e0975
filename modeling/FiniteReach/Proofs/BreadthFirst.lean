import FiniteReach.Proofs.Machine
import FiniteReach.Proofs.Search

/-!
# One advance after another

`calls` advances a search any number of times and keeps the states that were taken off the frontier.
After each call every marked state has either been taken or waits on the frontier, and no state is
taken twice (`Explored`); so there are no more takes than states, and a loop that advances until the
frontier is empty, or until a target is taken, comes to an end (`loop_drainRound`,
`loop_seekRound`).
-/

namespace FiniteReach

namespace Search

variable {A : Automaton} {source s t : Fin A.stateCount} {search rest : Search A}

/-- The states that `m` advances take off the frontier, the first to be taken first, and the search
after them. An advance that finds the frontier empty takes none and changes nothing. -/
def calls (search : Search A) : Nat → List (Fin A.stateCount) × Search A
  | 0 => ([], search)
  | m + 1 =>
    let (taken, last) := search.calls m
    match last.advance with
    | none => (taken, last)
    | some (s, rest) => (taken ++ [s], rest)

/-- What is known of a search that began at `source` once these states have been taken off its
frontier. -/
structure Explored (source : Fin A.stateCount) (taken : List (Fin A.stateCount))
    (search : Search A) : Prop where
  frontier_nodup : search.frontier.Nodup
  frontier_marked : ∀ s ∈ search.frontier, search.visited.get s = true
  marked_cases : ∀ s, search.visited.get s = true → s ∈ search.frontier ∨ s ∈ taken
  frontier_new : ∀ s ∈ search.frontier, s ∉ taken
  taken_nodup : taken.Nodup
  taken_closed : ∀ s ∈ taken, ∀ t ∈ A.row s, search.visited.get t = true
  marked_source : ∀ s, search.visited.get s = true → s = source ∨ ∃ r ∈ taken, s ∈ A.row r

/-! ## Where a marked state comes from -/

/-- Every marked state is the source or a successor of one that has left the frontier. -/
def Descends (source : Fin A.stateCount) (search : Search A) : Prop :=
  ∀ s ∈ search.order.toList, s = source ∨ ∃ r ∈ search.departed, s ∈ A.row r

theorem Descends.start (source : Fin A.stateCount) : (Search.start source).Descends source :=
  fun _ hs => .inl (List.mem_singleton.1 hs)

theorem Descends.advance (h : search.Descends source) (hr : search.Advanced s rest) :
    rest.Descends source := by
  intro t ht
  rw [hr.departed]
  rcases (hr.mem_order t).1 ht with ht | ht
  · rcases h t ht with rfl | ⟨r, hd, hrow⟩
    · exact .inl rfl
    · exact .inr ⟨r, List.mem_append_left _ hd, hrow⟩
  · exact .inr ⟨s, List.mem_append_right _ (List.mem_singleton_self s), ht⟩

/-! ## Any number of calls -/

theorem departed_append_frontier (search : Search A) :
    search.departed ++ search.frontier = search.order.toList := List.take_append_drop _ _

theorem Invariant.explored (h : search.Invariant source) (hd : search.Descends source) :
    Explored source search.departed search := by
  have horder (s : Fin A.stateCount) : search.visited.get s = true ↔
      s ∈ search.departed ∨ s ∈ search.frontier := by
    rw [h.visited_iff, ← departed_append_frontier, List.mem_append]
  have hnodup := h.nodup
  rw [← departed_append_frontier, List.nodup_append] at hnodup
  obtain ⟨hdeparted, hfrontier, hdisjoint⟩ := hnodup
  refine ⟨hfrontier, fun s hs => (horder s).2 (.inr hs), fun s hs => ((horder s).1 hs).symm,
    fun s hs ht => hdisjoint s ht s hs rfl, hdeparted, fun s hs t ht => ?_, fun s hs => ?_⟩
  · exact (h.visited_iff t).2 (h.closed s hs t ht)
  · exact hd s ((h.visited_iff s).1 hs)

/-- The invariants after any number of calls, which have taken just what has left the frontier. -/
theorem calls_start (source : Fin A.stateCount) (m : Nat) :
    ((start source).calls m).2.Invariant source ∧ ((start source).calls m).2.Descends source ∧
      ((start source).calls m).1 = ((start source).calls m).2.departed := by
  induction m with
  | zero => exact ⟨Invariant.start source, Descends.start source, rfl⟩
  | succ m ih =>
      obtain ⟨h, hd, ht⟩ := ih
      rw [calls]
      dsimp only
      split
      · exact ⟨h, hd, ht⟩
      · next s rest ha =>
          have hr := h.toListed.advance ha
          exact ⟨h.advance ha, hd.advance hr, by rw [hr.departed, ht]⟩

theorem explored_calls (source : Fin A.stateCount) (m : Nat) :
    Explored source ((start source).calls m).1 ((start source).calls m).2 := by
  obtain ⟨h, hd, ht⟩ := calls_start source m
  rw [ht]
  exact h.explored hd

theorem Explored.length_le {taken : List (Fin A.stateCount)} (h : Explored source taken search) :
    taken.length ≤ A.stateCount := by
  simpa using h.taken_nodup.length_le_card

/-! ## Loops that advance -/

/-- A round of the loop that works a search off. -/
def drainRound (search : Search A) : Option (Machine.Round (Search A) (Search A)) :=
  match search.advance with
  | none => some (.done search)
  | some (_, rest) => some (.again rest)

/-- A round of the loop that looks for a target among the states that are taken. -/
def seekRound (target : Fin A.stateCount) (search : Search A) :
    Option (Machine.Round (Search A) Bool) :=
  match search.advance with
  | none => some (.done false)
  | some (s, rest) => some (if s = target then .done true else .again rest)

/-- Once as many states have been taken as there are, none waits. -/
theorem Listed.advance_eq_none (h : search.Listed) (hf : A.stateCount ≤ search.left) :
    search.advance = none :=
  Search.advance_eq_none.2 (List.drop_eq_nil_iff.2 (Nat.le_trans h.length_le hf))

/-- Every round takes a state, so those that have not left the frontier bound the rounds to come. -/
theorem loop_drainRound (h : search.Listed) {fuel : Nat} (hf : A.stateCount ≤ search.left + fuel) :
    Machine.loop drainRound search = some (search.exhaust fuel) := by
  induction fuel generalizing search with
  | zero =>
      exact Machine.loop_done (by rw [drainRound, h.advance_eq_none hf]; rfl)
  | succ fuel ih =>
      rw [exhaust]
      split
      · next ha => exact Machine.loop_done (by rw [drainRound, ha])
      · next s rest ha =>
          have hr := h.advance ha
          rw [Machine.loop_again (by rw [drainRound, ha])]
          exact ih hr.toListed (by rw [hr.left_eq]; omega)

theorem loop_seekRound (target : Fin A.stateCount) (h : search.Listed) {fuel : Nat}
    (hf : A.stateCount ≤ search.left + fuel) :
    Machine.loop (seekRound target) search = some (search.finds target fuel) := by
  induction fuel generalizing search with
  | zero =>
      exact Machine.loop_done (by rw [seekRound, h.advance_eq_none hf]; rfl)
  | succ fuel ih =>
      rw [finds]
      split
      · next ha => exact Machine.loop_done (by rw [seekRound, ha])
      · next s rest ha =>
          have hr := h.advance ha
          by_cases hs : s = target
          · rw [Machine.loop_done (by rw [seekRound, ha]; exact congrArg some (if_pos hs))]
            simp [hs]
          · rw [Machine.loop_again (by rw [seekRound, ha]; exact congrArg some (if_neg hs)),
              ih hr.toListed (by rw [hr.left_eq]; omega)]
            simp [hs]

end Search

namespace Automaton

variable {A : Automaton}

/-- The closure lists the states that are marked when the loop ends. -/
theorem exists_loop_drainRound (source : Fin A.stateCount) :
    ∃ last, Machine.loop Search.drainRound (Search.start source) = some last ∧
      last.frontier = [] ∧ A.closure source = .ok last.marked :=
  ⟨_, Search.loop_drainRound (Search.Invariant.start source).toListed (Nat.le_add_left _ _),
    Search.frontier_exhaust source, dif_pos source.2⟩

theorem loop_seekRound_start (source target : Fin A.stateCount) :
    Machine.loop (Search.seekRound target) (Search.start source) =
      some (A.reachable source target) := by
  rw [Search.loop_seekRound target (Search.Invariant.start source).toListed (Nat.le_add_left _ _),
    Option.some.injEq, Bool.eq_iff_iff, finds_iff, reachable_iff]

/-- A search keeps its books through any number of calls and takes no more states than there are, so
the loops of the closure and of reachability end, and with the right result. -/
theorem breadth_first (A : Automaton) (source : Fin A.stateCount) :
    (∀ m,
      Search.Explored source ((Search.start source).calls m).1
        ((Search.start source).calls m).2 ∧
      ((Search.start source).calls m).1.length ≤ A.stateCount) ∧
    (∃ last, Machine.loop Search.drainRound (Search.start source) = some last ∧
      last.frontier = [] ∧ A.closure source = .ok last.marked) ∧
    ∀ target : Fin A.stateCount, Machine.loop (Search.seekRound target) (Search.start source) =
      some (A.reachable source target) :=
  ⟨fun m => ⟨Search.explored_calls source m, (Search.explored_calls source m).length_le⟩,
    exists_loop_drainRound source, loop_seekRound_start source⟩

end Automaton

end FiniteReach
