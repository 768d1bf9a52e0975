import FiniteReach.Proofs.Description
import FiniteReach.Proofs.Delivery

/-!
# Descriptions whose source fails

A source that fails never gives an automaton, even if all of one has been delivered. Of what it has
delivered only the digit runs that a separator ends are numbers, and only one of them that is too
large is reported before the failure is (`load_of_failing`).
-/

namespace FiniteReach

namespace Numeral

/-- A maximal digit run whose value is too large, and a byte that is no digit behind it. -/
structure Oversized (bs : Bytes) (start : Nat) (run : Bytes) : Prop extends
    MaximalRun bs start run where
  closed : start + run.length < bs.length
  tooLarge : limit ≤ decimal run

theorem mem_closedOf_iff {bs run : Bytes} {placed : List (Nat × Bytes)} {start : Nat}
    (h : MaximalRuns bs placed) : (start, run) ∈ closedOf bs placed ∧ limit ≤ value run ↔
      Oversized bs start run := by
  rw [closedOf, List.mem_filter, h.mem_iff, decide_eq_true_eq, value_eq_decimal]
  constructor
  · rintro ⟨⟨hrun, hclosed⟩, hlarge⟩
    exact ⟨hrun, hclosed, hlarge⟩
  · rintro ⟨hrun, hclosed, hlarge⟩
    exact ⟨⟨hrun, hclosed⟩, hlarge⟩

end Numeral

namespace Description

open Numeral

variable {bs : Bytes} {cause : IoFault}

theorem load_of_firstClosed {i : Nat} {run : Bytes}
    (h : FirstAt (fun run => limit ≤ value run) (closedRuns bs) i run) (layout : Layout)
    (path : Option String) :
    load layout ⟨bs, some cause⟩ path = .error (.malformed (.numberTooLarge run)) := by
  obtain ⟨before, rest, hmap⟩ := map_ofRun_of_firstAt NumberFault.tooLarge h
  have hnumbers : Source.numbers ⟨bs, some cause⟩ = List.map .ok before ++
      .error (.tooLarge run) :: (rest ++ [.error (.unread cause)]) := by
    rw [Source.numbers_failing, hmap, List.append_assoc, List.cons_append]
  exact load_of_unread hnumbers path

theorem load_of_closed (h : ∀ run ∈ closedRuns bs, ¬ limit ≤ value run) (layout : Layout)
    (path : Option String) : load layout ⟨bs, some cause⟩ path = .error (.unreadable path cause) := by
  have hmap : (closedRuns bs).map (ofRun NumberFault.tooLarge) =
      ((closedRuns bs).map value).map .ok :=
    map_ofRun_eq_ok.2 ⟨fun run hm => Nat.lt_of_not_le (h run hm), rfl⟩
  have hnumbers : Source.numbers ⟨bs, some cause⟩ =
      ((closedRuns bs).map value).map .ok ++ .error (.unread cause) :: [] := by
    rw [Source.numbers_failing, hmap]
  exact load_of_unread hnumbers path

/-- From a source that fails after some bytes, the first digit run is reported that is too large and
does not end with the bytes, or else the failure; no layout and no header makes a difference. -/
theorem load_of_failing (bs : Bytes) (cause : IoFault) :
    (∃ start run, Oversized bs start run ∧
        (∀ start' run', Oversized bs start' run' → start ≤ start') ∧
          ∀ layout path,
            load layout ⟨bs, some cause⟩ path = .error (.malformed (.numberTooLarge run))) ∨
      (∀ start run, ¬ Oversized bs start run) ∧
        ∀ layout path, load layout ⟨bs, some cause⟩ path = .error (.unreadable path cause) := by
  obtain ⟨placed, hplaced, _, hclosed⟩ := exists_maximalRuns bs
  have hascending : (closedOf bs placed).Pairwise fun x y => x.1 < y.1 :=
    hplaced.ascending.filter _
  rcases FirstAt.exists_or_forall_not (fun entry => limit ≤ value entry.2) (closedOf bs placed) with
    ⟨i, ⟨start, run⟩, h⟩ | hall
  · refine .inl ⟨start, run, (mem_closedOf_iff hplaced).1 ⟨h.mem, h.holds⟩, ?_, ?_⟩
    · intro start' run' h'
      obtain ⟨hm, hlarge⟩ := (mem_closedOf_iff hplaced).2 h'
      rcases h.eq_or_rel hascending hm hlarge with heq | hlt
      · cases heq
        exact Nat.le_refl _
      · exact Nat.le_of_lt hlt
    · have hfirst := h.map (P := fun run => limit ≤ value run) Prod.snd
      exact load_of_firstClosed (hclosed ▸ hfirst)
  · refine .inr ⟨fun start run h => ?_, load_of_closed fun run hm => ?_⟩
    · obtain ⟨hm, hlarge⟩ := (mem_closedOf_iff hplaced).2 h
      exact hall _ hm hlarge
    · rw [← hclosed] at hm
      obtain ⟨entry, hentry, rfl⟩ := List.mem_map.1 hm
      exact hall entry hentry

/-- A complete description is of no use if its source fails behind it, and neither is a run that is
too large if it may go on. -/
example : load .stateMajor ⟨Text.utf8 "1 1 0 0 0 0 0 18446744073709551616", some .invalidText⟩ =
    .error (.unreadable none .invalidText) := by rfl

end Description

end FiniteReach
