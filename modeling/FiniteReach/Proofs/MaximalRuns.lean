import FiniteReach.Proofs.DigitRuns
import Mathlib.Tactic.ByContra

/-!
# Maximal digit runs

A digit run is maximal if neither the byte before it nor the one after it is a digit. A separator
parts the maximal runs of a stream (`maximalRun_append_separator`), so they stand in the order and
number of `runs`, and those that do not reach to the end in that of `closedRuns`
(`exists_maximalRuns`).
-/

namespace FiniteReach.Numeral

/-! ## Where runs stand -/

/-- The digits `run` stand at `start` of a stream, and no digit before or after them. -/
structure MaximalRun (bs : Bytes) (start : Nat) (run : Bytes) : Prop where
  ne_nil : run ≠ []
  digit : ∀ d ∈ run, isDigit d = true
  getElem? : ∀ i < run.length, bs[start + i]? = run[i]?
  before : ∀ i b, i + 1 = start → bs[i]? = some b → isDigit b = false
  after : ∀ b, bs[start + run.length]? = some b → isDigit b = false

variable {bs p q run : Bytes} {b : UInt8} {start i : Nat}

namespace MaximalRun

theorem length_pos (h : MaximalRun bs start run) : 0 < run.length :=
  List.length_pos_iff.2 h.ne_nil

theorem le_length (h : MaximalRun bs start run) : start + run.length ≤ bs.length := by
  have hpos := h.length_pos
  have hin : run.length - 1 < run.length := by omega
  have hlast := h.getElem? _ hin
  rw [List.getElem?_eq_getElem hin] at hlast
  obtain ⟨hlt, _⟩ := List.getElem?_eq_some_iff.1 hlast
  omega

/-- A separator stands before a run or after it. -/
theorem of_separator (h : MaximalRun bs start run) (hi : bs[i]? = some b)
    (hb : isDigit b = false) : i < start ∨ start + run.length ≤ i := by
  by_contra hin
  obtain ⟨j, rfl⟩ := Nat.exists_eq_add_of_le (show start ≤ i by omega)
  rw [h.getElem? j (by omega)] at hi
  exact Bool.false_ne_true (hb.symm.trans (h.digit b (List.mem_of_getElem? hi)))

end MaximalRun

theorem maximalRun_of_digits (hd : ∀ d ∈ bs, isDigit d = true) :
    MaximalRun bs start run ↔ bs ≠ [] ∧ start = 0 ∧ run = bs := by
  constructor
  · intro h
    have hpos := h.length_pos
    have hle := h.le_length
    have hin (i : Nat) (hi : i < bs.length) : isDigit bs[i] = true := hd _ (List.getElem_mem hi)
    have hstart : start = 0 := by
      cases start with
      | zero => rfl
      | succ i =>
          have hi : i < bs.length := by omega
          have hbefore := h.before i _ rfl (List.getElem?_eq_getElem hi)
          exact absurd (hbefore.symm.trans (hin i hi)) Bool.false_ne_true
    subst hstart
    have hlength : run.length = bs.length := by
      by_contra hne
      have hi : 0 + run.length < bs.length := by omega
      exact Bool.false_ne_true ((h.after _ (List.getElem?_eq_getElem hi)).symm.trans (hin _ hi))
    refine ⟨List.ne_nil_of_length_pos (by omega), rfl, List.ext_getElem? fun i => ?_⟩
    by_cases hi : i < run.length
    · rw [← h.getElem? i hi, Nat.zero_add]
    · rw [List.getElem?_eq_none (by omega), List.getElem?_eq_none (by omega)]
  · rintro ⟨hne, rfl, rfl⟩
    refine ⟨hne, hd, fun i _ => by rw [Nat.zero_add], nofun, fun b hb => ?_⟩
    rw [Nat.zero_add, List.getElem?_eq_none (Nat.le_refl _)] at hb
    cases hb

theorem getElem?_append_separator_right :
    (p ++ b :: q)[p.length + 1 + i]? = q[i]? := by
  rw [List.getElem?_append_right (by omega), Nat.add_assoc, Nat.add_sub_cancel_left, Nat.add_comm 1 i,
    List.getElem?_cons_succ]

theorem getElem?_append_separator : (p ++ b :: q)[p.length]? = some b := by
  rw [List.getElem?_append_right (Nat.le_refl _), Nat.sub_self, List.getElem?_cons_zero]

theorem maximalRun_append_left (hb : isDigit b = false) (hle : start + run.length ≤ p.length) :
    MaximalRun (p ++ b :: q) start run ↔ MaximalRun p start run := by
  have hleft (i : Nat) (hi : i < p.length) : (p ++ b :: q)[i]? = p[i]? :=
    List.getElem?_append_left hi
  constructor
  · intro h
    have hpos := h.length_pos
    refine ⟨h.ne_nil, h.digit, fun i hi => ?_, fun i c hi hc => ?_, fun c hc => ?_⟩
    · rw [← hleft _ (by omega), h.getElem? i hi]
    · exact h.before i c hi (by rw [hleft i (by omega), hc])
    · obtain ⟨hlt, _⟩ := List.getElem?_eq_some_iff.1 hc
      exact h.after c (by rw [hleft _ hlt, hc])
  · intro h
    have hpos := h.length_pos
    refine ⟨h.ne_nil, h.digit, fun i hi => ?_, fun i c hi hc => ?_, fun c hc => ?_⟩
    · rw [hleft _ (by omega), h.getElem? i hi]
    · exact h.before i c hi (by rw [← hleft i (by omega), hc])
    · rcases Nat.lt_or_eq_of_le hle with hlt | heq
      · exact h.after c (by rw [← hleft _ hlt, hc])
      · rw [heq, getElem?_append_separator, Option.some.injEq] at hc
        rwa [← hc]

theorem maximalRun_append_right (hb : isDigit b = false) :
    MaximalRun (p ++ b :: q) (p.length + 1 + start) run ↔ MaximalRun q start run := by
  have hright (i : Nat) : (p ++ b :: q)[p.length + 1 + i]? = q[i]? :=
    getElem?_append_separator_right
  constructor
  · intro h
    refine ⟨h.ne_nil, h.digit, fun i hi => ?_, fun i c hi hc => ?_, fun c hc => ?_⟩
    · rw [← hright, ← Nat.add_assoc, h.getElem? i hi]
    · exact h.before (p.length + 1 + i) c (by omega) (by rw [hright, hc])
    · exact h.after c (by rw [Nat.add_assoc, hright, hc])
  · intro h
    refine ⟨h.ne_nil, h.digit, fun i hi => ?_, fun i c hi hc => ?_, fun c hc => ?_⟩
    · rw [Nat.add_assoc, hright, h.getElem? i hi]
    · cases start with
      | zero =>
          obtain rfl : i = p.length := by omega
          rw [getElem?_append_separator, Option.some.injEq] at hc
          rwa [← hc]
      | succ start =>
          obtain rfl : i = p.length + 1 + start := by omega
          rw [hright] at hc
          exact h.before start c rfl hc
    · rw [Nat.add_assoc, hright] at hc
      exact h.after c hc

/-- A separator parts the maximal runs as well. -/
theorem maximalRun_append_separator (hb : isDigit b = false) :
    MaximalRun (p ++ b :: q) start run ↔ MaximalRun p start run ∨
      ∃ start', start = p.length + 1 + start' ∧ MaximalRun q start' run := by
  constructor
  · intro h
    rcases h.of_separator getElem?_append_separator hb with hlt | hle
    · obtain ⟨start', rfl⟩ := Nat.exists_eq_add_of_le (Nat.succ_le_of_lt hlt)
      exact .inr ⟨start', rfl, (maximalRun_append_right hb).1 h⟩
    · exact .inl ((maximalRun_append_left hb hle).1 h)
  · rintro (h | ⟨start', rfl, h⟩)
    · exact (maximalRun_append_left hb h.le_length).2 h
    · exact (maximalRun_append_right hb).2 h

/-! ## Runs in their order -/

/-- The maximal runs of a stream, each once, with the positions where they start. -/
structure MaximalRuns (bs : Bytes) (placed : List (Nat × Bytes)) : Prop where
  ascending : placed.Pairwise fun x y => x.1 < y.1
  mem_iff : ∀ start run, (start, run) ∈ placed ↔ MaximalRun bs start run

/-- Runs behind a part of a stream and the separator that ends it. -/
def shifted (before : Bytes) (placed : List (Nat × Bytes)) : List (Nat × Bytes) :=
  placed.map fun (start, run) => (before.length + 1 + start, run)

/-- The runs that do not reach to the end of the stream; what comes after them is a separator. -/
def closedOf (bs : Bytes) (placed : List (Nat × Bytes)) : List (Nat × Bytes) :=
  placed.filter fun (start, run) => start + run.length < bs.length

theorem mem_shifted {placed : List (Nat × Bytes)} : (start, run) ∈ shifted p placed ↔
    ∃ start', start = p.length + 1 + start' ∧ (start', run) ∈ placed := by
  simp only [shifted, List.mem_map, Prod.exists, Prod.mk.injEq]
  constructor
  · rintro ⟨start', _, hm, rfl, rfl⟩
    exact ⟨start', rfl, hm⟩
  · rintro ⟨start', rfl, hm⟩
    exact ⟨start', run, hm, rfl, rfl⟩

theorem map_shifted (placed : List (Nat × Bytes)) :
    (shifted p placed).map Prod.snd = placed.map Prod.snd := by
  rw [shifted, List.map_map]
  rfl

theorem closedOf_shifted (placed : List (Nat × Bytes)) :
    closedOf (p ++ b :: q) (shifted p placed) = shifted p (closedOf q placed) := by
  rw [closedOf, shifted, List.filter_map, closedOf, shifted]
  congr 1
  refine List.filter_congr fun placed _ => decide_eq_decide.2 ?_
  rw [List.length_append, List.length_cons]
  omega

theorem MaximalRuns.append_separator {placed placed' : List (Nat × Bytes)}
    (hp : MaximalRuns p placed) (hb : isDigit b = false) (hq : MaximalRuns q placed') :
    MaximalRuns (p ++ b :: q) (placed ++ shifted p placed') where
  ascending := by
    refine List.pairwise_append.2 ⟨hp.ascending, List.pairwise_map.2 ?_, ?_⟩
    · exact hq.ascending.imp fun h => Nat.add_lt_add_left h _
    · rintro ⟨start, run⟩ hm ⟨start', run'⟩ hm'
      obtain ⟨start', rfl, _⟩ := mem_shifted.1 hm'
      have hle := ((hp.mem_iff _ _).1 hm).le_length
      change start < p.length + 1 + start'
      omega
  mem_iff start run := by
    simp only [List.mem_append, mem_shifted, hp.mem_iff, hq.mem_iff,
      maximalRun_append_separator hb]

/-- The only maximal run of digits that nothing interrupts. -/
def stretch (run : Bytes) : List (Nat × Bytes) := if run.isEmpty then [] else [(0, run)]

theorem maximalRuns_stretch (hd : ∀ d ∈ run, isDigit d = true) : MaximalRuns run (stretch run) := by
  cases run with
  | nil =>
      refine ⟨.nil, fun start run => ?_⟩
      rw [maximalRun_of_digits hd]
      exact ⟨nofun, fun h => absurd rfl h.1⟩
  | cons d run =>
      refine ⟨List.pairwise_singleton _ _, fun start run' => ?_⟩
      rw [maximalRun_of_digits hd]
      simp [stretch]

theorem map_stretch (hd : ∀ d ∈ run, isDigit d = true) : (stretch run).map Prod.snd = runs run := by
  cases run with
  | nil => rfl
  | cons d run => exact (runs_eq_singleton (List.cons_ne_nil d run) hd).symm

theorem closedOf_stretch : closedOf run (stretch run) = [] := by
  cases run with
  | nil => rfl
  | cons d run => simp [closedOf, stretch]

theorem closedOf_of_maximalRuns {placed : List (Nat × Bytes)} (h : MaximalRuns p placed) :
    closedOf (p ++ b :: q) placed = placed := by
  refine List.filter_eq_self.2 ?_
  rintro ⟨start, run⟩ hm
  have hle := ((h.mem_iff _ _).1 hm).le_length
  simp only [List.length_append, List.length_cons, decide_eq_true_eq]
  omega

/-- The runs of a stream are its maximal runs, and those that a separator follows its closed ones. -/
theorem exists_maximalRuns (bs : Bytes) : ∃ placed, MaximalRuns bs placed ∧
    placed.map Prod.snd = runs bs ∧ (closedOf bs placed).map Prod.snd = closedRuns bs := by
  induction bs using stretch_induction with
  | last run hd =>
      refine ⟨_, maximalRuns_stretch hd, map_stretch hd, ?_⟩
      rw [closedOf_stretch, closedRuns_of_digits hd]
      rfl
  | parted run b bs hd hb ih =>
      obtain ⟨placed, hplaced, hruns, hclosed⟩ := ih
      have hrun := maximalRuns_stretch hd
      refine ⟨_, hrun.append_separator hb hplaced, ?_, ?_⟩
      · rw [List.map_append, map_shifted, map_stretch hd, hruns, runs_append_separator hb]
      · rw [closedOf, List.filter_append, ← closedOf, ← closedOf, closedOf_of_maximalRuns hrun,
          closedOf_shifted, List.map_append, map_shifted, map_stretch hd, hclosed,
          closedRuns_append_separator hb]

end FiniteReach.Numeral
