import FiniteReach.Proofs.First
import FiniteReach.Proofs.Numeral

/-!
# The digit runs of a stream

`Parted` lists the digit runs of a stream by its bytes, one after another: a separator is skipped, and
a run reaches to the next separator or to the end. Every stream is parted in one way only, and into
its `runs` (`runs_eq_iff`). So the numbers of a finished source are the values of its digit runs,
provided that all of them are in range (`Source.numbers_eq_iff`).
-/

namespace FiniteReach.Numeral

/-! ## Parting a stream -/

/-- The digit runs of a stream are these, and separators stand between any two of them. -/
inductive Parted : Bytes → List Bytes → Prop where
  | nil : Parted [] []
  | skip {b : UInt8} {bs : Bytes} {found : List Bytes} : isDigit b = false → Parted bs found →
      Parted (b :: bs) found
  | run {run : Bytes} {b : UInt8} {bs : Bytes} {found : List Bytes} : run ≠ [] →
      (∀ d ∈ run, isDigit d = true) → isDigit b = false → Parted bs found →
      Parted (run ++ b :: bs) (run :: found)
  | last {run : Bytes} : run ≠ [] → (∀ d ∈ run, isDigit d = true) → Parted run [run]

theorem Parted.runs_eq {bs : Bytes} {found : List Bytes} (h : Parted bs found) : runs bs = found := by
  induction h with
  | nil => rfl
  | skip hb _ ih => rw [runs_cons_separator hb, ih]
  | run hne hd hb _ ih =>
      rw [runs_append_separator hb, runs_eq_singleton hne hd, ih]
      rfl
  | last hne hd => exact runs_eq_singleton hne hd

/-- The digits at the start of a stream end it, or a separator ends them. -/
theorem exists_run (bs : Bytes) : ∃ run rest, bs = run ++ rest ∧ (∀ d ∈ run, isDigit d = true) ∧
    (rest = [] ∨ ∃ b tail, rest = b :: tail ∧ isDigit b = false) := by
  induction bs with
  | nil => exact ⟨[], [], rfl, nofun, Or.inl rfl⟩
  | cons b bs ih =>
      cases hb : isDigit b with
      | false => exact ⟨[], b :: bs, rfl, nofun, Or.inr ⟨b, bs, rfl, hb⟩⟩
      | true =>
          obtain ⟨run, rest, rfl, hd, hrest⟩ := ih
          refine ⟨b :: run, rest, rfl, fun d hm => ?_, hrest⟩
          rcases List.mem_cons.1 hm with rfl | hm
          · exact hb
          · exact hd d hm

/-- A stream is a stretch of digits, or such a stretch, a separator and another stream. -/
theorem stretch_induction {P : Bytes → Prop} (last : ∀ run, (∀ d ∈ run, isDigit d = true) → P run)
    (parted : ∀ run b bs, (∀ d ∈ run, isDigit d = true) → isDigit b = false → P bs →
      P (run ++ b :: bs)) (bs : Bytes) : P bs := by
  induction hlength : bs.length using Nat.strongRecOn generalizing bs with
  | ind length ih =>
      obtain ⟨run, rest, rfl, hd, hrest⟩ := exists_run bs
      rcases hrest with rfl | ⟨b, tail, rfl, hb⟩
      · rw [List.append_nil]
        exact last run hd
      · rw [List.length_append, List.length_cons] at hlength
        exact parted run b tail hd hb (ih tail.length (by omega) tail rfl)

theorem exists_parted (bs : Bytes) : ∃ found, Parted bs found := by
  induction bs using stretch_induction with
  | last run hd =>
      cases run with
      | nil => exact ⟨[], .nil⟩
      | cons d run => exact ⟨_, .last (List.cons_ne_nil d run) hd⟩
  | parted run b bs hd hb ih =>
      obtain ⟨found, hfound⟩ := ih
      cases run with
      | nil => exact ⟨found, .skip hb hfound⟩
      | cons d run => exact ⟨_, .run (List.cons_ne_nil d run) hd hb hfound⟩

theorem runs_eq_iff {bs : Bytes} {found : List Bytes} : runs bs = found ↔ Parted bs found := by
  constructor
  · rintro rfl
    obtain ⟨found, h⟩ := exists_parted bs
    rwa [h.runs_eq]
  · exact Parted.runs_eq

/-! ## Numbers -/

/-- The digit runs of a stream have these values, all of them in range. -/
def Denotes (bs : Bytes) (numbers : List Nat) : Prop :=
  ∃ found, Parted bs found ∧ (∀ run ∈ found, value run < limit) ∧ found.map value = numbers

theorem Denotes.lt {bs : Bytes} {numbers : List Nat} (h : Denotes bs numbers) {v : Nat}
    (hv : v ∈ numbers) : v < limit := by
  obtain ⟨found, _, hlt, rfl⟩ := h
  obtain ⟨run, hm, rfl⟩ := List.mem_map.1 hv
  exact hlt run hm

theorem ofRun_eq_ok {ε : Type} {fault : Bytes → ε} {run : Bytes} {v : Nat} :
    ofRun fault run = .ok v ↔ value run < limit ∧ value run = v := by
  rw [ofRun_eq]
  split
  · next h => simp only [Except.ok.injEq, h, true_and]
  · next h => simp only [reduceCtorEq, h, false_and]

theorem map_ofRun_eq_ok {ε : Type} {fault : Bytes → ε} {found : List Bytes} {numbers : List Nat} :
    found.map (ofRun fault) = numbers.map .ok ↔
      (∀ run ∈ found, value run < limit) ∧ found.map value = numbers := by
  induction found generalizing numbers with
  | nil => cases numbers <;> simp
  | cons run found ih =>
      cases numbers with
      | nil => simp
      | cons v numbers =>
          simp only [List.map_cons, List.cons.injEq, ofRun_eq_ok, ih, List.forall_mem_cons]
          exact and_and_and_comm

/-- The numbers before the first digit run that is too large are all in range. -/
theorem map_ofRun_of_firstAt {ε : Type} (fault : Bytes → ε) {found : List Bytes} {i : Nat}
    {run : Bytes} (h : FirstAt (fun run => limit ≤ value run) found i run) :
    ∃ before rest, found.map (ofRun fault) = List.map .ok before ++ .error (fault run) :: rest := by
  have hbefore : (found.take i).map (ofRun fault) = ((found.take i).map value).map .ok :=
    map_ofRun_eq_ok.2 ⟨fun run hm => Nat.lt_of_not_le (h.before run hm), rfl⟩
  have hrun : ofRun fault run = .error (fault run) := by
    rw [ofRun_eq, if_neg (Nat.not_lt.2 h.holds)]
  refine ⟨(found.take i).map value, (found.drop (i + 1)).map (ofRun fault), ?_⟩
  rw [← hbefore, ← hrun, ← List.map_cons, ← List.map_append, ← h.eq_append.1]

/-- All numbers, or the first digit run that is too large. -/
theorem collect_map_ofRun {ε : Type} (fault : Bytes → ε) (found : List Bytes) :
    collect (found.map (ofRun fault)) =
      match found.find? fun run => limit ≤ value run with
      | none => .ok (found.map value)
      | some run => .error (fault run) := by
  induction found with
  | nil => rfl
  | cons run found ih =>
      rw [List.map_cons, ofRun_eq]
      by_cases hlt : value run < limit
      · rw [if_pos hlt, collect_ok, ih, List.find?_cons_of_neg (by simpa using hlt)]
        cases found.find? fun run => limit ≤ value run with
        | none => rfl
        | some large => rfl
      · rw [if_neg hlt, List.find?_cons_of_pos (by simpa using hlt)]
        rfl

end FiniteReach.Numeral

namespace FiniteReach

theorem Source.numbers_eq_iff {bs : Bytes} {numbers : List Nat} :
    (Source.ofBytes bs).numbers = numbers.map .ok ↔ Numeral.Denotes bs numbers := by
  rw [Source.numbers, Source.ofBytes]
  simp only [Numeral.map_ofRun_eq_ok]
  constructor
  · rintro ⟨hlt, hvalues⟩
    exact ⟨_, Numeral.runs_eq_iff.1 rfl, hlt, hvalues⟩
  · rintro ⟨found, hparted, h⟩
    rwa [hparted.runs_eq]

end FiniteReach
