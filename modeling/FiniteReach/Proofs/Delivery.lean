import FiniteReach.Proofs.MaximalRuns
import FiniteReach.Word
import Mathlib.Data.List.Induction
import Mathlib.Data.Nat.Digits.Defs

/-!
# Numbers taken one after another

`Source.next?` takes one number off a source. Taken until the source has ended or failed, they are
its numbers (`Source.delivers_iff`). So one is delivered for each maximal digit run of a finished
stream, in the order of the runs, and the first of them that is too large is what keeps a text from
being a word (`delivers_maximalRuns`).
-/

namespace FiniteReach

/-! ## The next number -/

namespace Numeral

variable {before run bs : Bytes} {b : UInt8}

theorem scan_cons_separator (hb : isDigit b = false) : scan [] (b :: bs) = scan [] bs := by
  rw [scan, hb]
  rfl

theorem scan_append_separator (hd : ∀ d ∈ run, isDigit d = true) (hb : isDigit b = false)
    (hne : before ++ run ≠ []) : scan before (run ++ b :: bs) = (before ++ run, some bs) := by
  induction run generalizing before with
  | nil =>
      rw [List.append_nil] at hne
      rw [List.nil_append, scan, hb, List.isEmpty_eq_false_iff.2 hne, List.append_nil]
      rfl
  | cons d run ih =>
      obtain ⟨hdigit, hd⟩ := List.forall_mem_cons.1 hd
      have hsplit : before ++ d :: run = before ++ [d] ++ run := by
        rw [List.append_assoc, List.singleton_append]
      rw [List.cons_append, scan, if_pos hdigit, hsplit]
      exact ih hd (hsplit ▸ hne)

theorem scan_of_digits (hd : ∀ d ∈ run, isDigit d = true) :
    scan before run = (before ++ run, none) := by
  induction run generalizing before with
  | nil => rw [scan, List.append_nil]
  | cons d run ih =>
      obtain ⟨hdigit, hd⟩ := List.forall_mem_cons.1 hd
      rw [scan, if_pos hdigit, ih hd, List.append_assoc, List.singleton_append]

end Numeral

namespace Source

open Numeral

variable {run bs : Bytes} {b : UInt8} {failure : Option IoFault} {cause : IoFault}

theorem next?_cons_separator (hb : isDigit b = false) :
    next? ⟨b :: bs, failure⟩ = next? ⟨bs, failure⟩ := by
  rw [next?, next?, scan_cons_separator hb]

theorem next?_run (hne : run ≠ []) (hd : ∀ d ∈ run, isDigit d = true) (hb : isDigit b = false) :
    next? ⟨run ++ b :: bs, failure⟩ = some (ofRun .tooLarge run, ⟨bs, failure⟩) := by
  rw [next?, scan_append_separator hd hb ((List.nil_append run).symm ▸ hne), List.nil_append]

theorem next?_ended (hne : run ≠ []) (hd : ∀ d ∈ run, isDigit d = true) :
    next? ⟨run, none⟩ = some (ofRun .tooLarge run, ⟨[], none⟩) := by
  rw [next?, scan_of_digits hd, List.nil_append]
  exact if_neg (by simp [hne])

theorem next?_failed (hd : ∀ d ∈ run, isDigit d = true) :
    next? ⟨run, some cause⟩ = some (.error (.unread cause), ⟨[], some cause⟩) := by
  rw [next?, scan_of_digits hd]

/-! ## All numbers -/

theorem numbers_failing (bs : Bytes) (cause : IoFault) : numbers ⟨bs, some cause⟩ =
    (closedRuns bs).map (ofRun .tooLarge) ++ [.error (.unread cause)] := rfl

theorem numbers_append_separator (hb : isDigit b = false) (before : Bytes) :
    numbers ⟨before ++ b :: bs, failure⟩ =
      (runs before).map (ofRun .tooLarge) ++ numbers ⟨bs, failure⟩ := by
  cases failure with
  | none => simp only [numbers, runs_append_separator hb, List.map_append]
  | some cause =>
      simp only [numbers, closedRuns_append_separator hb, List.map_append, List.append_assoc]

/-- What is delivered until there is no next number, or until the source fails. -/
inductive Delivers : Source → List (Except NumberFault Nat) → Prop where
  | ended {src : Source} : src.next? = none → Delivers src []
  | failed {src rest : Source} {cause : IoFault} :
      src.next? = some (.error (.unread cause), rest) → Delivers src [.error (.unread cause)]
  | more {src rest : Source} {item : Except NumberFault Nat}
      {items : List (Except NumberFault Nat)} : src.next? = some (item, rest) →
      (∀ cause, item ≠ .error (.unread cause)) → Delivers rest items → Delivers src (item :: items)

theorem Delivers.unique {src : Source} {items items' : List (Except NumberFault Nat)}
    (h : src.Delivers items) (h' : src.Delivers items') : items = items' := by
  induction h generalizing items' with
  | ended hnext =>
      cases h' with
      | ended => rfl
      | failed hnext' | more hnext' => cases hnext.symm.trans hnext'
  | failed hnext =>
      cases h' with
      | ended hnext' => cases hnext.symm.trans hnext'
      | failed hnext' =>
          cases hnext.symm.trans hnext'
          rfl
      | more hnext' hitem =>
          cases hnext.symm.trans hnext'
          exact absurd rfl (hitem _)
  | more hnext hitem _ ih =>
      cases h' with
      | ended hnext' => cases hnext.symm.trans hnext'
      | failed hnext' =>
          cases hnext.symm.trans hnext'
          exact absurd rfl (hitem _)
      | more hnext' _ hrest =>
          cases hnext.symm.trans hnext'
          rw [ih hrest]

/-- What is delivered depends on nothing but what is next. -/
theorem Delivers.congr {src src' : Source} {items : List (Except NumberFault Nat)}
    (h : src'.Delivers items) (hnext : src.next? = src'.next?) : src.Delivers items := by
  cases h with
  | ended hended => exact .ended (hnext.trans hended)
  | failed hfailed => exact .failed (hnext.trans hfailed)
  | more hmore hitem hrest => exact .more (hnext.trans hmore) hitem hrest

theorem ofRun_ne_unread (run : Bytes) (cause : IoFault) :
    ofRun NumberFault.tooLarge run ≠ .error (.unread cause) := by
  rw [ofRun_eq]
  split <;> simp

theorem delivers_numbers (bs : Bytes) (failure : Option IoFault) :
    Delivers ⟨bs, failure⟩ (numbers ⟨bs, failure⟩) := by
  induction bs using stretch_induction with
  | last run hd =>
      cases failure with
      | none =>
          by_cases hne : run = []
          · subst hne
            exact .ended rfl
          · rw [numbers, runs_eq_singleton hne hd]
            exact .more (next?_ended hne hd) (ofRun_ne_unread run) (.ended rfl)
      | some cause =>
          rw [numbers_failing, closedRuns_of_digits hd]
          exact .failed (next?_failed hd)
  | parted run b bs hd hb ih =>
      rw [numbers_append_separator hb]
      by_cases hne : run = []
      · subst hne
        exact ih.congr (next?_cons_separator hb)
      · rw [runs_eq_singleton hne hd]
        exact .more (next?_run hne hd hb) (ofRun_ne_unread run) ih

/-- The numbers of a source are what it delivers. -/
theorem delivers_iff {src : Source} {items : List (Except NumberFault Nat)} :
    src.Delivers items ↔ items = src.numbers := by
  have hnumbers : src.Delivers src.numbers := delivers_numbers src.bytes src.failure
  constructor
  · exact fun h => h.unique hnumbers
  · rintro rfl
    exact hnumbers

end Source

/-! ## The numbers of a finished stream -/

namespace Numeral

/-- The number that decimal digits make, the first of them being the most significant one. -/
def decimal (run : Bytes) : Nat := Nat.ofDigits 10 (run.reverse.map fun d => d.toNat - 48)

theorem value_eq_decimal (run : Bytes) : value run = decimal run := by
  induction run using List.reverseRecOn with
  | nil => rfl
  | append_singleton run d ih =>
      rw [value_append_singleton, ih, decimal, decimal, List.reverse_append, List.reverse_singleton,
        List.singleton_append, List.map_cons, Nat.ofDigits_cons, Nat.add_comm]

/-- The numbers of a finished stream are the decimal values of its maximal digit runs, one for each
of them and in their order, and an error with the whole run where the value is too large. A text is a
word of these numbers unless one of its runs is too large, and then the first such run is reported. -/
theorem delivers_maximalRuns (bs : Bytes) : ∃ placed, MaximalRuns bs placed ∧
    (∀ items, (Source.ofBytes bs).Delivers items ↔ items = placed.map fun (_, run) =>
      if decimal run < limit then .ok (decimal run) else .error (.tooLarge run)) ∧
    ∀ text, Text.utf8 text = bs → Word.parse text =
      match (placed.map Prod.snd).find? fun run => limit ≤ decimal run with
      | none => .ok (placed.map fun (_, run) => decimal run)
      | some run => .error (.tooLarge run) := by
  obtain ⟨placed, hplaced, hruns, _⟩ := exists_maximalRuns bs
  simp only [← value_eq_decimal]
  refine ⟨placed, hplaced, fun items => ?_, ?_⟩
  · have hnumbers : (Source.ofBytes bs).numbers = placed.map fun (_, run) =>
        if value run < limit then .ok (value run) else .error (.tooLarge run) := by
      simp only [← ofRun_eq]
      rw [Source.numbers, Source.ofBytes, ← hruns, List.map_map]
      rfl
    rw [Source.delivers_iff, hnumbers]
  · rintro text rfl
    rw [Word.parse, ← hruns, collect_map_ofRun, List.map_map]
    rfl

end Numeral

end FiniteReach
