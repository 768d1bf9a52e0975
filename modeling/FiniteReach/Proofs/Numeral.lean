import FiniteReach.Description.Printer
import FiniteReach.Numeral.Stream

/-!
# Numerals that are written and read

The numeral of a number has its value, and a stream that was written line by line has the written
numbers. All that is known of the runs of a stream comes from one equation: a separator parts them.
-/

namespace FiniteReach.Numeral

/-! ## Digits -/

theorem toNat_digit {d : Nat} (hd : d < 10) : (UInt8.ofNat (48 + d)).toNat = 48 + d :=
  UInt8.toNat_ofNat_of_lt' (show 48 + d < 256 by omega)

theorem isDigit_digit {d : Nat} (hd : d < 10) : isDigit (UInt8.ofNat (48 + d)) = true := by
  simp only [isDigit, Bool.and_eq_true, decide_eq_true_eq, UInt8.le_iff_toNat_le, toNat_digit hd]
  exact ⟨Nat.le_add_right 48 d, Nat.add_le_add_left (Nat.le_of_lt_succ hd) 48⟩

theorem digits_append_digit {n d : Nat} (hn : 0 < n) (hd : d < 10) :
    digits (10 * n + d) = digits n ++ [UInt8.ofNat (48 + d)] := by
  rw [← digits_of_lt hd, digits, digits, digits, ← Nat.toDigits_append_toDigits (by decide) hn hd,
    List.map_append]

theorem digits_ne_nil (n : Nat) : digits n ≠ [] :=
  mt List.map_eq_nil_iff.1 Nat.toDigits_ne_nil

/-- A numeral starts with a zero only if it is that of zero. -/
theorem exists_digits_eq_cons (n : Nat) : ∃ d run, digits n = d :: run ∧ (d = 48 → n = 0) := by
  induction n using Nat.base_induction 10 (by decide) with
  | single d hd =>
      refine ⟨_, [], digits_of_lt hd, fun h => ?_⟩
      have hnat := toNat_digit hd
      rw [h] at hnat
      exact Nat.add_left_cancel hnat.symm
  | digit n d hd hn ih =>
      obtain ⟨first, run, hrun, hzero⟩ := ih
      refine ⟨first, run ++ [UInt8.ofNat (48 + d)], ?_, fun h => absurd (hzero h) (Nat.ne_of_gt hn)⟩
      rw [digits_append_digit hn hd, hrun]
      rfl

theorem isDigit_of_mem_digits {n : Nat} {b : UInt8} (h : b ∈ digits n) : isDigit b = true := by
  induction n using Nat.base_induction 10 (by decide) with
  | single d hd =>
      rw [digits_of_lt hd, List.mem_singleton] at h
      exact h ▸ isDigit_digit hd
  | digit n d hd hn ih =>
      rw [digits_append_digit hn hd, List.mem_append, List.mem_singleton] at h
      rcases h with h | rfl
      · exact ih h
      · exact isDigit_digit hd

theorem value_digits (n : Nat) : value (digits n) = n := by
  induction n using Nat.base_induction 10 (by decide) with
  | single d hd =>
      rw [digits_of_lt hd, ← List.nil_append [_], value_append_singleton, toNat_digit hd, value_nil]
      omega
  | digit n d hd hn ih =>
      rw [digits_append_digit hn hd, value_append_singleton, ih, toNat_digit hd]
      omega

theorem ofRun_digits {ε : Type} {fault : Bytes → ε} {n : Nat} (h : n < limit) :
    ofRun fault (digits n) = .ok n := by
  rw [ofRun_eq, value_digits, if_pos h]

/-! ## Runs -/

theorem stretches_append_separator {b : UInt8} (hb : isDigit b = false) (before after : Bytes) :
    stretches (before ++ b :: after) = stretches before ++ stretches after :=
  List.splitOnP_append_cons before after (by rw [hb]; rfl)

theorem runs_append_separator {b : UInt8} (hb : isDigit b = false) (before after : Bytes) :
    runs (before ++ b :: after) = runs before ++ runs after := by
  rw [runs, stretches_append_separator hb, List.filter_append, ← runs, ← runs]

theorem runs_cons_separator {b : UInt8} (hb : isDigit b = false) (after : Bytes) :
    runs (b :: after) = runs after := runs_append_separator hb [] after

theorem runs_append_of_separators {before : Bytes} (h : ∀ b ∈ before, isDigit b = false)
    (after : Bytes) : runs (before ++ after) = runs after := by
  induction before with
  | nil => rfl
  | cons b before ih =>
      obtain ⟨hb, hbefore⟩ := List.forall_mem_cons.1 h
      rw [List.cons_append, runs_cons_separator hb, ih hbefore]

theorem stretches_of_digits {run : Bytes} (h : ∀ b ∈ run, isDigit b = true) :
    stretches run = [run] :=
  List.splitOnP_eq_singleton fun b hb => by rw [h b hb]; rfl

theorem runs_eq_singleton {run : Bytes} (hne : run ≠ []) (h : ∀ b ∈ run, isDigit b = true) :
    runs run = [run] := by
  rw [runs, stretches_of_digits h,
    List.filter_cons_of_pos (by rw [List.isEmpty_eq_false_iff.2 hne]; rfl), List.filter_nil]

/-- The last stretch of a stream is not closed. -/
theorem closedRuns_append_separator {b : UInt8} (hb : isDigit b = false) (before after : Bytes) :
    closedRuns (before ++ b :: after) = runs before ++ closedRuns after := by
  have hne : stretches after ≠ [] := List.splitOnP_ne_nil _ after
  rw [closedRuns, stretches_append_separator hb, List.dropLast_append_of_ne_nil hne,
    List.filter_append, ← runs, ← closedRuns]

theorem closedRuns_of_digits {run : Bytes} (h : ∀ b ∈ run, isDigit b = true) :
    closedRuns run = [] := by
  rw [closedRuns, stretches_of_digits h]
  rfl

theorem runs_digits (n : Nat) : runs (digits n) = [digits n] :=
  runs_eq_singleton (digits_ne_nil n) fun _ => isDigit_of_mem_digits

theorem runs_intercalate (numbers : List Nat) :
    runs ([32].intercalate (numbers.map digits)) = numbers.map digits := by
  induction numbers with
  | nil => rfl
  | cons n numbers ih =>
      cases numbers with
      | nil => rw [List.map_singleton, List.intercalate_singleton, runs_digits]
      | cons m numbers =>
          rw [List.map_cons, List.map_cons, List.intercalate_cons_cons, ← List.map_cons,
            List.append_assoc, List.singleton_append, runs_append_separator (by rfl), ih,
            runs_digits]
          rfl

theorem runs_line_append (numbers : List Nat) (rest : Bytes) :
    runs (Description.line numbers ++ rest) = numbers.map digits ++ runs rest := by
  rw [Description.line, List.append_assoc, List.singleton_append,
    runs_append_separator (by rfl), runs_intercalate]

theorem runs_lines (rows : List (List Nat)) :
    runs (rows.map Description.line).flatten = rows.flatten.map digits := by
  induction rows with
  | nil => rfl
  | cons row rows ih =>
      rw [List.map_cons, List.flatten_cons, runs_line_append, ih, List.flatten_cons,
        List.map_append]

end FiniteReach.Numeral

namespace FiniteReach

/-- What was written line by line is read number by number. -/
theorem Source.numbers_lines {rows : List (List Nat)} (h : ∀ n ∈ rows.flatten, n < limit) :
    (Source.ofBytes (rows.map Description.line).flatten).numbers = rows.flatten.map .ok := by
  rw [Source.numbers, Source.ofBytes]
  simp only [Numeral.runs_lines, List.map_map]
  exact List.map_congr_left fun n hn => Numeral.ofRun_digits (h n hn)

end FiniteReach
