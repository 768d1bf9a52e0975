import FiniteReach.Proofs.Numeral
import FiniteReach.Proofs.Utf8
import FiniteReach.Word

/-!
# Words that are written and read

A printed word is read back. A text in two parts with something between them that has no digits is
read part by part, and so words can be put together as texts (`parse_toText_and_append`).
-/

namespace FiniteReach

namespace Numeral

/-- Any number of separators, but at least one, part the runs of a stream. -/
theorem runs_append_gap {gap : Bytes} (hne : gap ≠ []) (h : ∀ b ∈ gap, isDigit b = false)
    (before after : Bytes) : runs (before ++ gap ++ after) = runs before ++ runs after := by
  cases gap with
  | nil => exact absurd rfl hne
  | cons b gap =>
      obtain ⟨hb, hgap⟩ := List.forall_mem_cons.1 h
      rw [List.append_assoc, List.cons_append, runs_append_separator hb,
        runs_append_of_separators hgap]

end Numeral

namespace Word

open Numeral

theorem parse_of_runs {text : String} {w : Word} (h : runs (Text.utf8 text) = w.map digits)
    (hw : ∀ s ∈ w, s < limit) : parse text = .ok w := by
  rw [parse, collect_eq_ok, h, List.map_map]
  exact List.map_congr_left fun s hs => ofRun_digits (hw s hs)

theorem runs_toText (w : Word) : runs (Text.utf8 w.toText) = w.map digits := by
  cases w with
  | nil => rfl
  | cons s w =>
      have hgap : Text.utf8 " " = [32] := by rfl
      have hparts : ((s :: w).map toString).map Text.utf8 = (s :: w).map digits := by
        rw [List.map_map]
        exact List.map_congr_left fun s _ => Text.utf8_toString s
      rw [toText, List.isEmpty_cons, if_neg Bool.false_ne_true, Text.utf8_intercalate, hgap, hparts,
        runs_intercalate]

theorem parse_append (before after : String) {gap : String} (hne : gap ≠ "")
    (h : ∀ c ∈ gap.toList, c.isDigit = false) :
    parse (before ++ gap ++ after) = do
      let u ← parse before
      let v ← parse after
      return u ++ v := by
  have hdigits : ∀ b ∈ Text.utf8 gap, isDigit b = false := by
    refine fun b hb => Bool.eq_false_iff.2 fun hdigit => ?_
    obtain ⟨c, hc, hchar⟩ := Text.isDigit_of_mem_utf8 hb hdigit
    exact Bool.false_ne_true ((h c hc).symm.trans hchar)
  rw [parse, Text.utf8_append, Text.utf8_append, runs_append_gap (Text.utf8_ne_nil hne) hdigits,
    List.map_append, collect_append]
  rfl

/-- A word is read from its text. A text with no digits in the middle gives what comes before the
middle and what comes after it, one behind the other, or the first error of the two. -/
theorem parse_toText_and_append :
    (∀ w : Word, (∀ s ∈ w, s < limit) → parse w.toText = .ok w) ∧
      ∀ before gap after : String, gap ≠ "" → (∀ c ∈ gap.toList, c.isDigit = false) →
        parse (before ++ gap ++ after) = do
          let u ← parse before
          let v ← parse after
          return u ++ v :=
  ⟨fun w hw => parse_of_runs w.runs_toText hw, fun before _ after hne h =>
    parse_append before after hne h⟩

/-- The largest symbol is read back, and an arrow separates like any other character. -/
theorem parse_arrow : (∀ s ∈ [18446744073709551615, 0], s < limit) ∧
    parse (toText [18446744073709551615, 0]) = .ok [18446744073709551615, 0] ∧
      "→" ≠ "" ∧ (∀ c ∈ "→".toList, c.isDigit = false) ∧
        parse ("δ1" ++ "→" ++ "2 ε") = .ok [1, 2] := by
  have hlt : ∀ s ∈ [18446744073709551615, 0], s < limit := by simp [limit]
  have hne : "→" ≠ "" := by decide
  have hdigits : ∀ c ∈ "→".toList, c.isDigit = false := by
    intro c hc
    obtain rfl := List.mem_singleton.1 hc
    rfl
  refine ⟨hlt, parse_toText_and_append.1 _ hlt, hne, hdigits, ?_⟩
  rw [parse_toText_and_append.2 "δ1" "→" "2 ε" hne hdigits]
  rfl

end Word

end FiniteReach
