import FiniteReach.Proofs.Binary
import FiniteReach.Proofs.Construction
import FiniteReach.Proofs.DigitRuns
import FiniteReach.Proofs.Json.Extension
import FiniteReach.Proofs.Json.Record
import FiniteReach.Proofs.Printer

/-!
# Stored automata that are cut off

No part of a stored automaton is read as an automaton. Binary forms are prefix-free. A JSON text that
could be read to its end could be read to the same place in every longer one. The numbers of a cut
description are those of the whole one, as many as are left, except that the last one may have lost
digits (`Cut`); that leaves its header as it is or makes it incomplete.
-/

namespace FiniteReach

/-! ## Binary forms -/

theorem Binary.eq_of_printRecord_append {r r' : Record} (h : r.InRange) (h' : r'.InRange)
    {s t : Bytes} (heq : printRecord r ++ s = printRecord r' ++ t) : r = r' ∧ s = t := by
  have hr := (exact_readFields r (.ofBytes (printRecord r ++ s)) (.ofBytes s)).2 ⟨h, rfl⟩
  have hr' := (exact_readFields r' (.ofBytes (printRecord r' ++ t)) (.ofBytes t)).2 ⟨h', rfl⟩
  rw [heq, hr'] at hr
  cases hr
  exact ⟨rfl, rfl⟩

theorem Binary.exists_readRecord_eq_error {r : Record} (h : r.InRange) {p : Bytes}
    (hp : p <+: printRecord r) (hne : p ≠ printRecord r) :
    ∃ cause, readRecord (.ofBytes p) = .error cause := by
  cases hread : readRecord (.ofBytes p) with
  | error cause => exact ⟨cause, rfl⟩
  | ok r' =>
      obtain ⟨hr', t, ht⟩ := readRecord_eq_ok.1 hread
      obtain ⟨more, hmore⟩ := hp
      have ht : p = printRecord r' ++ t := ht
      have heq : printRecord r' ++ (t ++ more) = printRecord r ++ [] := by
        rw [List.append_nil, ← hmore, ht, List.append_assoc]
      obtain ⟨rfl, hnil⟩ := eq_of_printRecord_append hr' h heq
      rw [(List.append_eq_nil_iff.1 hnil).1, List.append_nil] at ht
      exact absurd ht hne

/-! ## JSON texts -/

namespace Json

open Reader

theorem extends_fill {field : Field Draft} (h : field ∈ recordShape.fields) (draft : Draft) :
    Extends (field.fill draft) (field.fill draft) := by
  have hindex : Extends index index := .natural "usize"
  simp only [recordShape, List.mem_cons, List.not_mem_nil, or_false] at h
  rcases h with rfl | rfl | rfl | rfl
  · exact hindex.bind fun _ => .pure _
  · exact hindex.bind fun _ => .pure _
  · exact hindex.list.bind fun _ => .pure _
  · exact hindex.list.list.bind fun _ => .pure _

theorem bytes_ne_nil_of_skipBlanks {b : UInt8} {src rest : Source}
    (h : skipBlanks src = .ok (some b, rest)) : rest.bytes ≠ [] := by
  rw [skipBlanks] at h
  cases hbytes : src.bytes.dropWhile isBlank with
  | nil =>
      rw [hbytes] at h
      cases hfailure : src.failure with
      | none => rw [hfailure] at h; cases h
      | some cause => rw [hfailure] at h; cases h
  | cons b' bytes =>
      rw [hbytes] at h
      cases h
      exact List.cons_ne_nil b bytes

theorem bytes_ne_nil_of_objectGoesOn {first : Bool} {src rest : Source}
    (h : objectGoesOn first src = .ok (false, rest)) : rest.bytes ≠ [] := by
  obtain ⟨after, mid, hafter, h⟩ := run_bind_eq_ok.1 h
  cases after with
  | none => cases h
  | some b =>
      simp only at h
      split at h
      · cases h
        exact bytes_ne_nil_of_skipBlanks hafter
      · split at h
        · split at h <;> cases h
        · split at h
          · obtain ⟨_, _, _, h⟩ := run_bind_eq_ok.1 h
            obtain ⟨after, _, _, h⟩ := run_bind_eq_ok.1 h
            cases after with
            | none => cases h
            | some b' =>
                simp only at h
                split at h
                · cases h
                · split at h <;> cases h
          · cases h

theorem bytes_ne_nil_of_entries {σ : Type} {fields : List (Field σ)} {first : Bool}
    {record filled : σ} {r : Rounds} {src rest : Source}
    (h : entries fields first record r src = .ok (filled, rest)) : rest.bytes ≠ [] := by
  induction r generalizing first record src with
  | nil => cases h
  | cons _ r ih =>
      obtain ⟨goesOn, mid, hgoesOn, h⟩ := run_bind_eq_ok.1 h
      cases goesOn with
      | false =>
          cases h
          exact bytes_ne_nil_of_objectGoesOn hgoesOn
      | true =>
          obtain ⟨_, _, _, h⟩ := run_bind_eq_ok.1 h
          obtain ⟨key, _, _, h⟩ := run_bind_eq_ok.1 h
          cases hfield : fields.find? (·.name = key) with
          | none =>
              rw [hfield] at h
              obtain ⟨_, _, _, h⟩ := run_bind_eq_ok.1 h
              obtain ⟨_, _, _, h⟩ := run_bind_eq_ok.1 h
              exact ih h
          | some field =>
              rw [hfield] at h
              simp only at h
              split at h
              · cases h
              · obtain ⟨_, _, _, h⟩ := run_bind_eq_ok.1 h
                obtain ⟨_, _, _, h⟩ := run_bind_eq_ok.1 h
                exact ih h

theorem exists_entries_of_record {σ : Type} {shape : Shape σ} {blank filled : σ} {bs : Bytes}
    {rest : Source} (h : Reader.record shape blank (.ofBytes (123 :: bs)) = .ok (filled, rest)) :
    ∃ mid, entries shape.fields true blank (0 :: bs) (.ofBytes bs) = .ok (filled, mid) := by
  have hstart : start (.ofBytes (123 :: bs)) = .ok (123, .ofBytes (123 :: bs)) :=
    start_append (List.forall_mem_nil _) rfl
  have hdrop : drop (.ofBytes (123 :: bs)) = .ok ((), .ofBytes bs) := drop_cons 123
  rw [Reader.record, run_bind_of_ok hstart, if_neg (by decide), if_pos rfl,
    run_bind_of_ok hdrop, run_bind_of_ok (x := rounds) rfl] at h
  obtain ⟨_, mid, hentries, h⟩ := run_bind_eq_ok.1 h
  cases h
  exact ⟨mid, hentries⟩

theorem eq_nil_of_entries {r : Record} (h : r.InRange) {p more : Bytes}
    (hmore : p ++ more = fieldBytes r) {draft : Draft} {mid : Source}
    (hentries : entries recordShape.fields true {} (0 :: p) (.ofBytes p) = .ok (draft, mid)) :
    more = [] := by
  have hmid := bytes_ne_nil_of_entries hentries
  -- On the whole text the entries stop at the same place, and there is but the closing brace left.
  have hlonger := (Extends.entries (fun _ => extends_fill) true {} (0 :: p) more _ _ _
    hentries).2 hmid more none
  have hprinted := entries_printed h [] none
  rw [List.append_nil, ← hmore] at hprinted
  have hrest := hlonger.symm.trans hprinted
  simp only [Except.ok.injEq, Prod.mk.injEq, Source.mk.injEq, and_true] at hrest
  rcases List.append_eq_singleton_iff.1 hrest.2 with ⟨hnil, _⟩ | ⟨_, hnil⟩
  · exact absurd hnil hmid
  · exact hnil

theorem exists_readRecord_eq_error {r : Record} (h : r.InRange) {p : Bytes}
    (hp : p <+: (recordPieces r).flatten) (hne : p ≠ (recordPieces r).flatten) :
    ∃ cause, readRecord (.ofBytes p) = .error cause := by
  cases hread : readRecord (.ofBytes p) with
  | error cause => exact ⟨cause, rfl⟩
  | ok r' =>
      obtain ⟨⟨_, rest⟩, hrecord, _⟩ := bind_eq_ok.1 hread
      obtain ⟨draft, _, hdraft, _⟩ := run_bind_eq_ok.1 hrecord
      rw [flatten_recordPieces] at hp hne
      cases p with
      | nil => cases hdraft
      | cons b p =>
          obtain ⟨rfl, more, hmore⟩ := List.cons_prefix_cons.1 hp
          obtain ⟨mid, hentries⟩ := exists_entries_of_record hdraft
          rw [eq_nil_of_entries h hmore hentries, List.append_nil] at hmore
          exact absurd (congrArg (123 :: ·) hmore) hne

end Json

/-! ## Descriptions -/

namespace Numeral

/-- The numbers that are left of `whole` when the digits are cut off somewhere. The last one may
have lost digits. -/
inductive Cut : (whole found : List Nat) → Prop where
  | nil {whole : List Nat} : Cut whole []
  | within {n found : Nat} {whole : List Nat} : found ≤ n → (found = 0 → n = 0) →
      Cut (n :: whole) [found]
  | cons {n : Nat} {whole found : List Nat} : Cut whole found → Cut (n :: whole) (n :: found)

theorem Cut.append {whole found : List Nat} (h : Cut whole found) (numbers : List Nat) :
    Cut (numbers ++ whole) (numbers ++ found) := by
  induction numbers with
  | nil => exact h
  | cons n numbers ih => exact .cons ih

theorem Cut.lt {whole found : List Nat} (h : Cut whole found) {bound : Nat}
    (hwhole : ∀ n ∈ whole, n < bound) : ∀ n ∈ found, n < bound := by
  induction h with
  | nil => nofun
  | within hle _ =>
      intro n hn
      cases List.mem_singleton.1 hn
      exact Nat.lt_of_le_of_lt hle (hwhole _ List.mem_cons_self)
  | cons _ ih =>
      obtain ⟨hn, hwhole⟩ := List.forall_mem_cons.1 hwhole
      exact List.forall_mem_cons.2 ⟨hn, ih hwhole⟩

/-- Some of the digits of a number, the first one among them. -/
theorem value_of_digits_eq {n : Nat} {part lost : Bytes} (hne : part ≠ [])
    (h : digits n = part ++ lost) : value part ≤ n ∧ (value part = 0 → n = 0) := by
  constructor
  · have hle := le_foldl_append lost (value part)
    rw [value, ← List.foldl_append, ← h] at hle
    exact Nat.le_trans hle (Nat.le_of_eq (value_digits n))
  · intro hzero
    obtain ⟨d, run, hdigits, hfirst⟩ := exists_digits_eq_cons n
    cases part with
    | nil => exact absurd rfl hne
    | cons b part =>
        cases (List.cons.inj (hdigits.symm.trans h)).1
        have hle : append 0 d ≤ value (d :: part) := le_foldl_append part (append 0 d)
        have hd : isDigit d = true := isDigit_of_mem_digits (hdigits ▸ List.mem_cons_self)
        simp only [isDigit, Bool.and_eq_true, decide_eq_true_eq, UInt8.le_iff_toNat_le] at hd
        have hsmall : d.toNat ≤ 48 := by
          rw [hzero, append] at hle
          omega
        exact hfirst (UInt8.toNat_inj.1 (Nat.le_antisymm hsmall hd.1))

/-- All that more bytes can change is the run at the end. -/
theorem exists_runs_append (p : Bytes) : ∃ before run, (∀ d ∈ run, isDigit d = true) ∧
    ∀ more, runs (p ++ more) = before ++ runs (run ++ more) := by
  induction p using List.reverseRecOn with
  | nil => exact ⟨[], [], nofun, fun _ => rfl⟩
  | append_singleton p b ih =>
      cases hb : isDigit b with
      | false =>
          refine ⟨runs p, [], nofun, fun more => ?_⟩
          rw [List.append_assoc, List.singleton_append, runs_append_separator hb, List.nil_append]
      | true =>
          obtain ⟨before, run, hrun, hbefore⟩ := ih
          refine ⟨before, run ++ [b], ?_, fun more => ?_⟩
          · simp only [List.forall_mem_append, List.forall_mem_singleton]
            exact ⟨hrun, hb⟩
          · rw [List.append_assoc, hbefore, List.append_assoc]

theorem exists_runs_run_append {run : Bytes} (hne : run ≠ []) (hrun : ∀ d ∈ run, isDigit d = true)
    (more : Bytes) : ∃ lost rest, runs (run ++ more) = (run ++ lost) :: rest := by
  obtain ⟨lost, rest, rfl, hlost, hrest⟩ := exists_run more
  have hdigits : ∀ d ∈ run ++ lost, isDigit d = true := List.forall_mem_append.2 ⟨hrun, hlost⟩
  have hgrown : runs (run ++ lost) = [run ++ lost] :=
    runs_eq_singleton (List.append_ne_nil_of_left_ne_nil hne lost) hdigits
  rcases hrest with rfl | ⟨b, tail, rfl, hb⟩
  · exact ⟨lost, [], by rw [List.append_nil, hgrown]⟩
  · exact ⟨lost, runs tail, by rw [← List.append_assoc, runs_append_separator hb, hgrown]; rfl⟩

theorem cut_of_runs {p more : Bytes} {numbers : List Nat}
    (h : runs (p ++ more) = numbers.map digits) : Cut numbers ((runs p).map value) := by
  obtain ⟨before, run, hrun, hbefore⟩ := exists_runs_append p
  have hp : runs p = before ++ runs run := by
    have hnil := hbefore []
    rwa [List.append_nil, List.append_nil] at hnil
  rw [hbefore] at h
  obtain ⟨numbers, whole, rfl, hnumbers, hwhole⟩ := List.append_eq_map_iff.1 h
  have hvalues : before.map value = numbers := by
    rw [← hnumbers, List.map_map]
    exact List.map_id'' value_digits numbers
  rw [hp, List.map_append, hvalues]
  refine Cut.append ?_ numbers
  by_cases hne : run = []
  · rw [hne]
    exact .nil
  · obtain ⟨lost, rest, hgrown⟩ := exists_runs_run_append hne hrun more
    rw [runs_eq_singleton hne hrun]
    cases whole with
    | nil => cases hwhole.trans hgrown
    | cons n whole =>
        obtain ⟨hdigits, _⟩ := List.cons.inj (hwhole.trans hgrown)
        obtain ⟨hle, hzero⟩ := value_of_digits_eq hne hdigits
        exact .within hle hzero

end Numeral

namespace Description

variable {path : Option String} {A : Automaton}

/-- What is left of a header says how large the table is and how many final states there are. -/
theorem eq_of_cut {header found : Header} {flat rest : List Nat}
    (h : Numeral.Cut (header.numbers ++ flat) (found.numbers ++ rest)) :
    found.alphabetSize = header.alphabetSize ∧ found.stateCount = header.stateCount ∧
      found.finals.length = header.finals.length := by
  obtain ⟨k, n, q, finals⟩ := header
  obtain ⟨k', n', q', finals'⟩ := found
  simp only [Header.numbers, List.cons_append] at h ⊢
  generalize hrest : finals' ++ rest = tail at h
  generalize hcount : finals'.length = count at h ⊢
  generalize hcount' : finals.length = count' at h ⊢
  obtain _ | _ | h := h
  obtain _ | _ | h := h
  obtain _ | _ | h := h
  cases h with
  | within _ hzero =>
      rw [(List.append_eq_nil_iff.1 hrest).1] at hcount
      exact ⟨rfl, rfl, by rw [← hcount, hzero hcount.symm]; rfl⟩
  | cons _ => exact ⟨rfl, rfl, rfl⟩

/-- The fault of numbers that end before the header of `A` does, or before the table does. -/
def EndsWithin (A : Automaton) (fault : FormatFault) : Prop :=
  (∃ field, fault = .unexpectedEnd field) ∨
    ∃ found < 3 * A.stateCount * A.alphabetSize,
      fault = .truncated (3 * A.stateCount * A.alphabetSize) found

theorem load_of_cut {src : Source} {found : List Nat}
    (hlimit : 3 * A.stateCount * A.alphabetSize < limit)
    (hcut : Numeral.Cut (rows A).flatten found) (hlost : found.length < (rows A).flatten.length)
    (hnumbers : src.numbers = found.map .ok) (path : Option String) :
    ∃ fault, load .stateMajor src path = .error (.malformed fault) ∧ EndsWithin A fault := by
  rcases exists_endsBefore_or found with ⟨field, hends⟩ | ⟨header, flat, rfl⟩
  · rw [← List.append_nil (found.map _)] at hnumbers
    exact ⟨_, load_of_endsBefore hends rfl hnumbers, .inl ⟨field, rfl⟩⟩
  · rw [flatten_rows] at hcut hlost
    obtain ⟨hk, hn, hcount⟩ := eq_of_cut hcut
    have hneeded : Layout.stateMajor.needed? header.alphabetSize header.stateCount =
        some (3 * A.stateCount * A.alphabetSize) := by
      rw [hk, hn]
      exact Layout.needed?_stateMajor_eq_some.2 ⟨Nat.mul_assoc 3 _ _ ▸ hlimit, Nat.mul_assoc 3 _ _⟩
    have hshort : flat.toArray.size < 3 * A.stateCount * A.alphabetSize := by
      simp only [List.length_append, Header.numbers, List.length_cons, hcount,
        A.length_cellNumbers] at hlost
      rw [List.size_toArray, Nat.mul_assoc]
      omega
    refine ⟨.truncated _ _, ?_, .inr ⟨_, hshort, rfl⟩⟩
    rw [load_of_numbers hnumbers, table_of_short hneeded hshort]
    rfl

theorem load_of_prefix (hlimit : 3 * A.stateCount * A.alphabetSize < limit) {p : Bytes}
    (hp : p <+: (lines A).flatten)
    (hlost : (Numeral.runs p).length < (Numeral.runs (lines A).flatten).length)
    (path : Option String) :
    ∃ fault, load .stateMajor (.ofBytes p) path = .error (.malformed fault) ∧
      EndsWithin A fault := by
  have hruns : Numeral.runs (lines A).flatten = (rows A).flatten.map Numeral.digits := by
    rw [lines_eq, Numeral.runs_lines]
  obtain ⟨more, hmore⟩ := hp
  have hcut := Numeral.cut_of_runs (hmore ▸ hruns)
  refine load_of_cut hlimit hcut ?_ ?_ path
  · rwa [hruns, List.length_map, ← List.length_map Numeral.value] at hlost
  · rw [Source.numbers_eq_iff]
    refine ⟨_, Numeral.runs_eq_iff.1 rfl, fun run hrun => ?_, rfl⟩
    exact hcut.lt (fun _ => lt_of_mem_rows) _ (List.mem_map_of_mem hrun)

end Description

namespace Format

/-- Nothing that is cut off a stored automaton goes unnoticed: its binary form and its JSON text
may not lose a byte, and its description may not lose a number. -/
theorem load_prefix_eq_error (A : Automaton) (p : Bytes) :
    (p <+: Format.json.encode A → p ≠ Format.json.encode A →
      ∃ cause, Format.json.load (.ofBytes p) = .error (.json cause)) ∧
    (p <+: Format.binary.encode A → p ≠ Format.binary.encode A →
      ∃ cause, Format.binary.load (.ofBytes p) = .error (.binary cause)) ∧
    (3 * A.stateCount * A.alphabetSize < limit → p <+: Format.text.encode A →
      (Numeral.runs p).length < (Numeral.runs (Format.text.encode A)).length →
      ∃ fault, Format.text.load (.ofBytes p) = .error (.description (.malformed fault)) ∧
        Description.EndsWithin A fault) := by
  refine ⟨fun hp hne => ?_, fun hp hne => ?_, fun hlimit hp hlost => ?_⟩
  · obtain ⟨cause, hcause⟩ := Json.exists_readRecord_eq_error A.inRange_record hp hne
    refine ⟨cause, ?_⟩
    rw [load, hcause]
    rfl
  · rw [encode_binary] at hp hne
    obtain ⟨cause, hcause⟩ := Binary.exists_readRecord_eq_error A.inRange_record hp hne
    refine ⟨cause, ?_⟩
    rw [load, hcause]
    rfl
  · obtain ⟨fault, hfault, hend⟩ := Description.load_of_prefix hlimit hp hlost none
    refine ⟨fault, ?_, hend⟩
    rw [load, hfault]
    rfl

/-- The last byte is lost, or the last number. -/
theorem swap_load_prefix :
    (∃ cause, Format.json.load (.ofBytes (Format.json.encode Construction.swap).dropLast) =
      .error (.json cause)) ∧
    (∃ cause, Format.binary.load (.ofBytes (Format.binary.encode Construction.swap).dropLast) =
      .error (.binary cause)) ∧
    ∃ fault, Format.text.load (.ofBytes (Text.utf8 "1 2 0\n1 1\n0 0 1\n1 0 ")) =
        .error (.description (.malformed fault)) ∧
      Description.EndsWithin Construction.swap fault := by
  have hprefix : Text.utf8 "1 2 0\n1 1\n0 0 1\n1 0 " <+: Format.text.encode Construction.swap :=
    ⟨Text.utf8 "0\n", by rfl⟩
  exact ⟨(load_prefix_eq_error Construction.swap _).1 (List.dropLast_prefix _) (by decide),
    (load_prefix_eq_error Construction.swap _).2.1 (List.dropLast_prefix _) (by decide),
    (load_prefix_eq_error Construction.swap _).2.2 (by decide) hprefix (by decide)⟩

end Format

end FiniteReach
