import FiniteReach.Format
import FiniteReach.Proofs.Json.Values
import FiniteReach.Proofs.Record
import Mathlib.Data.List.TakeWhile

/-!
# Automata as JSON texts that are written and read

A printed record is read back with any blanks before it and anything after it, field by field
(`entries_printed`, `record_printed`). A whole source may go on with blanks only, so an automaton
that was stored as a JSON text is read back exactly if nothing but blanks was added.
-/

namespace FiniteReach.Json

open Reader

variable {r : Record}

/-! ## Fields -/

theorem opens_natural (n : Nat) : Opens (Print.natural n).flatten := by
  obtain ⟨d, run, hdigits, _⟩ := Numeral.exists_digits_eq_cons n
  have hd : Numeral.isDigit d = true := Numeral.isDigit_of_mem_digits (hdigits ▸ List.mem_cons_self)
  refine ⟨d, run, ?_, (minus_and_blank_of_isDigit hd).2, ?_⟩
  · rw [Print.natural, List.flatten_singleton, hdigits]
  · constructor <;> rintro rfl <;> cases hd

theorem reads_index {n : Nat} (h : n < limit) : Reads index (Print.natural n).flatten n := by
  rw [Print.natural, List.flatten_singleton]
  exact reads_natural "usize" h

theorem reads_indices (level : Nat) {ns : List Nat} (h : ∀ n ∈ ns, n < limit) :
    Reads (Reader.list index) (Print.list level (ns.map Print.natural)).flatten ns :=
  reads_list level (fun n _ => opens_natural n) fun n hn => reads_index (h n hn)

theorem reads_rows (level level' : Nat) {rows : List (List Nat)}
    (h : ∀ row ∈ rows, ∀ t ∈ row, t < limit) :
    Reads (Reader.list (Reader.list index))
      (Print.list level (rows.map fun row => Print.list level' (row.map Print.natural))).flatten
        rows :=
  reads_list level (fun row _ => opens_list level' (row.map Print.natural))
    fun row hrow => reads_indices level' (h row hrow)

theorem Reads.map {α β : Type} {value : Reader α} {part : Bytes} {a : α} (h : Reads value part a)
    (f : α → β) : Reads (do return f (← value)) part (f a) := by
  intro blanks bs failure hblanks hends
  rw [run_bind_of_ok (h blanks bs failure hblanks hends)]
  rfl

/-! ## Records -/

/-- A record as it is printed, after its opening brace. -/
def fieldBytes (r : Record) : Bytes :=
  inside 0 125 true [
    entryBytes "alphabet_size" (Print.natural r.alphabetSize).flatten,
    entryBytes "initial_state" (Print.natural r.initial).flatten,
    entryBytes "final_states" (Print.list 1 (r.finals.map Print.natural)).flatten,
    entryBytes "transitions"
      (Print.list 1 (r.rows.map fun row => Print.list 2 (row.map Print.natural))).flatten]

theorem flatten_recordPieces (r : Record) : (recordPieces r).flatten = 123 :: fieldBytes r := by
  rw [recordPieces, Print.object, flatten_block]
  simp only [List.map_cons, List.map_nil, flatten_entry, fieldBytes]

/-- A draft of which every field has been read. -/
def Draft.ofRecord (r : Record) : Draft :=
  ⟨some r.alphabetSize, some r.initial, some r.finals, some r.rows⟩

theorem entries_printed (h : r.InRange) (bs : Bytes) (failure : Option IoFault) :
    entries recordShape.fields true {} (0 :: (fieldBytes r ++ bs)) ⟨fieldBytes r ++ bs, failure⟩ =
      .ok (Draft.ofRecord r, ⟨125 :: bs, failure⟩) := by
  obtain ⟨rounds, hrounds⟩ : ∃ rounds,
      0 :: (fieldBytes r ++ bs) = 0 :: 10 :: 32 :: 32 :: 34 :: rounds := ⟨_, rfl⟩
  rw [hrounds, fieldBytes,
    entries_cons 0 true 0 _ rfl rfl ((reads_index h.alphabetSize).map _),
    entries_cons 0 false 10 _ rfl rfl ((reads_index h.initial).map _),
    entries_cons 0 false 32 _ rfl rfl ((reads_indices 1 h.finals.2).map _),
    entries_cons 0 false 32 _ rfl rfl
      ((reads_rows 1 2 fun row hrow => (h.rows.2 row hrow).2).map _),
    entries_nil 0 false 34]
  rfl

theorem record_printed (h : r.InRange) {blanks : Bytes} (hblanks : ∀ b ∈ blanks, isBlank b = true)
    (bs : Bytes) (failure : Option IoFault) :
    record ⟨blanks ++ ((recordPieces r).flatten ++ bs), failure⟩ = .ok (r, ⟨bs, failure⟩) := by
  have hfields : Reader.record recordShape {} ⟨blanks ++ ((recordPieces r).flatten ++ bs), failure⟩ =
      .ok (Draft.ofRecord r, ⟨bs, failure⟩) := by
    rw [Reader.record, flatten_recordPieces, List.cons_append,
      run_bind_of_ok (start_append hblanks rfl), if_neg (by decide), if_pos rfl,
      run_bind_of_ok (drop_cons 123), run_bind_of_ok (x := rounds) rfl,
      run_bind_of_ok (entries_printed h bs failure), run_bind_of_ok (drop_cons 125)]
    rfl
  rw [record, run_bind_of_ok hfields]
  rfl

/-- After a value the source may go on with blanks only. -/
theorem document_of_ok {α : Type} {value : Reader α} {src : Source} {a : α} {bs : Bytes}
    (h : value src = .ok (a, .ofBytes bs)) :
    document value src = if bs.all isBlank then .ok a else .error .trailingCharacters := by
  have hskip : skipBlanks (.ofBytes bs) =
      .ok ((bs.dropWhile isBlank).head?, .ofBytes (bs.dropWhile isBlank)) := by
    rw [skipBlanks, Source.ofBytes, peek]
    cases bs.dropWhile isBlank <;> rfl
  rw [document, h]
  change skipBlanks (.ofBytes bs) >>= _ = _
  rw [hskip]
  cases hrest : bs.dropWhile isBlank with
  | nil =>
      rw [if_pos (List.all_eq_true.2 (List.dropWhile_eq_nil_iff.1 hrest))]
      rfl
  | cons b rest =>
      have hb : isBlank b = false := by
        have hhead := List.head?_dropWhile_not isBlank bs
        simpa only [hrest, List.head?_cons] using hhead
      rw [if_neg]
      · rfl
      · intro hall
        have hnil := List.dropWhile_eq_nil_iff.2 (List.all_eq_true.1 hall)
        cases hrest.symm.trans hnil

theorem readRecord_printed (h : r.InRange) {blanks : Bytes}
    (hblanks : ∀ b ∈ blanks, isBlank b = true) (s : Bytes) :
    readRecord (.ofBytes (blanks ++ ((recordPieces r).flatten ++ s))) =
      if s.all isBlank then .ok r else .error .trailingCharacters :=
  document_of_ok (record_printed h hblanks s none)

end FiniteReach.Json

namespace FiniteReach.Format

variable {A : Automaton}

theorem load_json_of_readRecord {src : Source} (h : Json.readRecord src = .ok A.record) :
    Format.json.load src = .ok A := by
  rw [load, h]
  exact mapError_eq_ok.2 A.automaton?_record

/-- What has been stored as a JSON text is read back if blanks come after it; anything else after it
is a fault of the text. -/
theorem load_json_encode_append (A : Automaton) (s : Bytes) :
    Format.json.load (.ofBytes (Format.json.encode A ++ s)) =
      if s.all Json.isBlank then .ok A else .error (.json .trailingCharacters) := by
  have hread : Json.readRecord (.ofBytes (Format.json.encode A ++ s)) =
      if s.all Json.isBlank then .ok A.record else .error .trailingCharacters :=
    Json.readRecord_printed A.inRange_record (List.forall_mem_nil _) s
  by_cases hs : s.all Json.isBlank = true
  · rw [if_pos hs] at hread ⊢
    exact load_json_of_readRecord hread
  · rw [if_neg hs] at hread ⊢
    rw [load, hread]
    rfl

end FiniteReach.Format
