import FiniteReach.Format
import FiniteReach.Proofs.Readers
import FiniteReach.Proofs.Record

/-!
# Binary forms that are written and read

A reader is `Exact` if it takes just what is printed of the values it allows. Numbers are read
exactly, and exactness lifts to lists and to records. So a source holds an automaton in binary
exactly if it starts with the printed record of it, its final states in some order.
-/

namespace FiniteReach.Binary

/-! ## Bytes of a number -/

theorem length_littleEndian (count n : Nat) : (littleEndian count n).length = count := by
  induction count generalizing n with
  | zero => rfl
  | succ count ih => rw [littleEndian, List.length_cons, ih]

theorem valueOf_cons (b : UInt8) (bs : Bytes) : valueOf (b :: bs) = b.toNat + 256 * valueOf bs := rfl

theorem valueOf_littleEndian {count n : Nat} (h : n < Nat.pow 256 count) :
    valueOf (littleEndian count n) = n := by
  induction count generalizing n with
  | zero =>
      cases Nat.lt_one_iff.1 h
      rfl
  | succ count ih =>
      have hrest : n / 256 < Nat.pow 256 count :=
        Nat.div_lt_of_lt_mul (Nat.mul_comm _ 256 ▸ h)
      have hbyte : (UInt8.ofNat (n % 256)).toNat = n % 256 :=
        UInt8.toNat_ofNat_of_lt' (Nat.mod_lt n (by decide))
      rw [littleEndian, valueOf_cons, ih hrest, hbyte, Nat.mod_add_div]

theorem valueOf_lt (bs : Bytes) : valueOf bs < Nat.pow 256 bs.length := by
  induction bs with
  | nil => exact Nat.one_pos
  | cons b bs ih =>
      have hb : b.toNat < 256 := b.toNat_lt
      rw [valueOf_cons, List.length_cons]
      change _ < Nat.pow 256 bs.length * 256
      omega

theorem littleEndian_valueOf (bs : Bytes) : littleEndian bs.length (valueOf bs) = bs := by
  induction bs with
  | nil => rfl
  | cons b bs ih =>
      have hb : b.toNat < 256 := b.toNat_lt
      have hbyte : (valueOf (b :: bs)) % 256 = b.toNat := by
        rw [valueOf_cons, Nat.add_mul_mod_self_left, Nat.mod_eq_of_lt hb]
      have hrest : (valueOf (b :: bs)) / 256 = valueOf bs := by
        rw [valueOf_cons, Nat.add_mul_div_left _ _ (by decide), Nat.div_eq_of_lt hb, Nat.zero_add]
      rw [List.length_cons, littleEndian, hbyte, hrest, ih, UInt8.ofNat_toNat]

/-! ## Exact readers -/

variable {α : Type} {item : Reader α} {allowed : α → Prop} {print : α → Bytes}

/-- The reader takes what is printed of the values it allows, and nothing else. -/
def Exact (item : Reader α) (allowed : α → Prop) (print : α → Bytes) : Prop :=
  ∀ a src rest, item src = .ok (a, rest) ↔
    allowed a ∧ src = { rest with bytes := print a ++ rest.bytes }

theorem exact_readNumber : Exact readNumber (· < limit) (littleEndian 8) := by
  intro n src rest
  have hlimit : Nat.pow 256 8 = limit := by decide
  rw [readNumber]
  constructor
  · intro h
    split at h
    · next hlength =>
        cases h
        have hlt := valueOf_lt (src.bytes.take 8)
        have hbytes := littleEndian_valueOf (src.bytes.take 8)
        rw [hlength, hlimit] at hlt
        rw [hlength] at hbytes
        refine ⟨hlt, ?_⟩
        rw [hbytes, List.take_append_drop]
    · split at h
      · cases h
      · cases h
  · rintro ⟨hn, rfl⟩
    have hlength := length_littleEndian 8 n
    have htake : (littleEndian 8 n ++ rest.bytes).take 8 = littleEndian 8 n :=
      List.take_left' hlength
    simp only [htake, hlength, ↓reduceIte, valueOf_littleEndian (hlimit ▸ hn),
      List.drop_left' hlength]

theorem Exact.readMany (h : Exact item allowed print) (count : Nat) :
    Exact (readMany item count) (fun values => values.length = count ∧ ∀ a ∈ values, allowed a)
      (·.flatMap print) := by
  induction count with
  | zero =>
      intro values src rest
      simp only [Binary.readMany, run_pure_eq_ok, List.length_eq_zero_iff]
      constructor
      · rintro ⟨rfl, rfl⟩
        exact ⟨⟨rfl, nofun⟩, rfl⟩
      · rintro ⟨⟨rfl, _⟩, rfl⟩
        exact ⟨rfl, rfl⟩
  | succ count ih =>
      intro values src rest
      rw [Binary.readMany]
      simp only [run_bind_eq_ok, run_pure_eq_ok, h _, ih _]
      constructor
      · rintro ⟨a, _, ⟨ha, rfl⟩, values, _, ⟨⟨hlength, hall⟩, rfl⟩, rfl, rfl⟩
        refine ⟨⟨congrArg (· + 1) hlength, List.forall_mem_cons.2 ⟨ha, hall⟩⟩, ?_⟩
        rw [List.flatMap_cons, List.append_assoc]
      · rintro ⟨⟨hlength, hall⟩, rfl⟩
        obtain ⟨a, values, rfl⟩ := List.exists_cons_of_length_eq_add_one hlength
        obtain ⟨ha, hall⟩ := List.forall_mem_cons.1 hall
        refine ⟨a, _, ⟨ha, ?_⟩, values, rest, ⟨⟨Nat.succ.inj hlength, hall⟩, rfl⟩, rfl, rfl⟩
        rw [List.flatMap_cons, List.append_assoc]

/-- A list as it is stored, by what is stored of its values. -/
def printList (print : α → Bytes) (values : List α) : Bytes :=
  littleEndian 8 values.length ++ values.flatMap print

theorem Exact.readList (h : Exact item allowed print) :
    Exact (readList item) (fun values => values.length < limit ∧ ∀ a ∈ values, allowed a)
      (printList print) := by
  intro values src rest
  rw [Binary.readList]
  simp only [run_bind_eq_ok, exact_readNumber _, h.readMany _ _]
  constructor
  · rintro ⟨_, _, ⟨hcount, rfl⟩, ⟨rfl, hall⟩, rfl⟩
    refine ⟨⟨hcount, hall⟩, ?_⟩
    rw [printList, List.append_assoc]
  · rintro ⟨⟨hcount, hall⟩, rfl⟩
    refine ⟨_, _, ⟨hcount, ?_⟩, ⟨rfl, hall⟩, rfl⟩
    rw [printList, List.append_assoc]

/-! ## Records -/

/-- A record as it is stored. -/
def printRecord (r : Record) : Bytes :=
  littleEndian 8 r.alphabetSize ++ (littleEndian 8 r.initial ++
    (printList (littleEndian 8) r.finals ++ printList (printList (littleEndian 8)) r.rows))

theorem flatten_number (n : Nat) : (number n).flatten = littleEndian 8 n := List.flatten_singleton

theorem flatten_flatMap {pieces : α → Pieces} (h : ∀ a, (pieces a).flatten = print a)
    (values : List α) : (values.flatMap pieces).flatten = values.flatMap print := by
  induction values with
  | nil => rfl
  | cons a values ih => rw [List.flatMap_cons, List.flatten_append, h, ih, List.flatMap_cons]

theorem flatten_numbers (ns : List Nat) : (numbers ns).flatten = printList (littleEndian 8) ns := by
  rw [numbers, List.flatten_append, flatten_number, flatten_flatMap flatten_number, printList]

theorem flatten_pieces (r : Record) : (pieces r).flatten = printRecord r := by
  simp only [pieces, List.flatten_append, flatten_number, flatten_numbers,
    flatten_flatMap flatten_numbers, printRecord, printList, List.append_assoc]

theorem exact_readFields : Exact readFields Record.InRange printRecord := by
  have hlist := exact_readNumber.readList
  have htable := hlist.readList
  intro r src rest
  rw [readFields]
  simp only [run_bind_eq_ok, run_pure_eq_ok, exact_readNumber _, hlist _, htable _]
  constructor
  · rintro ⟨k, _, ⟨hk, rfl⟩, q, _, ⟨hq, rfl⟩, finals, _, ⟨hfinals, rfl⟩, rows, _, ⟨hrows, rfl⟩,
      rfl, rfl⟩
    refine ⟨⟨hk, hq, hfinals, hrows⟩, ?_⟩
    simp only [printRecord, List.append_assoc]
  · rintro ⟨⟨hk, hq, hfinals, hrows⟩, rfl⟩
    refine ⟨r.alphabetSize, _, ⟨hk, ?_⟩, r.initial, _, ⟨hq, rfl⟩, r.finals, _, ⟨hfinals, rfl⟩,
      r.rows, rest, ⟨hrows, rfl⟩, rfl, rfl⟩
    simp only [printRecord, List.append_assoc]

theorem readRecord_eq_ok {r : Record} {src : Source} : readRecord src = .ok r ↔
    r.InRange ∧ ∃ t, src.bytes = printRecord r ++ t := by
  have hread : readRecord src = .ok r ↔ ∃ rest, readFields src = .ok (r, rest) := by
    rw [readRecord, bind_eq_ok]
    constructor
    · rintro ⟨⟨r, rest⟩, hfields, h⟩
      cases h
      exact ⟨rest, hfields⟩
    · rintro ⟨rest, hfields⟩
      exact ⟨_, hfields, rfl⟩
  rw [hread]
  simp only [exact_readFields _]
  constructor
  · rintro ⟨rest, hr, rfl⟩
    exact ⟨hr, _, rfl⟩
  · rintro ⟨hr, t, ht⟩
    refine ⟨⟨t, src.failure⟩, hr, ?_⟩
    rw [← ht]

/-! ## Lengths -/

theorem length_flatMap_littleEndian (ns : List Nat) :
    (ns.flatMap (littleEndian 8)).length = 8 * ns.length := by
  induction ns with
  | nil => rfl
  | cons n ns ih =>
      rw [List.flatMap_cons, List.length_append, length_littleEndian, ih, List.length_cons]
      omega

theorem length_printList_numbers (ns : List Nat) :
    (printList (littleEndian 8) ns).length = 8 * (1 + ns.length) := by
  rw [printList, List.length_append, length_littleEndian, length_flatMap_littleEndian]
  omega

theorem length_flatMap_rows {k : Nat} {rows : List (List Nat)}
    (h : ∀ row ∈ rows, row.length = k) :
    (rows.flatMap (printList (littleEndian 8))).length = 8 * (rows.length + rows.length * k) := by
  induction rows with
  | nil => simp
  | cons row rows ih =>
      obtain ⟨hrow, hrows⟩ := List.forall_mem_cons.1 h
      rw [List.flatMap_cons, List.length_append, length_printList_numbers, ih hrows, hrow,
        List.length_cons, Nat.succ_mul rows.length k]
      omega

theorem length_printRecord {r : Record} (h : ∀ row ∈ r.rows, row.length = r.alphabetSize) :
    (printRecord r).length =
      8 * (4 + r.finals.length + r.rows.length + r.rows.length * r.alphabetSize) := by
  rw [printRecord, List.length_append, List.length_append, List.length_append,
    length_littleEndian, length_littleEndian, length_printList_numbers, printList,
    List.length_append, length_littleEndian, length_flatMap_rows h]
  omega

end FiniteReach.Binary

namespace FiniteReach

variable {A : Automaton}

/-- The record of an automaton with its final states listed in some other way. -/
def Automaton.recordWith (A : Automaton) (finals : List Nat) : Record :=
  { A.record with finals }

theorem Automaton.recordWith_automaton? {r : Record} : r.automaton? = .ok A ↔
    ∃ finals, (∀ f, f ∈ finals ↔ f ∈ A.finals) ∧ r = A.recordWith finals := by
  rw [Record.automaton?_eq_ok]
  constructor
  · rintro ⟨hk, hq, hfs, hrows⟩
    refine ⟨r.finals, fun f => (hfs f).symm, ?_⟩
    rw [recordWith, record, hk, hq, hrows]
  · rintro ⟨finals, hfs, rfl⟩
    exact ⟨rfl, rfl, fun f => (hfs f).symm, rfl⟩

theorem Automaton.inRange_recordWith {finals : List Nat} (h : ∀ f, f ∈ finals ↔ f ∈ A.finals) :
    (A.recordWith finals).InRange ↔ finals.length < limit := by
  constructor
  · intro hr
    exact hr.finals.1
  · intro hlength
    obtain ⟨hk, hq, hfs, hrows⟩ := A.inRange_record
    exact ⟨hk, hq, ⟨hlength, fun f hf => hfs.2 f ((h f).1 hf)⟩, hrows⟩

namespace Format

theorem load_binary_eq_ok {src : Source} : Format.binary.load src = .ok A ↔
    ∃ finals t, (∀ f, f ∈ finals ↔ f ∈ A.finals) ∧ finals.length < limit ∧
      src.bytes = Binary.printRecord (A.recordWith finals) ++ t := by
  rw [load, bind_eq_ok]
  simp only [mapError_eq_ok, Binary.readRecord_eq_ok, Automaton.recordWith_automaton?]
  constructor
  · rintro ⟨r, ⟨hr, t, ht⟩, finals, hfs, rfl⟩
    exact ⟨finals, t, hfs, (Automaton.inRange_recordWith hfs).1 hr, ht⟩
  · rintro ⟨finals, t, hfs, hlength, ht⟩
    exact ⟨_, ⟨(Automaton.inRange_recordWith hfs).2 hlength, t, ht⟩, finals, hfs, rfl⟩

theorem encode_binary (A : Automaton) : Format.binary.encode A = Binary.printRecord A.record :=
  Binary.flatten_pieces A.record

/-- What has been stored in binary is read back whatever comes after it, and nothing is read that
does not start with a record of the automaton. -/
theorem load_binary_iff (A : Automaton) :
    (∀ t failure, Format.binary.load ⟨Format.binary.encode A ++ t, failure⟩ = .ok A) ∧
      ∀ src, Format.binary.load src = .ok A ↔
        ∃ finals stored t, (∀ f, f ∈ finals ↔ f ∈ A.finals) ∧ finals.length < limit ∧
          stored = (Binary.pieces (A.recordWith finals)).flatten ∧
            stored.length =
              8 * (4 + finals.length + A.stateCount + A.stateCount * A.alphabetSize) ∧
                src.bytes = stored ++ t := by
  refine ⟨fun t failure => load_binary_eq_ok.2
    ⟨A.finals, t, fun _ => Iff.rfl, A.length_finals_lt, ?_⟩, fun src => ?_⟩
  · rw [encode_binary]
    rfl
  · rw [load_binary_eq_ok]
    constructor
    · rintro ⟨finals, t, hfs, hlength, ht⟩
      refine ⟨finals, _, t, hfs, hlength, (Binary.flatten_pieces _).symm, ?_, ht⟩
      rw [Binary.length_printRecord fun row hrow => Automaton.length_of_mem_rows hrow]
      simp only [Automaton.recordWith, Automaton.record, Automaton.length_rows]
    · rintro ⟨finals, _, t, hfs, hlength, rfl, _, ht⟩
      rw [Binary.flatten_pieces] at ht
      exact ⟨finals, t, hfs, hlength, ht⟩

end Format

end FiniteReach
