import FiniteReach.Json.Printer
import FiniteReach.Json.Value
import FiniteReach.Proofs.Numeral
import FiniteReach.Proofs.Readers
import FiniteReach.Proofs.Utf8

/-!
# Values of JSON texts that are written and read

A printed value is read back with any blanks before it, as long as what comes after it does not go
on with it (`Reads`). Numbers, texts and lists of values are, and so are the entries of an object
one by one. `inside` is what an object or a list holds after its opening; the readers go through it
part by part, as it is printed.
-/

namespace FiniteReach.Json

/-- The source goes on with what may follow a value in a printed list or object. -/
def Ends (bs : Bytes) : Prop := ∃ b rest, bs = b :: rest ∧ (b = 44 ∨ b = 10)

/-- The bytes of `part` are read as `a`. -/
def Reads {α : Type} (value : Reader α) (part : Bytes) (a : α) : Prop :=
  ∀ blanks bs failure, (∀ b ∈ blanks, isBlank b = true) → Ends bs →
    value ⟨blanks ++ (part ++ bs), failure⟩ = .ok (a, ⟨bs, failure⟩)

namespace Reader

variable {bs : Bytes} {failure : Option IoFault}

/-! ## Bytes -/

theorem next_cons (fault : Fault) (b : UInt8) :
    next fault ⟨b :: bs, failure⟩ = .ok (b, ⟨bs, failure⟩) := rfl

theorem peek_cons (b : UInt8) : peek ⟨b :: bs, failure⟩ = .ok (some b, ⟨b :: bs, failure⟩) := rfl

theorem drop_cons (b : UInt8) : drop ⟨b :: bs, failure⟩ = .ok ((), ⟨bs, failure⟩) := rfl

theorem skipBlanks_append {blanks : Bytes} (h : ∀ b ∈ blanks, isBlank b = true) :
    skipBlanks ⟨blanks ++ bs, failure⟩ = skipBlanks ⟨bs, failure⟩ := by
  rw [skipBlanks, skipBlanks, List.dropWhile_append_of_pos h]

theorem skipBlanks_cons {b : UInt8} (h : isBlank b = false) :
    skipBlanks ⟨b :: bs, failure⟩ = .ok (some b, ⟨b :: bs, failure⟩) := by
  rw [skipBlanks, List.dropWhile_cons_of_neg (by simp [h])]
  exact peek_cons b

theorem start_append {blanks : Bytes} {b : UInt8} (hblanks : ∀ b ∈ blanks, isBlank b = true)
    (hb : isBlank b = false) :
    start ⟨blanks ++ b :: bs, failure⟩ = .ok (b, ⟨b :: bs, failure⟩) := by
  rw [start, run_bind_of_ok ((skipBlanks_append hblanks).trans (skipBlanks_cons hb))]
  rfl

theorem digits_append {run : Bytes} {b : UInt8} (hrun : ∀ d ∈ run, Numeral.isDigit d = true)
    (hb : Numeral.isDigit b = false) :
    digits ⟨run ++ b :: bs, failure⟩ = .ok (run, ⟨b :: bs, failure⟩) := by
  rw [digits, List.takeWhile_append_of_pos hrun, List.dropWhile_append_of_pos hrun,
    List.takeWhile_cons_of_neg (by simp [hb]), List.dropWhile_cons_of_neg (by simp [hb]),
    List.append_nil]

/-! ## Numbers -/

theorem absorb_of_lt {bound v : Nat} {run : Bytes} (h : run.foldl Numeral.append v < bound) :
    absorb bound v run = (run.foldl Numeral.append v, run.length) := by
  induction run generalizing v with
  | nil => rfl
  | cons d run ih =>
      rw [List.foldl_cons] at h
      have hd := Nat.lt_of_le_of_lt (Numeral.le_foldl_append run _) h
      rw [absorb, Numeral.append?, if_pos hd]
      simp only [ih h, List.foldl_cons, List.length_cons]

theorem number_digits {n : Nat} (hn : n < limit) (h : Ends bs) :
    number true ⟨Numeral.digits n ++ bs, failure⟩ = .ok (.natural n, ⟨bs, failure⟩) := by
  obtain ⟨b, rest, rfl, hb⟩ := h
  obtain ⟨d, run, hdigits, hzero⟩ := Numeral.exists_digits_eq_cons n
  have hd : ∀ x ∈ d :: run, Numeral.isDigit x = true := fun x hx =>
    Numeral.isDigit_of_mem_digits (hdigits ▸ hx)
  obtain ⟨hfirst, hrun⟩ := List.forall_mem_cons.1 hd
  have hafter : Numeral.isDigit b = false ∧ b ≠ 46 ∧ b ≠ 101 ∧ b ≠ 69 := by
    rcases hb with rfl | rfl <;> decide
  have habsorb : absorb limit 0 (d :: run) = (n, run.length + 1) := by
    have hvalue : (d :: run).foldl Numeral.append 0 = n := hdigits ▸ Numeral.value_digits n
    rw [absorb_of_lt (hvalue ▸ hn), hvalue, List.length_cons]
  rw [number, hdigits, List.cons_append, run_bind_of_ok (next_cons _ d)]
  simp only [hfirst, Bool.not_true, Bool.false_eq_true, ↓reduceIte]
  split
  · next hd48 =>
      have hnil : run = [] := by
        rw [hzero hd48] at hdigits
        exact (List.cons.inj hdigits).2.symm
      subst hnil
      rw [run_bind_of_ok rfl, List.nil_append, run_bind_of_ok (peek_cons b)]
      simp only [Option.any_some, hafter, Bool.and_false, Bool.false_eq_true, ↓reduceIte,
        Option.some.injEq, decide_false, Bool.or_self, habsorb, List.length_nil, Nat.zero_add,
        Nat.sub_self, ne_eq, not_true_eq_false]
      rfl
  · next hd48 =>
      rw [run_bind_of_ok (digits_append hrun hafter.1), run_bind_of_ok (peek_cons b)]
      simp only [Option.any_some, hafter, Bool.and_false, Bool.false_eq_true, ↓reduceIte,
        Option.some.injEq, decide_false, Bool.or_self, habsorb, Nat.sub_self, ne_eq,
        not_true_eq_false]
      rfl

theorem minus_and_blank_of_isDigit {d : UInt8} (h : Numeral.isDigit d = true) :
    d ≠ 45 ∧ isBlank d = false := by
  constructor
  · rintro rfl
    cases h
  · cases hblank : isBlank d with
    | false => rfl
    | true =>
        simp only [isBlank, Bool.or_eq_true, decide_eq_true_eq] at hblank
        rcases hblank with ((rfl | rfl) | rfl) | rfl <;> cases h

theorem reads_natural (expected : String) {n : Nat} (hn : n < limit) :
    Reads (natural expected) (Numeral.digits n) n := by
  intro blanks bs failure hblanks hends
  obtain ⟨d, run, hdigits, _⟩ := Numeral.exists_digits_eq_cons n
  have hd : Numeral.isDigit d = true := Numeral.isDigit_of_mem_digits (hdigits ▸ List.mem_cons_self)
  obtain ⟨hminus, hblank⟩ := minus_and_blank_of_isDigit hd
  rw [natural, hdigits, List.cons_append, run_bind_of_ok (start_append hblanks hblank),
    ← List.cons_append, ← hdigits]
  simp only [hminus, hd, ↓reduceIte]
  rw [run_bind_of_ok (number_digits hn hends)]
  rfl

/-! ## Texts -/

theorem hexDigit?_hexDigit : ∀ d < 16, hexDigit? (Print.hexDigit d) = some d := by decide

theorem escapedByte_cases (b : UInt8) :
    (∃ letter, letter ≠ 117 ∧ shortEscape? letter = some b ∧ Print.escapedByte b = [92, letter]) ∨
      (b < 32 ∧ Print.escapedByte b =
        [92, 117, 48, 48, Print.hexDigit (b.toNat / 16), Print.hexDigit (b.toNat % 16)]) ∨
      (b ≠ 34 ∧ b ≠ 92 ∧ ¬ b < 32 ∧ Print.escapedByte b = [b]) := by
  unfold Print.escapedByte
  split
  · next h => exact Or.inl ⟨34, by decide, by rw [h]; rfl, rfl⟩
  split
  · next h => exact Or.inl ⟨92, by decide, by rw [h]; rfl, rfl⟩
  split
  · next h => exact Or.inl ⟨98, by decide, by rw [h]; rfl, rfl⟩
  split
  · next h => exact Or.inl ⟨116, by decide, by rw [h]; rfl, rfl⟩
  split
  · next h => exact Or.inl ⟨110, by decide, by rw [h]; rfl, rfl⟩
  split
  · next h => exact Or.inl ⟨102, by decide, by rw [h]; rfl, rfl⟩
  split
  · next h => exact Or.inl ⟨114, by decide, by rw [h]; rfl, rfl⟩
  split
  · next h => exact Or.inr (Or.inl ⟨h, rfl⟩)
  · next hquote hslash _ _ _ _ _ hcontrol => exact Or.inr (Or.inr ⟨hquote, hslash, hcontrol, rfl⟩)

theorem numberedEscape_control {b : UInt8} (h : b < 32) :
    numberedEscape ⟨48 :: 48 :: Print.hexDigit (b.toNat / 16) :: Print.hexDigit (b.toNat % 16) :: bs,
      failure⟩ = .ok ([b], ⟨bs, failure⟩) := by
  have hb : b.toNat < 32 := UInt8.lt_iff_toNat_lt.1 h
  have hhex : hexEscape ⟨48 :: 48 :: Print.hexDigit (b.toNat / 16) ::
      Print.hexDigit (b.toNat % 16) :: bs, failure⟩ = .ok (b.toNat, ⟨bs, failure⟩) := by
    rw [hexEscape, run_bind_of_ok (next_cons _ 48), run_bind_of_ok (next_cons _ 48),
      run_bind_of_ok (next_cons _ _), run_bind_of_ok (next_cons _ _),
      hexDigit?_hexDigit _ (by omega), hexDigit?_hexDigit _ (by omega)]
    change Except.ok (((0 * 16 + 0) * 16 + b.toNat / 16) * 16 + b.toNat % 16, _) = _
    rw [Nat.zero_mul, Nat.zero_add, Nat.div_add_mod']
  rw [numberedEscape, run_bind_of_ok hhex]
  have hlow : ¬ 0xDC00 ≤ b.toNat ∧ ¬ 0xD800 ≤ b.toNat := by omega
  simp only [hlow, decide_false, Bool.false_and, Bool.false_eq_true, ↓reduceIte]
  rw [Text.utf8EncodeChar_ascii _ (by omega), UInt8.ofNat_toNat]
  rfl

theorem textBytes_escapedByte (b : UInt8) (r : UInt8) (rounds : Rounds) :
    textBytes (r :: rounds) ⟨Print.escapedByte b ++ bs, failure⟩ =
      (do return b :: (← textBytes rounds) : Reader Bytes) ⟨bs, failure⟩ := by
  rw [textBytes]
  rcases escapedByte_cases b with ⟨letter, hletter, hshort, hb⟩ | ⟨hcontrol, hb⟩ |
    ⟨hquote, hslash, hcontrol, hb⟩
  · rw [hb, List.cons_append, run_bind_of_ok (next_cons _ 92)]
    have hescape : escape ⟨[letter] ++ bs, failure⟩ = .ok ([b], ⟨bs, failure⟩) := by
      rw [escape, List.singleton_append, run_bind_of_ok (next_cons _ letter), if_neg hletter, hshort]
      rfl
    rw [if_neg (by decide), if_pos rfl, run_bind_of_ok hescape]
    rfl
  · rw [hb, List.cons_append, run_bind_of_ok (next_cons _ 92)]
    have hescape : escape ⟨[117, 48, 48, Print.hexDigit (b.toNat / 16),
        Print.hexDigit (b.toNat % 16)] ++ bs, failure⟩ = .ok ([b], ⟨bs, failure⟩) := by
      rw [escape, List.cons_append, run_bind_of_ok (next_cons _ 117), if_pos rfl]
      exact numberedEscape_control hcontrol
    rw [if_neg (by decide), if_pos rfl, run_bind_of_ok hescape]
    rfl
  · rw [hb, List.singleton_append, run_bind_of_ok (next_cons _ b), if_neg hquote, if_neg hslash,
      if_neg hcontrol]

theorem textBytes_escaped (content : Bytes) {rounds : Rounds}
    (h : content.length < rounds.length) :
    textBytes rounds ⟨content.flatMap Print.escapedByte ++ 34 :: bs, failure⟩ =
      .ok (content, ⟨bs, failure⟩) := by
  induction content generalizing rounds with
  | nil =>
      obtain ⟨r, rounds, rfl⟩ := List.exists_cons_of_length_pos h
      rw [textBytes, List.flatMap_nil, List.nil_append, run_bind_of_ok (next_cons _ 34), if_pos rfl]
      rfl
  | cons b content ih =>
      obtain ⟨r, rounds, rfl⟩ := List.exists_cons_of_length_pos (Nat.zero_lt_of_lt h)
      rw [List.flatMap_cons, List.append_assoc, textBytes_escapedByte,
        run_bind_of_ok (ih (Nat.lt_of_succ_lt_succ h))]
      rfl

theorem length_le_escaped (content : Bytes) :
    content.length ≤ (content.flatMap Print.escapedByte).length := by
  induction content with
  | nil => exact Nat.le_refl 0
  | cons b content ih =>
      have hb : 0 < (Print.escapedByte b).length := by
        rcases escapedByte_cases b with ⟨_, _, _, hb⟩ | ⟨_, hb⟩ | ⟨_, _, _, hb⟩ <;> rw [hb] <;>
          exact Nat.succ_pos _
      rw [List.flatMap_cons, List.length_append, List.length_cons]
      omega

theorem text_escaped (s : String) :
    text ⟨(Text.utf8 s).flatMap Print.escapedByte ++ 34 :: bs, failure⟩ =
      .ok (s, ⟨bs, failure⟩) := by
  have hlength := length_le_escaped (Text.utf8 s)
  rw [text, run_bind_of_ok (x := rounds) rfl, run_bind_of_ok (textBytes_escaped _ _),
    Text.ofUtf8?_utf8]
  · rfl
  · simp only [List.length_cons, List.length_append]
    omega

end Reader

/-! ## Lists and objects -/

/-- The start of a line at a level. -/
def indent (level : Nat) : Bytes := 10 :: List.replicate (2 * level) 32

/-- What is printed of a list or an object after its opening, from the first part or a later one
on. -/
def inside (level : Nat) (closing : UInt8) (first : Bool) : List Bytes → Bytes
  | [] => (if first then [] else indent level) ++ [closing]
  | part :: parts =>
    (if first then [] else [44]) ++ indent (level + 1) ++ part ++ inside level closing false parts

theorem isBlank_of_mem_indent {level : Nat} {b : UInt8} (h : b ∈ indent level) :
    isBlank b = true := by
  rcases List.mem_cons.1 h with rfl | h
  · rfl
  · rw [List.eq_of_mem_replicate h]
    rfl

theorem ends_inside (level : Nat) (closing : UInt8) (parts : List Bytes) (bs : Bytes) :
    Ends (inside level closing false parts ++ bs) := by
  cases parts with
  | nil => exact ⟨_, _, rfl, Or.inr rfl⟩
  | cons part parts => exact ⟨_, _, rfl, Or.inl rfl⟩

theorem length_lt_inside (level : Nat) (closing : UInt8) (first : Bool) (parts : List Bytes) :
    parts.length < (inside level closing first parts).length := by
  induction parts generalizing first with
  | nil => simp [inside]
  | cons part parts ih =>
      have hrest := ih false
      simp only [inside, indent, List.length_append, List.length_cons]
      omega

theorem flatten_newline (level : Nat) : (Print.newline level).flatten = indent level := by
  simp [Print.newline, indent]

theorem flatten_block (level : Nat) (opening closing : UInt8) (parts : List Pieces) :
    (Print.block level [opening] [closing] parts).flatten =
      opening :: inside level closing true (parts.map List.flatten) := by
  -- The separators are put between the parts, but read and listed before each part but the first.
  have hparts : ∀ part rest, ([[44]].intercalate ((part :: rest).map
      fun part => Print.newline (level + 1) ++ part) ++ Print.newline level ++ [[closing]]).flatten =
        indent (level + 1) ++ part.flatten ++
          inside level closing false (rest.map List.flatten) := by
    intro part rest
    induction rest generalizing part with
    | nil => simp [flatten_newline, inside]
    | cons next rest ih =>
        have hnext := ih next
        simp only [List.map_cons, List.intercalate_cons_cons, List.flatten_append,
          flatten_newline, List.append_assoc, inside] at hnext ⊢
        rw [hnext]
        simp
  cases parts with
  | nil => simp [Print.block, inside]
  | cons part rest =>
      rw [Print.block, if_neg (by simp), List.append_assoc, List.append_assoc, List.flatten_append,
        ← List.append_assoc, hparts]
      simp [inside]

namespace Reader

variable {α σ : Type} {bs : Bytes} {failure : Option IoFault}

/-- The part starts with a byte that neither is blank nor closes anything. -/
def Opens (part : Bytes) : Prop :=
  ∃ b rest, part = b :: rest ∧ isBlank b = false ∧ b ≠ 93 ∧ b ≠ 125

theorem skipBlanks_indent (level : Nat) {b : UInt8} (h : isBlank b = false) :
    skipBlanks ⟨indent level ++ b :: bs, failure⟩ = .ok (some b, ⟨b :: bs, failure⟩) :=
  (skipBlanks_append fun _ => isBlank_of_mem_indent).trans (skipBlanks_cons h)

theorem skipBlanks_comma : skipBlanks ⟨44 :: bs, failure⟩ = .ok (some 44, ⟨44 :: bs, failure⟩) :=
  skipBlanks_cons rfl

theorem listGoesOn_nil (level : Nat) (first : Bool) :
    listGoesOn first ⟨inside level 93 first [] ++ bs, failure⟩ =
      .ok (false, ⟨93 :: bs, failure⟩) := by
  have hskip : skipBlanks ⟨inside level 93 first [] ++ bs, failure⟩ =
      .ok (some 93, ⟨93 :: bs, failure⟩) := by
    cases first with
    | true => exact skipBlanks_cons rfl
    | false =>
        rw [inside, List.append_assoc]
        exact skipBlanks_indent level rfl
  rw [listGoesOn, run_bind_of_ok hskip]
  rfl

theorem listGoesOn_cons (level : Nat) (first : Bool) {part : Bytes} {parts : List Bytes}
    (h : Opens part) :
    listGoesOn first ⟨inside level 93 first (part :: parts) ++ bs, failure⟩ =
      .ok (true, ⟨part ++ (inside level 93 false parts ++ bs), failure⟩) := by
  obtain ⟨b, rest, rfl, hblank, hclose, _⟩ := h
  simp only [inside, List.append_assoc]
  cases first with
  | true =>
      rw [listGoesOn, if_pos rfl, List.nil_append, List.cons_append,
        run_bind_of_ok (skipBlanks_indent _ hblank)]
      simp only [hclose, ↓reduceIte]
      rfl
  | false =>
      rw [listGoesOn, if_neg (by decide), List.singleton_append, List.cons_append,
        run_bind_of_ok skipBlanks_comma]
      have hcomma : (44 : UInt8) ≠ 93 := by decide
      simp only [hcomma, Bool.false_eq_true, ↓reduceIte]
      rw [run_bind_of_ok (drop_cons 44), run_bind_of_ok (skipBlanks_indent _ hblank)]
      simp only [hclose, ↓reduceIte]
      rfl

theorem items_inside {item : Reader α} (print : α → Bytes) {level : Nat} {first : Bool}
    {values : List α} {rounds : Rounds} (hopens : ∀ a ∈ values, Opens (print a))
    (hreads : ∀ a ∈ values, Reads item (print a) a) (hrounds : values.length < rounds.length) :
    items item first rounds ⟨inside level 93 first (values.map print) ++ bs, failure⟩ =
      .ok (values, ⟨93 :: bs, failure⟩) := by
  induction values generalizing first rounds with
  | nil =>
      obtain ⟨r, rounds, rfl⟩ := List.exists_cons_of_length_pos hrounds
      rw [items, List.map_nil, run_bind_of_ok (listGoesOn_nil level first), if_neg (by decide)]
      rfl
  | cons a values ih =>
      obtain ⟨r, rounds, rfl⟩ := List.exists_cons_of_length_pos (Nat.zero_lt_of_lt hrounds)
      obtain ⟨hopen, hopens⟩ := List.forall_mem_cons.1 hopens
      obtain ⟨hread, hreads⟩ := List.forall_mem_cons.1 hreads
      have ha := hread [] _ failure nofun (ends_inside level 93 (values.map print) bs)
      rw [List.nil_append] at ha
      rw [items, List.map_cons, run_bind_of_ok (listGoesOn_cons level first hopen), if_pos rfl,
        run_bind_of_ok ha, run_bind_of_ok (ih hopens hreads (Nat.lt_of_succ_lt_succ hrounds))]
      rfl

theorem opens_list (level : Nat) (parts : List Pieces) :
    Opens (Print.list level parts).flatten := by
  rw [Print.list, flatten_block]
  exact ⟨_, _, rfl, by decide⟩

theorem reads_list {item : Reader α} {pieces : α → Pieces} (level : Nat) {values : List α}
    (hopens : ∀ a ∈ values, Opens (pieces a).flatten)
    (hreads : ∀ a ∈ values, Reads item (pieces a).flatten a) :
    Reads (list item) (Print.list level (values.map pieces)).flatten values := by
  intro blanks bs failure hblanks _
  have hlength := length_lt_inside level 93 true (values.map (List.flatten ∘ pieces))
  rw [Print.list, flatten_block, List.map_map, List.cons_append, list,
    run_bind_of_ok (start_append hblanks rfl), if_pos rfl, run_bind_of_ok (drop_cons 91),
    run_bind_of_ok (x := rounds) rfl,
    run_bind_of_ok (items_inside (List.flatten ∘ pieces) hopens hreads ?_)]
  · rfl
  · rw [List.length_map] at hlength
    rw [List.length_cons, List.length_append]
    exact Nat.lt_succ_of_lt (Nat.lt_add_right _ hlength)

theorem objectGoesOn_nil (level : Nat) (first : Bool) :
    objectGoesOn first ⟨inside level 125 first [] ++ bs, failure⟩ =
      .ok (false, ⟨125 :: bs, failure⟩) := by
  have hskip : skipBlanks ⟨inside level 125 first [] ++ bs, failure⟩ =
      .ok (some 125, ⟨125 :: bs, failure⟩) := by
    cases first with
    | true => exact skipBlanks_cons rfl
    | false =>
        rw [inside, List.append_assoc]
        exact skipBlanks_indent level rfl
  rw [objectGoesOn, run_bind_of_ok hskip]
  rfl

/-- An entry of an object as it is printed. -/
def entryBytes (key : String) (part : Bytes) : Bytes :=
  34 :: ((Text.utf8 key).flatMap Print.escapedByte ++ 34 :: 58 :: 32 :: part)

theorem flatten_entry (key : String) (value : Pieces) :
    (Print.text key ++ [[58, 32]] ++ value).flatten = entryBytes key value.flatten := by
  simp [Print.text, entryBytes]

theorem objectGoesOn_cons (level : Nat) (first : Bool) (key : String) (part : Bytes)
    (parts : List Bytes) :
    objectGoesOn first ⟨inside level 125 first (entryBytes key part :: parts) ++ bs, failure⟩ =
      .ok (true, ⟨entryBytes key part ++ (inside level 125 false parts ++ bs), failure⟩) := by
  simp only [inside, List.append_assoc, entryBytes]
  cases first with
  | true =>
      rw [objectGoesOn, if_pos rfl, List.nil_append, List.cons_append,
        run_bind_of_ok (skipBlanks_indent _ rfl)]
      rfl
  | false =>
      rw [objectGoesOn, if_neg (by decide), List.singleton_append, List.cons_append,
        run_bind_of_ok skipBlanks_comma]
      have hcomma : (44 : UInt8) ≠ 125 := by decide
      simp only [hcomma, Bool.false_eq_true, ↓reduceIte]
      rw [run_bind_of_ok (drop_cons 44), run_bind_of_ok (skipBlanks_indent _ rfl)]
      rfl

variable {fields : List (Field σ)} {record record' : σ}

theorem entries_nil (level : Nat) (first : Bool) (r : UInt8) (rounds : Rounds) :
    entries fields first record (r :: rounds) ⟨inside level 125 first [] ++ bs, failure⟩ =
      .ok (record, ⟨125 :: bs, failure⟩) := by
  rw [entries, run_bind_of_ok (objectGoesOn_nil level first)]
  rfl

theorem entries_cons (level : Nat) (first : Bool) (r : UInt8) (rounds : Rounds) {key : String}
    {part : Bytes} {parts : List Bytes} {field : Field σ}
    (hfind : fields.find? (·.name = key) = some field) (hfilled : field.filled record = false)
    (hreads : Reads (field.fill record) part record') :
    entries fields first record (r :: rounds)
        ⟨inside level 125 first (entryBytes key part :: parts) ++ bs, failure⟩ =
      entries fields false record' rounds ⟨inside level 125 false parts ++ bs, failure⟩ := by
  have hcolon : ∀ rest : Bytes, colon ⟨58 :: rest, failure⟩ = .ok ((), ⟨rest, failure⟩) := by
    intro rest
    rw [colon, run_bind_of_ok (skipBlanks_cons rfl)]
    rfl
  have hvalue := hreads [32] _ failure (by simp [isBlank]) (ends_inside level 125 parts bs)
  rw [entries, run_bind_of_ok (objectGoesOn_cons level first key part parts), if_pos rfl,
    entryBytes, List.cons_append, run_bind_of_ok (drop_cons 34), List.append_assoc,
    List.cons_append, run_bind_of_ok (text_escaped key)]
  simp only [hfind, hfilled, Bool.false_eq_true, ↓reduceIte]
  rw [List.cons_append, run_bind_of_ok (hcolon _), List.cons_append, ← List.singleton_append,
    run_bind_of_ok hvalue]

end Reader

end FiniteReach.Json
