import FiniteReach.Json.Value
import FiniteReach.Proofs.Readers

/-!
# Readers on longer sources

A reader of JSON texts looks at the end of its source only when it gets there. So where it stops
before the end, it stops at the same place with the same value whatever comes after the source, and
also if it is allowed more rounds (`Extends`). The property is shown for the readers that look at
bytes and carried over to all readers of values and of the entries of objects.
-/

namespace FiniteReach.Json

variable {α β : Type} {x y : Reader α} {f g : α → Reader β}

/-- Where `x` stops before the end of a source, `y` does the same on every longer source. -/
def Extends (x y : Reader α) : Prop :=
  ∀ src a rest, x src = .ok (a, rest) → rest.bytes <:+ src.bytes ∧
    (rest.bytes ≠ [] → ∀ more failure,
      y ⟨src.bytes ++ more, failure⟩ = .ok (a, ⟨rest.bytes ++ more, failure⟩))

namespace Extends

/-! ## Composition -/

theorem bind (hx : Extends x y) (hf : ∀ a, Extends (f a) (g a)) : Extends (x >>= f) (y >>= g) := by
  intro src b rest h
  obtain ⟨a, mid, ha, hb⟩ := run_bind_eq_ok.1 h
  obtain ⟨hmid, hx⟩ := hx _ _ _ ha
  obtain ⟨hrest, hf⟩ := hf a _ _ _ hb
  refine ⟨hrest.trans hmid, fun hne more failure => ?_⟩
  -- If `x` had used up the source, nothing would be left after the rest either.
  have hmidne : mid.bytes ≠ [] := by
    intro hnil
    rw [hnil] at hrest
    exact hne (List.suffix_nil.1 hrest)
  rw [run_bind_of_ok (hx hmidne more failure), hf hne]

theorem pure (a : α) : Extends (Pure.pure a) (Pure.pure a) := by
  intro src b rest h
  obtain ⟨rfl, rfl⟩ := run_pure_eq_ok.1 h
  exact ⟨List.suffix_rfl, fun _ _ _ => rfl⟩

theorem throw (fault : Fault) : Extends (throw fault) y := nofun

theorem ite {c : Prop} [Decidable c] {x' y' : Reader α} (hx : Extends x y) (hx' : Extends x' y') :
    Extends (if c then x else x') (if c then y else y') := by
  split
  · exact hx
  · exact hx'

/-- What comes next, after `x` if need be. -/
theorem optional {c : Prop} [Decidable c] (hx : Extends x y) (a : α)
    (hf : ∀ a, Extends (f a) (g a)) :
    Extends (if c then x >>= f else f a) (if c then y >>= g else g a) :=
  (hx.bind hf).ite (hf a)

theorem either {c : Prop} [Decidable c] {x' y' : Reader α} (hx : Extends x y) (hx' : Extends x' y')
    (hf : ∀ a, Extends (f a) (g a)) :
    Extends (if c then x >>= f else x' >>= f) (if c then y >>= g else y' >>= g) :=
  (hx.bind hf).ite (hx'.bind hf)

theorem rounds {loop : Reader.Rounds → Reader α}
    (h : ∀ r more, Extends (loop r) (loop (r ++ more))) :
    Extends (Reader.rounds >>= loop) (Reader.rounds >>= loop) := by
  intro src a rest hok
  rw [run_bind_of_ok (x := Reader.rounds) rfl] at hok
  obtain ⟨hrest, hmore⟩ := h _ [] _ _ _ hok
  refine ⟨hrest, fun hne more failure => ?_⟩
  rw [run_bind_of_ok (x := Reader.rounds) rfl]
  exact (h (0 :: src.bytes) more _ _ _ hok).2 hne more failure

/-! ## Bytes -/

theorem peek : Extends Reader.peek Reader.peek := by
  rintro ⟨bytes, failure⟩ a rest h
  cases bytes with
  | nil =>
      cases failure with
      | none =>
          cases h
          exact ⟨List.suffix_rfl, fun hne => absurd rfl hne⟩
      | some cause => cases h
  | cons b bytes =>
      cases h
      exact ⟨List.suffix_rfl, fun _ _ _ => rfl⟩

theorem drop : Extends Reader.drop Reader.drop := by
  rintro ⟨bytes, failure⟩ a rest h
  cases h
  refine ⟨List.tail_suffix bytes, fun hne more failure => ?_⟩
  cases bytes with
  | nil => exact absurd rfl hne
  | cons b bytes => rfl

theorem skipBlanks : Extends Reader.skipBlanks Reader.skipBlanks := by
  intro src a rest h
  obtain ⟨hrest, hpeek⟩ := peek _ _ _ h
  refine ⟨hrest.trans (List.dropWhile_suffix _), fun hne more failure => ?_⟩
  have hdrop : (src.bytes ++ more).dropWhile isBlank = src.bytes.dropWhile isBlank ++ more := by
    rw [List.dropWhile_append, if_neg]
    intro hnil
    rw [List.isEmpty_iff] at hnil
    simp only [hnil] at hrest
    exact hne (List.suffix_nil.1 hrest)
  rw [Reader.skipBlanks, hdrop]
  exact hpeek hne more failure

theorem digits : Extends Reader.digits Reader.digits := by
  intro src a rest h
  cases h
  refine ⟨List.dropWhile_suffix _, fun hne more failure => ?_⟩
  have hempty : ¬ (src.bytes.dropWhile Numeral.isDigit).isEmpty = true :=
    fun hnil => hne (List.isEmpty_iff.1 hnil)
  have hlength : (src.bytes.takeWhile Numeral.isDigit).length ≠ src.bytes.length := by
    intro hlength
    have hsum := congrArg List.length
      (List.takeWhile_append_dropWhile (p := Numeral.isDigit) (l := src.bytes))
    rw [List.length_append, hlength] at hsum
    exact hne (List.eq_nil_of_length_eq_zero (Nat.add_eq_left.1 hsum))
  rw [Reader.digits]
  simp only [List.takeWhile_append, hlength, List.dropWhile_append, hempty, ↓reduceIte,
    Bool.false_eq_true]

theorem next (fault : Fault) : Extends (Reader.next fault) (Reader.next fault) :=
  peek.bind fun
    | some b => drop.bind fun _ => .pure b
    | none => .throw fault

theorem start : Extends Reader.start Reader.start :=
  skipBlanks.bind fun
    | some b => .pure b
    | none => .throw _

theorem colon : Extends Reader.colon Reader.colon :=
  skipBlanks.bind fun
    | some _ => .ite drop (.throw _)
    | none => .throw _

theorem literal (bytes : Bytes) : Extends (Reader.literal bytes) (Reader.literal bytes) := by
  induction bytes with
  | nil => exact .pure ()
  | cons b bytes ih => exact (next _).bind fun _ => .ite ih (.throw _)

/-! ## Numbers -/

theorem real (positive : Bool) (significand : Nat) (exponent : Int) :
    Extends (Reader.real positive significand exponent)
      (Reader.real positive significand exponent) := by
  rw [Reader.real]
  split
  · exact .pure _
  · exact .throw _

theorem exponent (positive : Bool) (significand : Nat) (start : Int) :
    Extends (Reader.exponent positive significand start)
      (Reader.exponent positive significand start) := by
  refine drop.bind fun _ => peek.bind fun sign => drop.optional () fun _ =>
    (next _).bind fun first => (throw _).optional () fun _ => digits.bind fun run => ?_
  cases Numeral.below? (Nat.pow 2 31) (first :: run) with
  | some value => exact peek.bind fun _ => real positive significand _
  | none => exact (throw _).optional () fun _ => peek.bind fun _ => pure _

theorem fraction (positive : Bool) (significand : Nat) (start : Int) :
    Extends (Reader.fraction positive significand start)
      (Reader.fraction positive significand start) :=
  drop.bind fun _ => digits.bind fun _ => peek.bind fun _ => (throw _).optional () fun _ =>
    .ite (exponent positive _ _) (real positive _ _)

theorem number (positive : Bool) : Extends (Reader.number positive) (Reader.number positive) :=
  (next _).bind fun _ => (throw _).optional () fun _ => (pure []).either digits fun _ =>
    peek.bind fun _ => (throw _).optional () fun _ =>
      .ite (fraction positive _ _) <| .ite (exponent positive _ _) <| .ite (real positive _ _) <|
        .ite (pure _) <| .ite (pure _) (real positive _ _)

/-! ## Texts -/

theorem hexEscape : Extends Reader.hexEscape Reader.hexEscape := by
  refine (next _).bind fun a => (next _).bind fun b => (next _).bind fun c =>
    (next _).bind fun d => ?_
  split
  · exact pure _
  · exact throw _

theorem pairByte (b : UInt8) : Extends (Reader.pairByte b) (Reader.pairByte b) :=
  (next _).bind fun _ => .ite (throw _) (pure _)

theorem numberedEscape : Extends Reader.numberedEscape Reader.numberedEscape :=
  hexEscape.bind fun _ => .ite (throw _) <| .ite
    ((pairByte _).bind fun _ => (pairByte _).bind fun _ => hexEscape.bind fun _ =>
      .ite (pure _) (throw _))
    (pure _)

theorem escape : Extends Reader.escape Reader.escape := by
  refine (next _).bind fun b => numberedEscape.ite ?_
  cases shortEscape? b with
  | some resolved => exact pure _
  | none => exact throw _

theorem textBytes (r more : Reader.Rounds) :
    Extends (Reader.textBytes r) (Reader.textBytes (r ++ more)) := by
  induction r with
  | nil => exact throw _
  | cons _ r ih =>
      exact (next _).bind fun _ => .ite (pure _) <| .ite
        (escape.bind fun _ => ih.bind fun _ => pure _) <|
          .ite (throw _) (ih.bind fun _ => pure _)

theorem text : Extends Reader.text Reader.text := by
  refine rounds fun r more => (textBytes r more).bind fun bytes => ?_
  cases Text.ofUtf8? bytes with
  | some s => exact pure _
  | none => exact throw _

/-! ## Values that are skipped -/

theorem skipExponent : Extends Reader.skipExponent Reader.skipExponent :=
  drop.bind fun _ => peek.bind fun _ => drop.optional () fun _ => (next _).bind fun _ =>
    (throw _).optional () fun _ => digits.bind fun _ => peek.bind fun _ => pure _

theorem skipNumber : Extends Reader.skipNumber Reader.skipNumber :=
  (next _).bind fun _ => (throw _).optional () fun _ => digits.optional [] fun _ =>
    peek.bind fun _ => (throw _).optional () fun _ => .ite
      (drop.bind fun _ => digits.bind fun _ => peek.bind fun _ =>
        (throw _).optional () fun _ => skipExponent.ite (pure _))
      (skipExponent.ite (pure _))

theorem skipText (r more : Reader.Rounds) :
    Extends (Reader.skipText r) (Reader.skipText (r ++ more)) := by
  induction r with
  | nil => exact throw _
  | cons _ r ih =>
      exact (next _).bind fun _ => .ite (pure _) <| .ite
        ((next _).bind fun _ => .ite (hexEscape.bind fun _ => ih)
          ((throw _).optional () fun _ => ih))
        (.ite (throw _) ih)

theorem skipKey (frame : Frame) : Extends (Reader.skipKey frame) (Reader.skipKey frame) := by
  have tail : Extends (do Reader.skipText (← Reader.rounds); Reader.colon)
      (do Reader.skipText (← Reader.rounds); Reader.colon) :=
    rounds fun r more => (skipText r more).bind fun _ => colon
  cases frame with
  | list => exact pure ()
  | object =>
      exact skipBlanks.bind fun
        | some _ => drop.either (throw _) fun _ => tail
        | none => (throw _).bind fun _ => tail

theorem skipOrOpen : Extends Reader.skipOrOpen Reader.skipOrOpen :=
  have literal (bytes : Bytes) := drop.bind fun _ => (literal bytes).bind fun _ =>
    pure (none : Option Frame)
  skipBlanks.bind fun
    | none => throw _
    | some _ => .ite (literal _) <| .ite (literal _) <| .ite (literal _) <|
        .ite (drop.bind fun _ => skipNumber.bind fun _ => pure _) <|
          .ite (skipNumber.bind fun _ => pure _) <|
            .ite (drop.bind fun _ => rounds fun r more => (skipText r more).bind fun _ => pure _) <|
              .ite (drop.bind fun _ => pure _) <| .ite (drop.bind fun _ => pure _) (throw _)

theorem closes (frame : Frame) : Extends (Reader.closes frame) (Reader.closes frame) :=
  skipBlanks.bind fun
    | none => throw _
    | some _ => .ite (drop.bind fun _ => pure _) (pure _)

theorem comma (frame : Frame) : Extends (Reader.comma frame) (Reader.comma frame) :=
  skipBlanks.bind fun _ => drop.ite (throw _)

theorem skipFrom (phase : Phase) (frames : List Frame) (r more : Reader.Rounds) :
    Extends (Reader.skipFrom phase frames r) (Reader.skipFrom phase frames (r ++ more)) := by
  induction r generalizing phase frames with
  | nil => exact throw _
  | cons _ r ih =>
      cases phase with
      | value =>
          exact skipOrOpen.bind fun
            | none => ih _ _
            | some frame => (closes frame).bind fun _ => (ih _ _).ite <|
                (skipKey frame).bind fun _ => ih _ _
      | behind =>
          cases frames with
          | nil => exact pure ()
          | cons frame outer =>
              exact (closes frame).bind fun _ => (ih _ _).ite <|
                (comma frame).bind fun _ => (skipKey frame).bind fun _ => ih _ _

theorem skip : Extends Reader.skip Reader.skip := rounds fun r more => skipFrom _ _ r more

/-! ## Values -/

theorem wrongKind (expected : String) :
    Extends (Reader.wrongKind expected : Reader α) (Reader.wrongKind expected) := by
  rw [Reader.wrongKind]
  extract_lets rest
  have hrest (x : Reader Found) (hx : Extends x x) : Extends (x >>= rest) (x >>= rest) :=
    hx.bind fun _ => throw _
  have hliteral (bytes : Bytes) (found : Found) := drop.bind fun _ => (literal bytes).bind fun _ =>
    hrest _ (pure found)
  exact peek.bind fun
    | none => hrest _ (throw _)
    | some _ => .ite (hliteral _ _) <| .ite (hliteral _ _) <| .ite (hliteral _ _) <|
        .ite (drop.bind fun _ => (number false).bind fun _ => hrest _ (pure _)) <|
          .ite ((number true).bind fun _ => hrest _ (pure _)) <|
            .ite (drop.bind fun _ => text.bind fun _ => hrest _ (pure _)) <|
              .ite (hrest _ (pure _)) <| .ite (hrest _ (pure _)) (hrest _ (throw _))

theorem natural (expected : String) :
    Extends (Reader.natural expected) (Reader.natural expected) := by
  rw [Reader.natural]
  extract_lets rest
  refine start.bind fun b => ?_
  have hrest : ∀ value, Extends (rest value) (rest value) := by
    intro value
    cases value with
    | natural n => exact pure n
    | negative n => exact throw _
    | real x => exact throw _
  exact .ite (drop.bind fun _ => (number false).bind hrest) <|
    .ite ((number true).bind hrest) ((wrongKind expected).bind hrest)

theorem listGoesOn (first : Bool) : Extends (Reader.listGoesOn first) (Reader.listGoesOn first) :=
  skipBlanks.bind fun
    | none => throw _
    | some _ => .ite (pure _) <| .ite (pure _) <| .ite
        (drop.bind fun _ => skipBlanks.bind fun
          | none => throw _
          | some _ => .ite (throw _) (pure _))
        (throw _)

theorem items {item : Reader α} (h : Extends item item) (first : Bool) (r more : Reader.Rounds) :
    Extends (Reader.items item first r) (Reader.items item first (r ++ more)) := by
  induction r generalizing first with
  | nil => exact throw _
  | cons _ r ih =>
      exact (listGoesOn first).bind fun _ => .ite
        (h.bind fun _ => (ih _).bind fun _ => pure _) (pure _)

theorem list {item : Reader α} (h : Extends item item) :
    Extends (Reader.list item) (Reader.list item) :=
  start.bind fun _ => .ite
    (drop.bind fun _ => rounds fun r more => (items h true r more).bind fun _ =>
      drop.bind fun _ => pure _)
    (wrongKind _)

theorem objectGoesOn (first : Bool) :
    Extends (Reader.objectGoesOn first) (Reader.objectGoesOn first) :=
  skipBlanks.bind fun
    | none => throw _
    | some _ => .ite (pure _) <| .ite (.ite (pure _) (throw _)) <| .ite
        (drop.bind fun _ => skipBlanks.bind fun
          | none => throw _
          | some _ => .ite (pure _) <| .ite (throw _) (throw _))
        (throw _)

theorem entries {σ : Type} {fields : List (Field σ)}
    (h : ∀ field ∈ fields, ∀ record, Extends (field.fill record) (field.fill record))
    (first : Bool) (record : σ) (r more : Reader.Rounds) :
    Extends (Reader.entries fields first record r)
      (Reader.entries fields first record (r ++ more)) := by
  induction r generalizing first record with
  | nil => exact throw _
  | cons _ r ih =>
      refine (objectGoesOn first).bind fun _ => .ite
        (drop.bind fun _ => text.bind fun key => ?_) (pure _)
      cases hfield : fields.find? (·.name = key) with
      | none => exact colon.bind fun _ => skip.bind fun _ => (pure record).bind fun _ => ih _ _
      | some field =>
          exact .ite ((throw _).bind fun _ => ih _ _) <| colon.bind fun _ =>
            (h field (List.mem_of_find?_eq_some hfield) record).bind fun _ => ih _ _

end Extends

end FiniteReach.Json
