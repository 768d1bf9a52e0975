import FiniteReach.Proofs.Json.Extension
import FiniteReach.Proofs.Json.Values
import Mathlib.Data.List.TakeWhile

/-!
# A grammar of objects

What stands in a JSON text is told by what comes next and what is left after it: a byte behind blanks
(`Token`), `null`, a text, a key with its colon, and the members of an object. Of values only so much
is told as settings need (`Content`). The readers that look at one byte or one value read by this
grammar and in no other way.
-/

namespace FiniteReach

namespace Json

/-! ## The grammar -/

/-- After some blanks `b` comes next, and then the rest. -/
inductive Token : Source → UInt8 → Source → Prop where
  | after {blanks bytes : Bytes} {b : UInt8} {failure : Option IoFault} :
      (∀ x ∈ blanks, isBlank x = true) → isBlank b = false →
      Token ⟨blanks ++ b :: bytes, failure⟩ b ⟨bytes, failure⟩

/-- `null` comes next. -/
def Null (src rest : Source) : Prop :=
  ∃ mid, Token src 110 mid ∧ Reader.literal [117, 108, 108] mid = .ok ((), rest)

/-- A text comes next. -/
def Quoted (src : Source) (s : String) (rest : Source) : Prop :=
  ∃ mid, Token src 34 mid ∧ Reader.text mid = .ok (s, rest)

/-- The quote of a key comes next, after a comma unless it is the first key of its object. -/
inductive KeyQuote : Bool → Source → Source → Prop where
  | first {src rest : Source} : Token src 34 rest → KeyQuote true src rest
  | further {src mid rest : Source} : Token src 44 mid → Token mid 34 rest → KeyQuote false src rest

/-- A key and its colon come next. -/
def Key (first : Bool) (src : Source) (key : String) (rest : Source) : Prop :=
  ∃ mid next, KeyQuote first src mid ∧ Reader.text mid = .ok (key, next) ∧ Token next 58 rest

/-- A value, as far as settings look at it. -/
inductive Content where
  | null
  | text (s : String)
  /-- An object with one member, which is `null`. -/
  | tag (name : String)
  /-- A value of any kind that is not looked at. -/
  | unseen
  deriving DecidableEq, Repr

/-- A value comes next. -/
inductive Content.Stands : Content → Source → Source → Prop where
  | null {src rest : Source} : Null src rest → Stands .null src rest
  | text {src rest : Source} {s : String} : Quoted src s rest → Stands (.text s) src rest
  | tag {src inner value closing rest : Source} {name : String} : Token src 123 inner →
      Key true inner name value → Null value closing → Token closing 125 rest →
      Stands (.tag name) src rest
  | unseen {src rest : Source} : Reader.skip src = .ok ((), rest) → Stands .unseen src rest

/-- The members of an object come next, and its closing brace. -/
inductive Members : Bool → Source → List (String × Content) → Source → Prop where
  | done {first : Bool} {src rest : Source} : Token src 125 rest → Members first src [] rest
  | member {first : Bool} {src mid next rest : Source} {key : String} {content : Content}
      {members : List (String × Content)} : Key first src key mid → content.Stands mid next →
      Members false next members rest → Members first src ((key, content) :: members) rest

/-! ## Reading by the grammar -/

namespace Reader

variable {α β : Type} {src mid rest : Source} {b : UInt8}

theorem skipBlanks_eq_ok_some : skipBlanks src = .ok (some b, mid) ↔
    ∃ rest, Token src b rest ∧ mid = ⟨b :: rest.bytes, rest.failure⟩ := by
  constructor
  · intro h
    obtain ⟨bytes, failure⟩ := src
    have hsplit := List.takeWhile_append_dropWhile (p := isBlank) (l := bytes)
    rw [skipBlanks] at h
    cases hdrop : bytes.dropWhile isBlank with
    | nil =>
        rw [hdrop] at h
        cases failure <;> cases h
    | cons b' bytes' =>
        rw [hdrop] at h hsplit
        cases h
        refine ⟨⟨bytes', failure⟩, ?_, rfl⟩
        rw [← hsplit]
        refine .after (fun x hx => List.mem_takeWhile_imp hx) ?_
        have hhead := List.head?_dropWhile_not isBlank bytes
        rw [hdrop] at hhead
        simpa using hhead
  · rintro ⟨rest, h, rfl⟩
    cases h with
    | after hblanks hb => exact (skipBlanks_append hblanks).trans (skipBlanks_cons hb)

theorem skipBlanks_eq_ok_none : skipBlanks src = .ok (none, mid) ↔
    (∀ x ∈ src.bytes, isBlank x = true) ∧ src.failure = none ∧ mid = ⟨[], none⟩ := by
  obtain ⟨bytes, failure⟩ := src
  rw [skipBlanks, ← List.dropWhile_eq_nil_iff]
  cases hdrop : bytes.dropWhile isBlank with
  | nil =>
      cases failure with
      | none => simp [peek, eq_comm]
      | some cause => simp [peek]
  | cons b bytes => simp [peek]

/-- Blanks that have been skipped make no difference to what is read behind them. -/
theorem skipBlanks_bind_of_skipBlanks {after : Option UInt8}
    (h : skipBlanks src = .ok (after, mid)) (f : Option UInt8 → Reader α) :
    (skipBlanks >>= f) mid = (skipBlanks >>= f) src := by
  have hagain : skipBlanks mid = skipBlanks src := by
    cases after with
    | none =>
        obtain ⟨_, _, rfl⟩ := skipBlanks_eq_ok_none.1 h
        exact h.symm
    | some b =>
        obtain ⟨rest, hrest, rfl⟩ := skipBlanks_eq_ok_some.1 h
        cases hrest with
        | after _ hb => exact (skipBlanks_cons hb).trans h.symm
  change (skipBlanks mid >>= _) = (skipBlanks src >>= _)
  rw [hagain]

theorem start_bind_of_skipBlanks {after : Option UInt8} (h : skipBlanks src = .ok (after, mid))
    (f : UInt8 → Reader α) : (start >>= f) mid = (start >>= f) src := by
  rw [start, bind_assoc]
  exact skipBlanks_bind_of_skipBlanks h _

theorem nullable_of_skipBlanks {after : Option UInt8} (h : skipBlanks src = .ok (after, mid))
    (value : Reader α) : nullable value mid = nullable value src :=
  skipBlanks_bind_of_skipBlanks h _

theorem drop_bind_cons {bytes : Bytes} {failure : Option IoFault} (f : Unit → Reader α) :
    (drop >>= f) ⟨b :: bytes, failure⟩ = f () ⟨bytes, failure⟩ := rfl

/-- A reader that never gets through. -/
def Fails (x : Reader α) : Prop := ∀ src a, x src ≠ .ok a

theorem fails_throw (fault : Fault) : Fails (throw fault : Reader α) := nofun

theorem Fails.bind {f : α → Reader β} (h : ∀ a, Fails (f a)) (x : Reader α) :
    Fails (x >>= f) := by
  rintro src ⟨b, rest⟩ hok
  obtain ⟨a, mid, _, hf⟩ := run_bind_eq_ok.1 hok
  exact h a mid _ hf

theorem Fails.ite {c : Prop} [Decidable c] {x y : Reader α} (hx : Fails x) (hy : Fails y) :
    Fails (if c then x else y) := by
  split
  · exact hx
  · exact hy

theorem fails_wrongKind (expected : String) : Fails (wrongKind expected : Reader α) := by
  rw [wrongKind]
  extract_lets rest
  have hrest (x : Reader Found) : Fails (x >>= rest) := .bind (fun _ => fails_throw _) x
  have hliteral (bytes : Bytes) (found : Found) := Fails.bind
    (fun _ => .bind (fun _ => hrest (pure found)) (literal bytes)) drop
  refine .bind (fun after => ?_) peek
  cases after with
  | none => exact hrest _
  | some b =>
      exact .ite (hliteral _ _) <| .ite (hliteral _ _) <| .ite (hliteral _ _) <|
        .ite (.bind (fun _ => .bind (fun _ => hrest _) _) drop) <|
          .ite (.bind (fun _ => hrest _) _) <|
            .ite (.bind (fun _ => .bind (fun _ => hrest _) text) drop) <|
              .ite (hrest _) <| .ite (hrest _) (hrest _)

/-! ## One byte that decides -/

theorem skipBlanks_bind_eq_ok {g : Option UInt8 → Reader α} (hg : Fails (g none)) {a : α} :
    (skipBlanks >>= g) src = .ok (a, rest) ↔
      ∃ b mid, Token src b mid ∧ g (some b) ⟨b :: mid.bytes, mid.failure⟩ = .ok (a, rest) := by
  rw [run_bind_eq_ok]
  constructor
  · rintro ⟨after, mid, hskip, h⟩
    cases after with
    | none => cases hg _ _ h
    | some b =>
        obtain ⟨mid, htoken, rfl⟩ := skipBlanks_eq_ok_some.1 hskip
        exact ⟨b, mid, htoken, h⟩
  · rintro ⟨b, mid, htoken, h⟩
    exact ⟨some b, _, skipBlanks_eq_ok_some.2 ⟨mid, htoken, rfl⟩, h⟩

theorem start_bind_eq_ok {f : UInt8 → Reader α} {a : α} : (start >>= f) src = .ok (a, rest) ↔
    ∃ b mid, Token src b mid ∧ f b ⟨b :: mid.bytes, mid.failure⟩ = .ok (a, rest) := by
  rw [start, bind_assoc, skipBlanks_bind_eq_ok (fun _ _ h => by cases h)]
  exact Iff.rfl

/-- Only one byte is let through. -/
theorem token_ite_eq_ok {c : UInt8} {x : Reader α} {y : UInt8 → Reader α} {a : α}
    (hy : ∀ b, Fails (y b)) :
    (∃ b mid, Token src b mid ∧
      (if b = c then x else y b) ⟨b :: mid.bytes, mid.failure⟩ = .ok (a, rest)) ↔
    ∃ mid, Token src c mid ∧ x ⟨c :: mid.bytes, mid.failure⟩ = .ok (a, rest) := by
  constructor
  · rintro ⟨b, mid, htoken, h⟩
    split at h
    · next hb => exact ⟨mid, hb ▸ htoken, hb ▸ h⟩
    · cases hy b _ _ h
  · rintro ⟨mid, htoken, h⟩
    refine ⟨c, mid, htoken, ?_⟩
    rw [if_pos rfl]
    exact h

theorem token_drop_eq_ok {c : UInt8} :
    (∃ mid, Token src c mid ∧ drop ⟨c :: mid.bytes, mid.failure⟩ = .ok ((), rest)) ↔
      Token src c rest := by
  constructor
  · rintro ⟨mid, htoken, h⟩
    cases h
    exact htoken
  · intro htoken
    exact ⟨rest, htoken, rfl⟩

theorem quotedText_eq_ok {expected s : String} :
    quotedText expected src = .ok (s, rest) ↔ Quoted src s rest := by
  rw [quotedText, start_bind_eq_ok, token_ite_eq_ok fun _ => fails_wrongKind expected]
  exact Iff.rfl

theorem null_eq_ok {expected : String} : null expected src = .ok ((), rest) ↔ Null src rest := by
  rw [null, start_bind_eq_ok, token_ite_eq_ok fun _ => fails_wrongKind expected]
  exact Iff.rfl

theorem colon_eq_ok : colon src = .ok ((), rest) ↔ Token src 58 rest := by
  rw [colon, skipBlanks_bind_eq_ok (fails_throw _)]
  exact (token_ite_eq_ok fun _ => fails_throw _).trans token_drop_eq_ok

/-- A value or `null`, if the values do not start with the letter `n`. -/
theorem nullable_eq_ok {f : UInt8 → Reader α} (hf : Fails (f 110)) {wish : Option α} :
    nullable (start >>= f) src = .ok (wish, rest) ↔
      (wish = none ∧ Null src rest) ∨
        ∃ a, wish = some a ∧ (start >>= f) src = .ok (a, rest) := by
  rw [nullable, run_bind_eq_ok]
  constructor
  · rintro ⟨after, mid, hskip, h⟩
    split at h
    · next hn =>
        subst hn
        obtain ⟨next, htoken, rfl⟩ := skipBlanks_eq_ok_some.1 hskip
        rw [drop_bind_cons, run_bind_eq_ok] at h
        obtain ⟨_, _, hliteral, hnone⟩ := h
        obtain ⟨rfl, rfl⟩ := run_pure_eq_ok.1 hnone
        exact .inl ⟨rfl, next, htoken, hliteral⟩
    · obtain ⟨a, _, hvalue, hsome⟩ := run_bind_eq_ok.1 h
      obtain ⟨rfl, rfl⟩ := run_pure_eq_ok.1 hsome
      rw [start_bind_of_skipBlanks hskip] at hvalue
      exact .inr ⟨a, rfl, hvalue⟩
  · rintro (⟨rfl, mid, htoken, hliteral⟩ | ⟨a, rfl, hvalue⟩)
    · refine ⟨some 110, _, skipBlanks_eq_ok_some.2 ⟨mid, htoken, rfl⟩, ?_⟩
      rw [if_pos rfl, drop_bind_cons, run_bind_of_ok hliteral]
      rfl
    · obtain ⟨b, mid, htoken, hb⟩ := start_bind_eq_ok.1 hvalue
      have hskip := skipBlanks_eq_ok_some.2 ⟨mid, htoken, rfl⟩
      refine ⟨some b, _, hskip, ?_⟩
      rw [if_neg, run_bind_of_ok ((start_bind_of_skipBlanks hskip f).trans hvalue)]
      · rfl
      · rintro hn
        cases hn
        exact hf _ _ hb

/-! ## Lists and objects that go on -/

theorem objectGoesOn_eq_ok {first goes : Bool} : objectGoesOn first src = .ok (goes, mid) ↔
    (goes = false ∧ ∃ rest, Token src 125 rest ∧ mid = ⟨125 :: rest.bytes, rest.failure⟩) ∨
      (goes = true ∧ ∃ rest, KeyQuote first src rest ∧ mid = ⟨34 :: rest.bytes, rest.failure⟩) := by
  rw [objectGoesOn, skipBlanks_bind_eq_ok (fails_throw _)]
  constructor
  · rintro ⟨b, next, htoken, h⟩
    simp only at h
    split at h
    · next hb =>
        obtain ⟨rfl, rfl⟩ := run_pure_eq_ok.1 h
        exact .inl ⟨rfl, next, hb ▸ htoken, hb ▸ rfl⟩
    cases first with
    | true =>
        rw [if_pos rfl] at h
        split at h
        · next hb =>
            obtain ⟨rfl, rfl⟩ := run_pure_eq_ok.1 h
            exact .inr ⟨rfl, next, .first (hb ▸ htoken), hb ▸ rfl⟩
        · cases h
    | false =>
        rw [if_neg Bool.false_ne_true] at h
        split at h
        · next hb =>
            subst hb
            rw [drop_bind_cons, skipBlanks_bind_eq_ok (fails_throw _)] at h
            obtain ⟨next', htoken', h⟩ :=
              (token_ite_eq_ok fun _ => .ite (fails_throw _) (fails_throw _)).1 h
            obtain ⟨rfl, rfl⟩ := run_pure_eq_ok.1 h
            exact .inr ⟨rfl, next', .further htoken htoken', rfl⟩
        · cases h
  · rintro (⟨rfl, rest, htoken, rfl⟩ | ⟨rfl, rest, hquote, rfl⟩)
    · exact ⟨125, rest, htoken, rfl⟩
    · cases hquote with
      | first htoken => exact ⟨34, rest, htoken, rfl⟩
      | @further _ comma _ hcomma htoken =>
          refine ⟨44, comma, hcomma, ?_⟩
          simp only
          rw [if_neg (by decide), if_neg (by decide), if_pos trivial, drop_bind_cons,
            skipBlanks_bind_eq_ok (fails_throw _)]
          exact ⟨34, rest, htoken, rfl⟩

theorem listGoesOn_eq_true : listGoesOn true src = .ok (true, mid) ↔
    ∃ b rest, Token src b rest ∧ b ≠ 93 ∧ mid = ⟨b :: rest.bytes, rest.failure⟩ := by
  rw [listGoesOn, skipBlanks_bind_eq_ok (fails_throw _)]
  constructor
  · rintro ⟨b, rest, htoken, h⟩
    simp only at h
    split at h
    · cases h
    · next hb =>
        obtain ⟨_, rfl⟩ := run_pure_eq_ok.1 h
        exact ⟨b, rest, htoken, hb, rfl⟩
  · rintro ⟨b, rest, htoken, hb, rfl⟩
    refine ⟨b, rest, htoken, ?_⟩
    simp only
    rw [if_neg hb]
    rfl

/-- After the first value of a list, a comma is taken away and a value must follow. -/
theorem listGoesOn_false_eq_true : listGoesOn false src = .ok (true, mid) ↔
    ∃ comma, Token src 44 comma ∧ listGoesOn true comma = .ok (true, mid) := by
  simp only [listGoesOn_eq_true]
  rw [listGoesOn, skipBlanks_bind_eq_ok (fails_throw _)]
  constructor
  · rintro ⟨b, comma, hcomma, h⟩
    simp only [Bool.false_eq_true, ↓reduceIte] at h
    split at h
    · cases h
    split at h
    · next hb =>
        subst hb
        rw [drop_bind_cons, skipBlanks_bind_eq_ok (fails_throw _)] at h
        obtain ⟨b, rest, htoken, h⟩ := h
        simp only at h
        split at h
        · cases h
        · next hb =>
            obtain ⟨_, rfl⟩ := run_pure_eq_ok.1 h
            exact ⟨comma, hcomma, b, rest, htoken, hb, rfl⟩
    · cases h
  · rintro ⟨comma, hcomma, b, rest, htoken, hb, rfl⟩
    refine ⟨44, comma, hcomma, ?_⟩
    simp only
    rw [if_neg (by decide), if_neg (by decide), if_pos trivial, drop_bind_cons,
      skipBlanks_bind_eq_ok (fails_throw _)]
    refine ⟨b, rest, htoken, ?_⟩
    simp only
    rw [if_neg hb]
    rfl

theorem closeList_eq_ok : closeList src = .ok ((), rest) ↔ Token src 93 rest := by
  have hcomma (b : UInt8) : Fails (if b = 44 then do
      drop
      let after ← tryCatch skipBlanks fun _ => pure none
      throw (if after = some 93 then .trailingComma else .trailingCharacters)
      else throw .trailingCharacters : Reader Unit) :=
    .ite (.bind (fun _ => .bind (fun _ => fails_throw _) _) _) (fails_throw _)
  rw [closeList, skipBlanks_bind_eq_ok (fails_throw _)]
  exact (token_ite_eq_ok hcomma).trans token_drop_eq_ok

end Reader

/-! ## Lengths -/

section Lengths

variable {α : Type} {src rest : Source} {b : UInt8} {key s : String} {first : Bool}
  {content : Content} {members : List (String × Content)}

theorem Token.length_lt (h : Token src b rest) : rest.bytes.length < src.bytes.length := by
  cases h with
  | after _ _ =>
      simp only [List.length_append, List.length_cons]
      omega

theorem Extends.length_le {x : Reader α} (hx : Extends x x) {a : α} (h : x src = .ok (a, rest)) :
    rest.bytes.length ≤ src.bytes.length := (hx _ _ _ h).1.length_le

theorem Null.length_lt (h : Null src rest) : rest.bytes.length < src.bytes.length := by
  obtain ⟨mid, htoken, hliteral⟩ := h
  exact ((Extends.literal _).length_le hliteral).trans_lt htoken.length_lt

theorem Quoted.length_lt (h : Quoted src s rest) : rest.bytes.length < src.bytes.length := by
  obtain ⟨mid, htoken, htext⟩ := h
  exact (Extends.text.length_le htext).trans_lt htoken.length_lt

theorem KeyQuote.length_lt (h : KeyQuote first src rest) :
    rest.bytes.length < src.bytes.length := by
  cases h with
  | first htoken => exact htoken.length_lt
  | further hcomma htoken => exact htoken.length_lt.trans hcomma.length_lt

theorem Key.length_lt (h : Key first src key rest) : rest.bytes.length < src.bytes.length := by
  obtain ⟨mid, next, hquote, htext, hcolon⟩ := h
  exact (hcolon.length_lt.trans_le (Extends.text.length_le htext)).trans hquote.length_lt

theorem Content.Stands.length_le (h : content.Stands src rest) :
    rest.bytes.length ≤ src.bytes.length := by
  cases h with
  | null h => exact h.length_lt.le
  | text h => exact h.length_lt.le
  | tag hopen hkey hnull hclose =>
      exact (((hclose.length_lt.trans hnull.length_lt).trans hkey.length_lt).trans
        hopen.length_lt).le
  | unseen h => exact Extends.skip.length_le h

/-- Each member takes at least one byte, and so does the closing brace. -/
theorem Members.length_lt (h : Members first src members rest) :
    members.length < src.bytes.length := by
  induction h with
  | done htoken => exact (Nat.zero_le _).trans_lt htoken.length_lt
  | member hkey hstands _ ih =>
      exact (Nat.succ_le_of_lt (ih.trans_le hstands.length_le)).trans_lt hkey.length_lt

end Lengths

end Json

end FiniteReach
