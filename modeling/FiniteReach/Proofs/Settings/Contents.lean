import FiniteReach.Settings
import FiniteReach.Proofs.Json.Tokens

/-!
# What a settings file says

The content of a settings file is a JSON object whose members give each field at most once, or a list
of both fields. A field is a text of its own kind or `null`, and a field that is left out is as good
as `null`. Members of other names may hold anything (`Says`). These contents are read, and no others
(`read_eq_ok_iff`).
-/

namespace FiniteReach

namespace Settings

open Json Json.Reader

variable {src mid rest : Source} {b : UInt8} {key : String} {content : Content}

/-! ## What the values of fields mean -/

/-- A text is the path of an automaton. -/
def IsPath (name : String) (content : Content) : Prop := content = .text name

/-- A layout is given by its name or by an object with that name. -/
def IsLayout (layout : Layout) (content : Content) : Prop :=
  content = .text layout.name ∨ content = .tag layout.name

/-- What a value means to a field: `null` that there is no wish. -/
inductive Means {α : Type} (is : α → Content → Prop) : Content → Option α → Prop where
  | null : Means is .null none
  | some {a : α} {content : Content} : is a content → Means is content (some a)

/-- A value of a field is read if its texts are, and none of these starts like `null`. -/
theorem nullable_eq_ok_means {α : Type} {is : α → Content → Prop} {f : UInt8 → Reader α}
    {wish : Option α} (hfails : Fails (f 110))
    (hvalue : ∀ a, (start >>= f) src = .ok (a, rest) ↔
      ∃ content, is a content ∧ content.Stands src rest) :
    nullable (start >>= f) src = .ok (wish, rest) ↔
      ∃ content, Means is content wish ∧ content.Stands src rest := by
  rw [nullable_eq_ok hfails]
  constructor
  · rintro (⟨rfl, h⟩ | ⟨a, rfl, h⟩)
    · exact ⟨.null, .null, .null h⟩
    · obtain ⟨content, hcontent, hstands⟩ := (hvalue a).1 h
      exact ⟨content, .some hcontent, hstands⟩
  · rintro ⟨content, hmeans, hstands⟩
    cases hmeans with
    | null =>
        cases hstands with
        | null h => exact .inl ⟨rfl, h⟩
    | @some a _ hcontent => exact .inr ⟨a, rfl, (hvalue a).2 ⟨content, hcontent, hstands⟩⟩

theorem quotedText_eq_ok_stands (expected name : String) :
    quotedText expected src = .ok (name, rest) ↔
      ∃ content, IsPath name content ∧ content.Stands src rest := by
  rw [quotedText_eq_ok]
  constructor
  · intro h
    exact ⟨.text name, rfl, .text h⟩
  · rintro ⟨_, rfl, hstands⟩
    cases hstands with
    | text h => exact h

theorem nullable_quotedText_eq_ok (expected : String) {wish : Option String} :
    nullable (quotedText expected) src = .ok (wish, rest) ↔
      ∃ content, Means IsPath content wish ∧ content.Stands src rest := by
  rw [quotedText]
  exact nullable_eq_ok_means (fails_wrongKind expected) (quotedText_eq_ok_stands expected)

theorem layoutName_eq_ok {bytes : Bytes} {failure : Option IoFault} {layout : Layout} :
    layoutName ⟨b :: bytes, failure⟩ = .ok (layout, rest) ↔
      text ⟨bytes, failure⟩ = .ok (layout.name, rest) := by
  rw [layoutName, drop_bind_cons, run_bind_eq_ok]
  constructor
  · rintro ⟨name, next, htext, h⟩
    split at h
    · next hname =>
        obtain ⟨rfl, rfl⟩ := run_pure_eq_ok.1 h
        exact hname ▸ htext
    split at h
    · next hname =>
        obtain ⟨rfl, rfl⟩ := run_pure_eq_ok.1 h
        exact hname ▸ htext
    · cases h
  · intro htext
    refine ⟨_, _, htext, ?_⟩
    cases layout with
    | stateMajor => rfl
    | legacy => rfl

/-- Reads the one member of an object that names a layout, from the quote of its key on. -/
def layoutTail : Reader Layout := do
  let layout ← layoutName
  colon
  null "unit"
  match ← skipBlanks with
  | none => throw .endInObject
  | some b => if b = 125 then do drop; return layout else throw .expectedValue

/-- Reads a layout that starts with a byte. -/
def layoutFrom (b : UInt8) : Reader Layout :=
  if b = 34 then layoutName
  else if b = 123 then do
    drop
    if ← objectGoesOn true then layoutTail else throw .expectedValue
  else throw .expectedValue

theorem layoutValue_eq : layoutValue = start >>= layoutFrom := by
  rw [layoutValue]
  congr 1
  funext b
  rw [layoutFrom]
  congr 3
  funext _
  congr 1
  funext goes
  cases goes with
  | true => rfl
  | false => rfl

theorem layoutTail_eq_ok {bytes : Bytes} {failure : Option IoFault} {layout : Layout} :
    layoutTail ⟨b :: bytes, failure⟩ = .ok (layout, rest) ↔
      ∃ next value closing, text ⟨bytes, failure⟩ = .ok (layout.name, next) ∧
        Token next 58 value ∧ Null value closing ∧ Token closing 125 rest := by
  rw [layoutTail, run_bind_eq_ok]
  constructor
  · rintro ⟨layout', next, hname, h⟩
    obtain ⟨_, value, hcolon, h⟩ := run_bind_eq_ok.1 h
    obtain ⟨_, closing, hnull, h⟩ := run_bind_eq_ok.1 h
    rw [skipBlanks_bind_eq_ok (fails_throw _)] at h
    obtain ⟨_, htoken, h⟩ := (token_ite_eq_ok fun _ => fails_throw _).1 h
    cases h
    exact ⟨next, value, closing, layoutName_eq_ok.1 hname, colon_eq_ok.1 hcolon,
      null_eq_ok.1 hnull, htoken⟩
  · rintro ⟨next, value, closing, htext, hcolon, hnull, htoken⟩
    refine ⟨layout, next, layoutName_eq_ok.2 htext, ?_⟩
    rw [run_bind_of_ok (colon_eq_ok.2 hcolon), run_bind_of_ok (null_eq_ok.2 hnull),
      skipBlanks_bind_eq_ok (fails_throw _)]
    exact ⟨125, rest, htoken, rfl⟩

theorem layoutValue_eq_ok {layout : Layout} : layoutValue src = .ok (layout, rest) ↔
    ∃ content, IsLayout layout content ∧ content.Stands src rest := by
  rw [layoutValue_eq, start_bind_eq_ok]
  constructor
  · rintro ⟨b, mid, htoken, h⟩
    rw [layoutFrom] at h
    split at h
    · next hb =>
        subst hb
        exact ⟨.text layout.name, .inl rfl, .text ⟨mid, htoken, layoutName_eq_ok.1 h⟩⟩
    split at h
    · next hb =>
        subst hb
        rw [drop_bind_cons] at h
        obtain ⟨goes, mid', hgoes, h⟩ := run_bind_eq_ok.1 h
        rcases objectGoesOn_eq_ok.1 hgoes with ⟨rfl, _⟩ | ⟨rfl, quote, hquote, rfl⟩
        · cases h
        · rw [if_pos rfl, layoutTail_eq_ok] at h
          obtain ⟨next, value, closing, htext, hcolon, hnull, hclosing⟩ := h
          exact ⟨.tag layout.name, .inr rfl,
            .tag htoken ⟨quote, next, hquote, htext, hcolon⟩ hnull hclosing⟩
    · cases h
  · rintro ⟨content, rfl | rfl, hstands⟩
    · cases hstands with
      | text h =>
          obtain ⟨mid, htoken, htext⟩ := h
          exact ⟨34, mid, htoken, layoutName_eq_ok.2 htext⟩
    · cases hstands with
      | @tag _ inner value closing _ _ htoken hkey hnull hclosing =>
          obtain ⟨quote, next, hquote, htext, hcolon⟩ := hkey
          have hgoes := objectGoesOn_eq_ok.2 (.inr ⟨rfl, quote, hquote, rfl⟩)
          refine ⟨123, inner, htoken, ?_⟩
          rw [layoutFrom, if_neg (by decide), if_pos rfl, drop_bind_cons, run_bind_of_ok hgoes,
            if_pos rfl, layoutTail_eq_ok]
          exact ⟨next, value, closing, htext, hcolon, hnull, hclosing⟩

theorem nullable_layoutValue_eq_ok {wish : Option Layout} :
    nullable layoutValue src = .ok (wish, rest) ↔
      ∃ content, Means IsLayout content wish ∧ content.Stands src rest := by
  rw [layoutValue_eq]
  exact nullable_eq_ok_means (fails_throw _) fun _ => layoutValue_eq ▸ layoutValue_eq_ok

/-! ## Members -/

/-- What a member of an object adds to settings that are being read. -/
inductive Draft.Takes : Draft → String × Content → Draft → Prop where
  | automaton {layout : Option (Option Layout)} {key : String} {content : Content}
      {wish : Option String} : key = "automaton_path" → Means IsPath content wish →
      Takes ⟨none, layout⟩ (key, content) ⟨some wish, layout⟩
  | layout {automaton : Option (Option String)} {key : String} {content : Content}
      {wish : Option Layout} : key = "layout" → Means IsLayout content wish →
      Takes ⟨automaton, none⟩ (key, content) ⟨automaton, some wish⟩
  | unseen {draft : Draft} {key : String} : key ≠ "automaton_path" → key ≠ "layout" →
      Takes draft (key, .unseen) draft

namespace Draft

variable {draft draft' : Draft}

theorem takes_automaton : draft.Takes ("automaton_path", content) draft' ↔
    draft.automaton = none ∧
      ∃ wish, Means IsPath content wish ∧ draft' = ⟨some wish, draft.layout⟩ := by
  constructor
  · intro h
    cases h with
    | automaton _ hmeans => exact ⟨rfl, _, hmeans, rfl⟩
    | layout hkey _ => exact absurd hkey (by decide)
    | unseen hkey _ => exact absurd rfl hkey
  · obtain ⟨automaton, layout⟩ := draft
    rintro ⟨rfl, wish, hmeans, rfl⟩
    exact .automaton rfl hmeans

theorem takes_layout : draft.Takes ("layout", content) draft' ↔
    draft.layout = none ∧
      ∃ wish, Means IsLayout content wish ∧ draft' = ⟨draft.automaton, some wish⟩ := by
  constructor
  · intro h
    cases h with
    | automaton hkey _ => exact absurd hkey (by decide)
    | layout _ hmeans => exact ⟨rfl, _, hmeans, rfl⟩
    | unseen _ hkey => exact absurd rfl hkey
  · obtain ⟨automaton, layout⟩ := draft
    rintro ⟨rfl, wish, hmeans, rfl⟩
    exact .layout rfl hmeans

theorem takes_other (hautomaton : key ≠ "automaton_path") (hlayout : key ≠ "layout") :
    draft.Takes (key, content) draft' ↔ content = .unseen ∧ draft' = draft := by
  constructor
  · intro h
    cases h with
    | automaton hkey _ => exact absurd hkey hautomaton
    | layout hkey _ => exact absurd hkey hlayout
    | unseen => exact ⟨rfl, rfl⟩
  · rintro ⟨rfl, rfl⟩
    exact .unseen hautomaton hlayout

end Draft

/-- What the members of an object add one after another. -/
inductive Draft.TakesAll : Draft → List (String × Content) → Draft → Prop where
  | nil {draft : Draft} : TakesAll draft [] draft
  | cons {draft mid draft' : Draft} {member : String × Content}
      {members : List (String × Content)} : draft.Takes member mid →
      TakesAll mid members draft' → TakesAll draft (member :: members) draft'

/-- Reads a member of an object after its key. -/
def Draft.take (draft : Draft) (key : String) : Reader Draft :=
  match shape.fields.find? (·.name = key) with
  | none => do colon; skip; return draft
  | some field =>
    if field.filled draft then throw (.duplicateField key)
    else do colon; field.fill draft

variable {draft draft' : Draft} {first : Bool} {rounds : Rounds}

theorem entries_cons (first : Bool) (draft : Draft) (round : UInt8) (rounds : Rounds) :
    entries shape.fields first draft (round :: rounds) =
      objectGoesOn first >>= fun goes =>
        if goes then
          drop >>= fun _ => text >>= fun key => draft.take key >>= fun draft =>
            entries shape.fields false draft rounds
        else return draft := by
  rw [entries]
  congr 1
  funext goes
  congr 3
  funext _
  congr 1
  funext key
  rw [Draft.take]
  cases shape.fields.find? (·.name = key) with
  | none => simp only [bind_assoc]
  | some field =>
      simp only
      split
      · rfl
      · simp only [bind_assoc]

theorem colon_bind_eq_ok {α β : Type} {x : Reader α} {f : α → β} {c : β} :
    (do colon; return f (← x)) src = .ok (c, rest) ↔
      ∃ mid, Token src 58 mid ∧ ∃ a, x mid = .ok (a, rest) ∧ f a = c := by
  rw [run_bind_eq_ok]
  constructor
  · rintro ⟨_, mid, hcolon, h⟩
    obtain ⟨a, _, hx, ha⟩ := run_bind_eq_ok.1 h
    obtain ⟨rfl, rfl⟩ := run_pure_eq_ok.1 ha
    exact ⟨mid, colon_eq_ok.1 hcolon, a, hx, rfl⟩
  · rintro ⟨mid, hcolon, a, hx, rfl⟩
    refine ⟨(), mid, colon_eq_ok.2 hcolon, ?_⟩
    rw [run_bind_of_ok hx]
    rfl

/-- A field behind its colon. -/
theorem colon_nullable_eq_ok {α β : Type} {is : α → Content → Prop} {value : Reader α}
    {f : Option α → β} {c : β}
    (hvalue : ∀ {mid wish}, nullable value mid = .ok (wish, rest) ↔
      ∃ content, Means is content wish ∧ content.Stands mid rest) :
    (do colon; return f (← nullable value)) src = .ok (c, rest) ↔
      ∃ mid content, Token src 58 mid ∧ content.Stands mid rest ∧
        ∃ wish, Means is content wish ∧ c = f wish := by
  rw [colon_bind_eq_ok]
  simp only [hvalue]
  constructor
  · rintro ⟨mid, hcolon, wish, ⟨content, hmeans, hstands⟩, rfl⟩
    exact ⟨mid, content, hcolon, hstands, wish, hmeans, rfl⟩
  · rintro ⟨mid, content, hcolon, hstands, wish, hmeans, rfl⟩
    exact ⟨mid, hcolon, wish, ⟨content, hmeans, hstands⟩, rfl⟩

theorem take_eq_ok : draft.take key src = .ok (draft', rest) ↔
    ∃ mid content, Token src 58 mid ∧ content.Stands mid rest ∧
      draft.Takes (key, content) draft' := by
  obtain ⟨automaton, layout⟩ := draft
  by_cases hautomaton : key = "automaton_path"
  · subst hautomaton
    simp only [Draft.takes_automaton]
    cases automaton with
    | some wish => exact iff_of_false nofun fun ⟨_, _, _, _, h, _⟩ => nomatch h
    | none =>
        simp only [true_and]
        exact colon_nullable_eq_ok (nullable_quotedText_eq_ok "path string")
  by_cases hlayout : key = "layout"
  · subst hlayout
    simp only [Draft.takes_layout]
    cases layout with
    | some wish => exact iff_of_false nofun fun ⟨_, _, _, _, h, _⟩ => nomatch h
    | none =>
        simp only [true_and]
        exact colon_nullable_eq_ok nullable_layoutValue_eq_ok
  · have hnone : shape.fields.find? (·.name = key) = none := by
      simp [shape, Ne.symm hautomaton, Ne.symm hlayout]
    simp only [Draft.takes_other hautomaton hlayout]
    rw [Draft.take, hnone]
    refine (colon_bind_eq_ok (x := skip)).trans ?_
    constructor
    · rintro ⟨mid, hcolon, _, hskip, rfl⟩
      exact ⟨mid, .unseen, hcolon, .unseen hskip, rfl, rfl⟩
    · rintro ⟨mid, _, hcolon, hstands, rfl, rfl⟩
      cases hstands with
      | unseen hskip => exact ⟨mid, hcolon, (), hskip, rfl⟩

/-- One round of reading an object. -/
theorem entries_cons_eq_ok {round : UInt8} :
    entries shape.fields first draft (round :: rounds) src = .ok (draft', rest) ↔
      (draft' = draft ∧ ∃ final, Token src 125 final ∧ rest = ⟨125 :: final.bytes, final.failure⟩) ∨
      ∃ key content mid next taken, Key first src key mid ∧ content.Stands mid next ∧
        draft.Takes (key, content) taken ∧
        entries shape.fields false taken rounds next = .ok (draft', rest) := by
  rw [entries_cons, run_bind_eq_ok]
  constructor
  · rintro ⟨goes, mid, hgoes, h⟩
    rcases objectGoesOn_eq_ok.1 hgoes with ⟨rfl, final, hfinal, rfl⟩ | ⟨rfl, quote, hquote, rfl⟩
    · obtain ⟨rfl, rfl⟩ := run_pure_eq_ok.1 h
      exact .inl ⟨rfl, final, hfinal, rfl⟩
    · rw [if_pos rfl, drop_bind_cons] at h
      obtain ⟨key, colon, htext, h⟩ := run_bind_eq_ok.1 h
      obtain ⟨taken, next, htake, hentries⟩ := run_bind_eq_ok.1 h
      obtain ⟨mid, content, hcolon, hstands, htakes⟩ := take_eq_ok.1 htake
      exact .inr ⟨key, content, mid, next, taken, ⟨quote, colon, hquote, htext, hcolon⟩, hstands,
        htakes, hentries⟩
  · rintro (⟨rfl, final, hfinal, rfl⟩ |
      ⟨key, content, mid, next, taken, ⟨quote, colon, hquote, htext, hcolon⟩, hstands, htakes,
        hentries⟩)
    · exact ⟨false, _, objectGoesOn_eq_ok.2 (.inl ⟨rfl, final, hfinal, rfl⟩), rfl⟩
    · refine ⟨true, _, objectGoesOn_eq_ok.2 (.inr ⟨rfl, quote, hquote, rfl⟩), ?_⟩
      rw [if_pos rfl, drop_bind_cons, run_bind_of_ok htext,
        run_bind_of_ok (take_eq_ok.2 ⟨mid, content, hcolon, hstands, htakes⟩)]
      exact hentries

theorem exists_members_of_entries
    (h : entries shape.fields first draft rounds src = .ok (draft', rest)) :
    ∃ members final, Members first src members final ∧ draft.TakesAll members draft' ∧
      rest = ⟨125 :: final.bytes, final.failure⟩ := by
  induction rounds generalizing first draft src with
  | nil => cases h
  | cons round rounds ih =>
      rcases entries_cons_eq_ok.1 h with ⟨rfl, final, hfinal, rfl⟩ |
        ⟨key, content, mid, next, taken, hkey, hstands, htakes, hentries⟩
      · exact ⟨[], final, .done hfinal, .nil, rfl⟩
      · obtain ⟨members, final, hmembers, hall, rfl⟩ := ih hentries
        exact ⟨(key, content) :: members, final, .member hkey hstands hmembers, .cons htakes hall,
          rfl⟩

theorem entries_of_members {members : List (String × Content)} {final : Source}
    (h : Members first src members final) (hall : draft.TakesAll members draft')
    (hrounds : members.length < rounds.length) :
    entries shape.fields first draft rounds src =
      .ok (draft', ⟨125 :: final.bytes, final.failure⟩) := by
  induction h generalizing draft rounds with
  | done htoken =>
      cases hall
      cases rounds with
      | nil => cases hrounds
      | cons round rounds => exact entries_cons_eq_ok.2 (.inl ⟨rfl, _, htoken, rfl⟩)
  | member hkey hstands _ ih =>
      cases hall with
      | cons htakes hall =>
          cases rounds with
          | nil => cases hrounds
          | cons round rounds =>
              exact entries_cons_eq_ok.2 (.inr ⟨_, _, _, _, _, hkey, hstands, htakes,
                ih hall (Nat.lt_of_succ_lt_succ hrounds)⟩)

/-! ## Members taken together -/

/-- The values of the members of one name. -/
def valuesOf (key : String) (members : List (String × Content)) : List Content :=
  members.filterMap fun member => if member.1 = key then some member.2 else none

/-- What the values for a field mean together: there is one at most, and without one there is no
wish. -/
inductive Wish {α : Type} (is : α → Content → Prop) : List Content → Option α → Prop where
  | absent : Wish is [] none
  | given {content : Content} {wish : Option α} : Means is content wish → Wish is [content] wish

/-- What values add to a field that may have been read already. -/
inductive Fills {α : Type} (is : α → Content → Prop) :
    Option (Option α) → List Content → Option (Option α) → Prop where
  | kept {field : Option (Option α)} : Fills is field [] field
  | given {content : Content} {wish : Option α} : Means is content wish →
      Fills is none [content] (some wish)

theorem fills_nil {α : Type} {is : α → Content → Prop} {field field' : Option (Option α)} :
    Fills is field [] field' ↔ field' = field := by
  constructor
  · intro h
    cases h
    rfl
  · rintro rfl
    exact .kept

theorem fills_cons {α : Type} {is : α → Content → Prop} {content : Content}
    {contents : List Content} {field field' : Option (Option α)} :
    Fills is field (content :: contents) field' ↔
      field = none ∧ ∃ wish, Means is content wish ∧ Fills is (some wish) contents field' := by
  constructor
  · intro h
    cases h with
    | given h => exact ⟨rfl, _, h, .kept⟩
  · rintro ⟨rfl, wish, h, hfills⟩
    cases hfills with
    | kept => exact .given h

theorem wish_iff {α : Type} {is : α → Content → Prop} {contents : List Content}
    {wish : Option α} :
    Wish is contents wish ↔ ∃ field, Fills is none contents field ∧ field.join = wish := by
  constructor
  · intro h
    cases h with
    | absent => exact ⟨none, .kept, rfl⟩
    | given h => exact ⟨some wish, .given h, rfl⟩
  · rintro ⟨field, hfills, rfl⟩
    cases hfills with
    | kept => exact .absent
    | given h => exact .given h

/-- Members of unknown names are not looked at. -/
def OthersUnseen (members : List (String × Content)) : Prop :=
  ∀ key content, (key, content) ∈ members → key ≠ "automaton_path" → key ≠ "layout" →
    content = .unseen

theorem valuesOf_cons_self {members : List (String × Content)} :
    valuesOf key ((key, content) :: members) = content :: valuesOf key members := by
  simp [valuesOf]

theorem valuesOf_cons_of_ne {other : String} {members : List (String × Content)}
    (h : key ≠ other) : valuesOf other ((key, content) :: members) = valuesOf other members := by
  simp [valuesOf, h]

theorem takesAll_cons {member : String × Content} {members : List (String × Content)} :
    draft.TakesAll (member :: members) draft' ↔
      ∃ mid, draft.Takes member mid ∧ mid.TakesAll members draft' := by
  constructor
  · intro h
    cases h with
    | cons htakes hall => exact ⟨_, htakes, hall⟩
  · rintro ⟨mid, htakes, hall⟩
    exact .cons htakes hall

theorem othersUnseen_cons {members : List (String × Content)} :
    OthersUnseen ((key, content) :: members) ↔
      (key ≠ "automaton_path" → key ≠ "layout" → content = .unseen) ∧ OthersUnseen members := by
  simp only [OthersUnseen, List.mem_cons, Prod.mk.injEq]
  constructor
  · intro h
    exact ⟨h key content (.inl ⟨rfl, rfl⟩), fun key content hm => h key content (.inr hm)⟩
  · rintro ⟨hfirst, h⟩ key content (⟨rfl, rfl⟩ | hm)
    · exact hfirst
    · exact h key content hm

theorem takesAll_iff {members : List (String × Content)} : draft.TakesAll members draft' ↔
    Fills IsPath draft.automaton (valuesOf "automaton_path" members) draft'.automaton ∧
      Fills IsLayout draft.layout (valuesOf "layout" members) draft'.layout ∧
      OthersUnseen members := by
  induction members generalizing draft with
  | nil =>
      simp only [valuesOf, List.filterMap_nil, fills_nil]
      constructor
      · intro h
        cases h
        exact ⟨rfl, rfl, nofun⟩
      · rintro ⟨hautomaton, hlayout, _⟩
        obtain ⟨automaton, layout⟩ := draft
        obtain ⟨automaton', layout'⟩ := draft'
        cases hautomaton
        cases hlayout
        exact .nil
  | cons member members ih =>
      obtain ⟨key, content⟩ := member
      simp only [takesAll_cons, ih, othersUnseen_cons]
      by_cases hautomaton : key = "automaton_path"
      · subst hautomaton
        have hlayout : "automaton_path" ≠ "layout" := by decide
        rw [valuesOf_cons_self, valuesOf_cons_of_ne hlayout, fills_cons]
        simp only [Draft.takes_automaton]
        constructor
        · rintro ⟨_, ⟨hnone, wish, hmeans, rfl⟩, hvalues, hrest⟩
          exact ⟨⟨hnone, wish, hmeans, hvalues⟩, hrest.1, fun h => absurd rfl h, hrest.2⟩
        · rintro ⟨⟨hnone, wish, hmeans, hvalues⟩, hlayouts, _, hothers⟩
          exact ⟨_, ⟨hnone, wish, hmeans, rfl⟩, hvalues, hlayouts, hothers⟩
      by_cases hlayout : key = "layout"
      · subst hlayout
        rw [valuesOf_cons_self, valuesOf_cons_of_ne hautomaton, fills_cons]
        simp only [Draft.takes_layout]
        constructor
        · rintro ⟨_, ⟨hnone, wish, hmeans, rfl⟩, hvalues, hlayouts, hothers⟩
          exact ⟨hvalues, ⟨hnone, wish, hmeans, hlayouts⟩, fun _ h => absurd rfl h, hothers⟩
        · rintro ⟨hvalues, ⟨hnone, wish, hmeans, hlayouts⟩, _, hothers⟩
          exact ⟨_, ⟨hnone, wish, hmeans, rfl⟩, hvalues, hlayouts, hothers⟩
      · rw [valuesOf_cons_of_ne hautomaton, valuesOf_cons_of_ne hlayout]
        simp only [Draft.takes_other hautomaton hlayout]
        constructor
        · rintro ⟨_, ⟨rfl, rfl⟩, hvalues, hlayouts, hothers⟩
          exact ⟨hvalues, hlayouts, fun _ _ => rfl, hothers⟩
        · rintro ⟨hvalues, hlayouts, hcontent, hothers⟩
          exact ⟨_, ⟨hcontent hautomaton hlayout, rfl⟩, hvalues, hlayouts, hothers⟩

/-! ## Whole settings -/

/-- Settings come next: an object, or a list of the values of both fields. -/
inductive Says : Source → Settings → Source → Prop where
  | object {src mid rest : Source} {members : List (String × Content)} {settings : Settings} :
      Token src 123 mid → Members true mid members rest →
      Wish IsPath (valuesOf "automaton_path" members) settings.automaton →
      Wish IsLayout (valuesOf "layout" members) settings.layout →
      OthersUnseen members → Says src settings rest
  | list {src first mid second last rest : Source} {automaton layout : Content}
      {settings : Settings} : Token src 91 first → automaton.Stands first mid →
      Token mid 44 second → layout.Stands second last → Token last 93 rest →
      Means IsPath automaton settings.automaton → Means IsLayout layout settings.layout →
      Says src settings rest

/-- Every wish starts with a byte that does not close a list. -/
theorem listGoesOn_of_stands {α : Type} {is : α → Content → Prop} {wish : Option α}
    (his : ∀ a, ¬ is a .unseen) (hmeans : Means is content wish) (h : content.Stands src rest) :
    ∃ mid, listGoesOn true src = .ok (true, mid) := by
  obtain ⟨b, mid, htoken, hb⟩ : ∃ b mid, Token src b mid ∧ b ≠ 93 := by
    cases h with
    | null h =>
        obtain ⟨mid, htoken, _⟩ := h
        exact ⟨110, mid, htoken, by decide⟩
    | text h =>
        obtain ⟨mid, htoken, _⟩ := h
        exact ⟨34, mid, htoken, by decide⟩
    | tag htoken => exact ⟨123, _, htoken, by decide⟩
    | unseen _ =>
        cases hmeans with
        | some h => exact absurd h (his _)
  exact ⟨_, listGoesOn_eq_true.2 ⟨b, mid, htoken, hb, rfl⟩⟩

/-- A value of a list, behind what must stand before it. -/
theorem listGoesOn_nullable_eq_ok {α : Type} {is : α → Content → Prop} {value : Reader α}
    {wish : Option α} (his : ∀ a, ¬ is a .unseen)
    (hvalue : ∀ src, nullable value src = .ok (wish, rest) ↔
      ∃ content, Means is content wish ∧ content.Stands src rest) :
    (∃ mid, listGoesOn true src = .ok (true, mid) ∧ nullable value mid = .ok (wish, rest)) ↔
      ∃ content, Means is content wish ∧ content.Stands src rest := by
  have hskipped {mid : Source} (h : listGoesOn true src = .ok (true, mid)) :
      nullable value mid = nullable value src := by
    obtain ⟨b, next, htoken, _, rfl⟩ := listGoesOn_eq_true.1 h
    exact nullable_of_skipBlanks (skipBlanks_eq_ok_some.2 ⟨next, htoken, rfl⟩) value
  rw [← hvalue]
  constructor
  · rintro ⟨mid, hgoes, h⟩
    rwa [hskipped hgoes] at h
  · intro h
    obtain ⟨content, hmeans, hstands⟩ := (hvalue src).1 h
    obtain ⟨mid, hgoes⟩ := listGoesOn_of_stands his hmeans hstands
    exact ⟨mid, hgoes, (hskipped hgoes).trans h⟩

theorem inOrder_cons_eq_ok {expected : String} {count : Nat} {field : Json.Field Draft}
    {fields : List (Json.Field Draft)} :
    inOrder expected count (field :: fields) draft src = .ok (draft', rest) ↔
      ∃ mid taken next, listGoesOn (count = 0) src = .ok (true, mid) ∧
        field.fill draft mid = .ok (taken, next) ∧
        inOrder expected (count + 1) fields taken next = .ok (draft', rest) := by
  rw [inOrder, run_bind_eq_ok]
  constructor
  · rintro ⟨goes, mid, hgoes, h⟩
    cases goes with
    | false => cases h
    | true =>
        obtain ⟨taken, next, hfill, hrest⟩ := run_bind_eq_ok.1 h
        exact ⟨mid, taken, next, hgoes, hfill, hrest⟩
  · rintro ⟨mid, taken, next, hgoes, hfill, hrest⟩
    refine ⟨true, mid, hgoes, ?_⟩
    rw [if_pos rfl, run_bind_of_ok hfill]
    exact hrest

theorem not_isPath_unseen (name : String) : ¬ IsPath name .unseen := nofun

theorem not_isLayout_unseen (layout : Layout) : ¬ IsLayout layout .unseen := by
  rintro (h | h) <;> cases h

theorem inOrder_eq_ok (expected : String) :
    inOrder expected 0 shape.fields {} src = .ok (draft, rest) ↔
      ∃ automaton layout mid second wish wish', automaton.Stands src mid ∧ Token mid 44 second ∧
        layout.Stands second rest ∧ Means IsPath automaton wish ∧ Means IsLayout layout wish' ∧
        draft = ⟨some wish, some wish'⟩ := by
  constructor
  · intro h
    obtain ⟨first, taken, _, hfirst, hfill, h⟩ := inOrder_cons_eq_ok.1 h
    obtain ⟨second, taken', _, hsecond, hfill', hlast⟩ := inOrder_cons_eq_ok.1 h
    obtain ⟨wish, mid, hautomaton, htaken⟩ := run_bind_eq_ok.1 hfill
    obtain ⟨wish', last, hlayout, htaken'⟩ := run_bind_eq_ok.1 hfill'
    obtain ⟨rfl, rfl⟩ := run_pure_eq_ok.1 htaken
    obtain ⟨rfl, rfl⟩ := run_pure_eq_ok.1 htaken'
    obtain ⟨rfl, rfl⟩ := run_pure_eq_ok.1 hlast
    obtain ⟨comma, hcomma, hsecond⟩ := listGoesOn_false_eq_true.1 hsecond
    obtain ⟨automaton, hmeans, hstands⟩ := (listGoesOn_nullable_eq_ok not_isPath_unseen
      fun _ => nullable_quotedText_eq_ok _).1 ⟨first, hfirst, hautomaton⟩
    obtain ⟨layout, hmeans', hstands'⟩ := (listGoesOn_nullable_eq_ok not_isLayout_unseen
      fun _ => nullable_layoutValue_eq_ok).1 ⟨second, hsecond, hlayout⟩
    exact ⟨automaton, layout, mid, comma, wish, wish', hstands, hcomma, hstands', hmeans, hmeans',
      rfl⟩
  · rintro ⟨automaton, layout, mid, comma, wish, wish', hstands, hcomma, hstands', hmeans, hmeans',
      rfl⟩
    obtain ⟨first, hfirst, hautomaton⟩ := (listGoesOn_nullable_eq_ok not_isPath_unseen
      fun _ => nullable_quotedText_eq_ok "path string").2 ⟨automaton, hmeans, hstands⟩
    obtain ⟨second, hsecond, hlayout⟩ := (listGoesOn_nullable_eq_ok not_isLayout_unseen
      fun _ => nullable_layoutValue_eq_ok).2 ⟨layout, hmeans', hstands'⟩
    have hgoes := listGoesOn_false_eq_true.2 ⟨comma, hcomma, hsecond⟩
    exact inOrder_cons_eq_ok.2 ⟨first, ⟨some wish, none⟩, mid, hfirst,
      run_bind_eq_ok.2 ⟨wish, mid, hautomaton, rfl⟩, inOrder_cons_eq_ok.2 ⟨second, _, rest, hgoes,
        run_bind_eq_ok.2 ⟨wish', rest, hlayout, rfl⟩, rfl⟩⟩

theorem record_eq_ok : Reader.record shape {} src = .ok (draft, rest) ↔
    (∃ mid members, Token src 123 mid ∧ Members true mid members rest ∧
      Draft.TakesAll {} members draft) ∨
    ∃ first automaton layout mid second last wish wish', Token src 91 first ∧
      automaton.Stands first mid ∧ Token mid 44 second ∧ layout.Stands second last ∧
      Token last 93 rest ∧ Means IsPath automaton wish ∧ Means IsLayout layout wish' ∧
      draft = ⟨some wish, some wish'⟩ := by
  rw [Reader.record, start_bind_eq_ok]
  constructor
  · rintro ⟨b, mid, htoken, h⟩
    split at h
    · next hb =>
        subst hb
        rw [drop_bind_cons] at h
        obtain ⟨filled, last, horder, h⟩ := run_bind_eq_ok.1 h
        obtain ⟨_, _, hclose, hfilled⟩ := run_bind_eq_ok.1 h
        obtain ⟨rfl, rfl⟩ := run_pure_eq_ok.1 hfilled
        obtain ⟨automaton, layout, next, second, wish, wish', hautomaton, hcomma, hlayout, hmeans,
          hmeans', rfl⟩ := (inOrder_eq_ok _).1 horder
        exact .inr ⟨mid, automaton, layout, next, second, last, wish, wish', htoken, hautomaton,
          hcomma, hlayout, closeList_eq_ok.1 hclose, hmeans, hmeans', rfl⟩
    split at h
    · next hb =>
        subst hb
        rw [drop_bind_cons, run_bind_of_ok (x := rounds) rfl] at h
        obtain ⟨filled, last, hentries, h⟩ := run_bind_eq_ok.1 h
        obtain ⟨members, final, hmembers, hall, rfl⟩ := exists_members_of_entries hentries
        rw [drop_bind_cons] at h
        obtain ⟨rfl, rfl⟩ := run_pure_eq_ok.1 h
        exact .inl ⟨mid, members, htoken, hmembers, hall⟩
    · cases fails_wrongKind _ _ _ h
  · rintro (⟨mid, members, htoken, hmembers, hall⟩ |
      ⟨first, automaton, layout, mid, second, last, wish, wish', htoken, hautomaton, hcomma, hlayout,
        hclose, hmeans, hmeans', rfl⟩)
    · refine ⟨123, mid, htoken, ?_⟩
      have hrounds : members.length < (0 :: mid.bytes : Rounds).length :=
        Nat.lt_succ_of_lt hmembers.length_lt
      rw [if_neg (by decide), if_pos rfl, drop_bind_cons, run_bind_of_ok (x := rounds) rfl,
        run_bind_of_ok (entries_of_members hmembers hall hrounds)]
      rfl
    · refine ⟨91, first, htoken, ?_⟩
      have horder (expected : String) := (inOrder_eq_ok expected).2 ⟨automaton, layout, mid, second,
        wish, wish', hautomaton, hcomma, hlayout, hmeans, hmeans', rfl⟩
      rw [if_pos rfl, drop_bind_cons, run_bind_of_ok (horder _),
        run_bind_of_ok (closeList_eq_ok.2 hclose)]
      rfl

theorem value_eq_ok {settings : Settings} : value src = .ok (settings, rest) ↔
    Says src settings rest := by
  rw [value, run_bind_eq_ok]
  constructor
  · rintro ⟨draft, mid, hrecord, h⟩
    obtain ⟨rfl, rfl⟩ := run_pure_eq_ok.1 h
    rcases record_eq_ok.1 hrecord with ⟨next, members, htoken, hmembers, hall⟩ |
      ⟨first, automaton, layout, mid, second, last, wish, wish', htoken, hautomaton, hcomma, hlayout,
        hclose, hmeans, hmeans', rfl⟩
    · obtain ⟨hvalues, hlayouts, hothers⟩ := takesAll_iff.1 hall
      exact .object htoken hmembers (wish_iff.2 ⟨_, hvalues, rfl⟩) (wish_iff.2 ⟨_, hlayouts, rfl⟩)
        hothers
    · exact .list htoken hautomaton hcomma hlayout hclose hmeans hmeans'
  · intro h
    cases h with
    | object htoken hmembers hautomaton hlayout hothers =>
        obtain ⟨automaton, hvalues, hjoin⟩ := wish_iff.1 hautomaton
        obtain ⟨layout, hlayouts, hjoin'⟩ := wish_iff.1 hlayout
        have hall : Draft.TakesAll {} _ ⟨automaton, layout⟩ :=
          takesAll_iff.2 ⟨hvalues, hlayouts, hothers⟩
        refine ⟨_, rest, record_eq_ok.2 (.inl ⟨_, _, htoken, hmembers, hall⟩), ?_⟩
        rw [run_pure_eq_ok, hjoin, hjoin']
        exact ⟨rfl, rfl⟩
    | list htoken hautomaton hcomma hlayout hclose hmeans hmeans' =>
        exact ⟨_, rest, record_eq_ok.2 (.inr ⟨_, _, _, _, _, _, _, _, htoken, hautomaton, hcomma,
          hlayout, hclose, hmeans, hmeans', rfl⟩), rfl⟩

/-- Nothing but blanks is left. -/
def Spent (src : Source) : Prop := (∀ b ∈ src.bytes, isBlank b = true) ∧ src.failure = none

theorem document_eq_ok {α : Type} {value : Reader α} {a : α} : document value src = .ok a ↔
    ∃ rest, value src = .ok (a, rest) ∧ Spent rest := by
  rw [document, bind_eq_ok]
  constructor
  · rintro ⟨⟨a', rest⟩, hvalue, h⟩
    obtain ⟨⟨after, mid⟩, hskip, h⟩ := bind_eq_ok.1 h
    cases after with
    | some b => cases h
    | none =>
        cases h
        obtain ⟨hblanks, hfailure, _⟩ := skipBlanks_eq_ok_none.1 hskip
        exact ⟨rest, hvalue, hblanks, hfailure⟩
  · rintro ⟨rest, hvalue, hblanks, hfailure⟩
    refine ⟨(a, rest), hvalue, ?_⟩
    simp only [skipBlanks_eq_ok_none.2 ⟨hblanks, hfailure, rfl⟩]
    rfl

/-- A settings file holds settings: it can be read, is text and has nothing but settings in it. -/
def Holds (opened : Except IoFault Source) (settings : Settings) : Prop :=
  ∃ content rest, opened.bind Source.contents = .ok content ∧ Text.IsText content ∧
    Says (.ofBytes content) settings rest ∧ Spent rest

theorem read_eq_ok_iff {path : String} {opened : Except IoFault Source} {settings : Settings} :
    read path opened = .ok settings ↔ Holds opened settings := by
  rw [read, bind_eq_ok]
  simp only [mapError_eq_ok]
  constructor
  · rintro ⟨content, hcontent, h⟩
    cases hutf8 : Text.ofUtf8? content with
    | none =>
        rw [hutf8] at h
        cases h
    | some text =>
        rw [hutf8] at h
        obtain ⟨rest, hvalue, hspent⟩ := document_eq_ok.1 (mapError_eq_ok.1 h)
        exact ⟨content, rest, hcontent, ⟨text, Text.utf8_of_ofUtf8? hutf8⟩, value_eq_ok.1 hvalue,
          hspent⟩
  · rintro ⟨content, rest, hcontent, ⟨text, rfl⟩, hsays, hspent⟩
    refine ⟨_, hcontent, ?_⟩
    rw [Text.ofUtf8?_utf8]
    exact mapError_eq_ok.2 (document_eq_ok.2 ⟨rest, value_eq_ok.2 hsays, hspent⟩)

/-- The values of both fields in a list, with blanks around them. -/
example : read "config.json" (.ok (.ofBytes (Text.utf8 " [\"a.txt\" , null]\n"))) =
    .ok ⟨some "a.txt", none⟩ := by decide +kernel

end Settings

end FiniteReach
