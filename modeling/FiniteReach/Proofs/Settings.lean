import FiniteReach.Settings
import FiniteReach.Proofs.Json.Record
import FiniteReach.Proofs.Utf8

/-!
# Settings that are written and read

The path in settings is any text. Its escaped form is UTF-8 again, or else the file could not be read
(`isText_escaped`). Each field is read back, `null` standing for a wish that the user does not have,
and so are whole settings (`read_encode`).
-/

namespace FiniteReach

namespace Json

open Text Reader

/-! ## Printed texts are texts -/

theorem escapedByte_ascii : ∀ n < 128, ∀ b ∈ Print.escapedByte (UInt8.ofNat n), b < 128 := by
  decide +kernel

theorem escapedByte_of_le {b : UInt8} (h : 128 ≤ b) : Print.escapedByte b = [b] := by
  have hne {x : UInt8} (hx : x < 128) : b ≠ x := by
    rintro rfl
    exact absurd hx (UInt8.not_lt.2 h)
  have hcontrol : ¬ b < 32 := UInt8.not_lt.2 (UInt8.le_trans (by decide) h)
  rw [Print.escapedByte, if_neg (hne (by decide)), if_neg (hne (by decide)), if_neg (hne (by decide)),
    if_neg (hne (by decide)), if_neg (hne (by decide)), if_neg (hne (by decide)),
    if_neg (hne (by decide)), if_neg hcontrol]

/-- Only ASCII is escaped, and by ASCII; no other character is taken apart. -/
theorem isText_escapedChar (c : Char) :
    IsText ((String.utf8EncodeChar c).flatMap Print.escapedByte) := by
  by_cases hc : c.toNat < 128
  · rw [utf8EncodeChar_of_lt hc, List.flatMap_singleton]
    exact isText_of_ascii (escapedByte_ascii _ hc)
  · have hescaped : (String.utf8EncodeChar c).flatMap Print.escapedByte =
        (String.utf8EncodeChar c).flatMap fun b => [b] := by
      rw [List.flatMap_def, List.flatMap_def, List.map_congr_left fun b hb =>
        escapedByte_of_le (le_of_mem_utf8EncodeChar (Nat.le_of_not_lt hc) hb)]
    rw [hescaped, List.flatMap_singleton']
    exact isText_utf8EncodeChar c

theorem isText_escaped (s : String) : IsText ((Text.utf8 s).flatMap Print.escapedByte) := by
  rw [utf8_eq_flatMap, List.flatMap_assoc]
  induction s.toList with
  | nil => exact isText_nil
  | cons c cs ih => exact (isText_escapedChar c).append ih

theorem isText_text (s : String) : IsText (Print.text s).flatten := by
  rw [Print.text, List.flatten_singleton]
  have hquote : IsText [34] := isText_of_ascii (by simp)
  exact (hquote.append (isText_escaped s)).append hquote

theorem isText_entry {key : String} {part : Bytes} (h : IsText part) :
    IsText (entryBytes key part) := by
  have hquote : IsText [34] := isText_of_ascii (by simp)
  have hcolon : IsText [34, 58, 32] := isText_of_ascii (by simp)
  have hkey : IsText (34 :: ((Text.utf8 key).flatMap Print.escapedByte ++ [34, 58, 32])) :=
    hquote.append ((isText_escaped key).append hcolon)
  have hsplit : entryBytes key part =
      34 :: ((Text.utf8 key).flatMap Print.escapedByte ++ [34, 58, 32]) ++ part := by
    simp [entryBytes]
  rw [hsplit]
  exact hkey.append h

theorem isText_indent (level : Nat) : IsText (indent level) := by
  refine isText_of_ascii (List.forall_mem_cons.2 ⟨by decide, fun b hb => ?_⟩)
  rw [List.eq_of_mem_replicate hb]
  decide

theorem isText_inside {level : Nat} {closing : UInt8} {first : Bool} {parts : List Bytes}
    (hclosing : closing < 128) (h : ∀ part ∈ parts, IsText part) :
    IsText (inside level closing first parts) := by
  induction parts generalizing first with
  | nil =>
      have hlast : IsText [closing] := isText_of_ascii (List.forall_mem_singleton.2 hclosing)
      cases first with
      | true => exact hlast
      | false => exact (isText_indent level).append hlast
  | cons part parts ih =>
      obtain ⟨hpart, hparts⟩ := List.forall_mem_cons.1 h
      have hcomma : IsText (if first then [] else [44]) := by
        cases first with
        | true => exact isText_nil
        | false => exact isText_of_ascii (by simp)
      exact ((hcomma.append (isText_indent (level + 1))).append hpart).append (ih hparts)

/-! ## Values or null -/

variable {α : Type} {value : Reader α} {part : Bytes} {a : α}

theorem reads_null (value : Reader α) : Reads (nullable value) Print.null.flatten none := by
  intro blanks bs failure hblanks _
  rw [nullable, Print.null, List.flatten_singleton, List.cons_append,
    run_bind_of_ok ((skipBlanks_append hblanks).trans (skipBlanks_cons rfl))]
  rfl

theorem Reads.nullable {b : UInt8} {rest : Bytes} (h : Reads value part a) (hpart : part = b :: rest)
    (hblank : isBlank b = false) (hb : b ≠ 110) : Reads (nullable value) part (some a) := by
  subst hpart
  intro blanks bs failure hblanks hends
  have hvalue := h [] bs failure (List.forall_mem_nil _) hends
  have hn : some b ≠ some 110 := fun hsome => hb (Option.some.inj hsome)
  rw [Reader.nullable, List.cons_append,
    run_bind_of_ok ((skipBlanks_append hblanks).trans (skipBlanks_cons hblank)), if_neg hn]
  rw [List.nil_append, List.cons_append] at hvalue
  rw [run_bind_of_ok hvalue]
  rfl

theorem reads_quotedText (expected s : String) :
    Reads (quotedText expected) (Print.text s).flatten s := by
  intro blanks bs failure hblanks _
  rw [Print.text, List.flatten_singleton, List.append_assoc, List.append_assoc,
    List.singleton_append, quotedText, run_bind_of_ok (start_append hblanks rfl), if_pos rfl,
    run_bind_of_ok (drop_cons 34), List.singleton_append]
  exact text_escaped s

end Json

namespace Settings

open Json Json.Reader

variable (settings : Settings)

theorem reads_layoutValue (layout : Layout) :
    Reads layoutValue (Print.text layout.name).flatten layout := by
  intro blanks bs failure hblanks _
  have hname : layoutName ⟨34 :: ((Text.utf8 layout.name).flatMap Print.escapedByte ++ 34 :: bs),
      failure⟩ = .ok (layout, ⟨bs, failure⟩) := by
    rw [layoutName, run_bind_of_ok (drop_cons 34), run_bind_of_ok (text_escaped layout.name)]
    cases layout with
    | stateMajor => rfl
    | legacy => rfl
  rw [Print.text, List.flatten_singleton, List.append_assoc, List.append_assoc,
    List.singleton_append, layoutValue, run_bind_of_ok (start_append hblanks rfl), if_pos rfl,
    List.singleton_append]
  exact hname

/-- A wish as it is printed. -/
def wishBytes (wish : Option String) : Bytes := ((wish.map Print.text).getD Print.null).flatten

theorem isText_wish (wish : Option String) : Text.IsText (wishBytes wish) := by
  cases wish with
  | none => exact Text.isText_of_ascii (by simp [wishBytes, Print.null])
  | some s => exact isText_text s

theorem reads_automaton (automaton : Option String) :
    Reads (nullable (quotedText "path string")) (wishBytes automaton) automaton := by
  cases automaton with
  | none => exact reads_null _
  | some s => exact (reads_quotedText "path string" s).nullable rfl rfl (by decide)

theorem reads_layout (layout : Option Layout) :
    Reads (nullable layoutValue) (wishBytes (layout.map Layout.name)) layout := by
  cases layout with
  | none => exact reads_null _
  | some layout => exact (reads_layoutValue layout).nullable rfl rfl (by decide)

/-- Settings as they are printed, after the opening brace. -/
def fieldBytes : Bytes :=
  inside 0 125 true [entryBytes "automaton_path" (wishBytes settings.automaton),
    entryBytes "layout" (wishBytes (settings.layout.map Layout.name))]

theorem encode_eq : settings.encode = 123 :: settings.fieldBytes := by
  rw [encode, Print.object, flatten_block]
  simp only [List.map_cons, List.map_nil, flatten_entry, fieldBytes, wishBytes]

theorem isText_encode : Text.IsText settings.encode := by
  have hbrace : Text.IsText [123] := Text.isText_of_ascii (by simp)
  rw [encode_eq]
  refine hbrace.append (isText_inside (by decide) ?_)
  simp only [List.forall_mem_cons, List.not_mem_nil, false_imp_iff, implies_true, and_true]
  exact ⟨isText_entry (isText_wish _), isText_entry (isText_wish _)⟩

theorem value_encode : value (.ofBytes settings.encode) = .ok (settings, .ofBytes []) := by
  have hentries : entries shape.fields true {} (0 :: settings.fieldBytes)
      ⟨settings.fieldBytes, none⟩ =
        .ok (⟨some settings.automaton, some settings.layout⟩, ⟨[125], none⟩) := by
    obtain ⟨rounds, hrounds⟩ : ∃ rounds, 0 :: settings.fieldBytes = 0 :: 10 :: 32 :: rounds :=
      ⟨_, rfl⟩
    rw [hrounds, fieldBytes, ← List.append_nil (inside 0 125 true _),
      entries_cons 0 true 0 _ rfl rfl ((reads_automaton settings.automaton).map _),
      entries_cons 0 false 10 _ rfl rfl ((reads_layout settings.layout).map _),
      entries_nil 0 false 32]
  have hrecord : Reader.record shape {} ⟨123 :: settings.fieldBytes, none⟩ =
      .ok (⟨some settings.automaton, some settings.layout⟩, ⟨[], none⟩) := by
    rw [Reader.record, ← List.nil_append (123 :: settings.fieldBytes),
      run_bind_of_ok (start_append (List.forall_mem_nil _) rfl), if_neg (by decide), if_pos rfl,
      run_bind_of_ok (drop_cons 123), run_bind_of_ok (x := rounds) rfl, run_bind_of_ok hentries,
      run_bind_of_ok (drop_cons 125)]
    rfl
  rw [encode_eq, value, Source.ofBytes, run_bind_of_ok hrecord]
  rfl

theorem read_encode (path : String) : read path (.ok (.ofBytes settings.encode)) = .ok settings := by
  obtain ⟨text, htext⟩ := settings.isText_encode
  have hutf8 : Text.ofUtf8? settings.encode = some text := htext ▸ Text.ofUtf8?_utf8 text
  have hdocument : document value (.ofBytes settings.encode) = .ok settings :=
    document_of_ok settings.value_encode
  have hread : read path (.ok (.ofBytes settings.encode)) =
      (do if (Text.ofUtf8? settings.encode).isNone then throw (.unread path .invalidText)
          (document value (.ofBytes settings.encode)).mapError (.malformed path)) := rfl
  rw [hread, hutf8, hdocument]
  rfl

end Settings

end FiniteReach
