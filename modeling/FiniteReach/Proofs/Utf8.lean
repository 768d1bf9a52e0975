import FiniteReach.Numeral
import FiniteReach.Text.Utf8

/-!
# Bytes of a text

The encoding of a text is that of its characters one after another. An ASCII character is its own
byte, and any other one has no ASCII byte, so only the digits of a text are read as digits
(`isDigit_of_mem_utf8`).
-/

namespace FiniteReach

namespace Text

/-! ## Characters -/

theorem utf8_eq_flatMap (s : String) : utf8 s = s.toList.flatMap String.utf8EncodeChar := by
  have hbytes (bs : Bytes) : bs.toByteArray.data.toList = bs := by simp
  rw [utf8, ← String.utf8Encode_toList]
  exact hbytes _

theorem utf8_ne_nil {s : String} (hne : s ≠ "") : utf8 s ≠ [] := by
  intro hnil
  have hread := ofUtf8?_utf8 s
  rw [hnil] at hread
  exact hne (Option.some.inj hread).symm

theorem utf8EncodeChar_ascii :
    ∀ n < 128, String.utf8EncodeChar (Char.ofNat n) = [UInt8.ofNat n] := by decide

theorem utf8EncodeChar_of_lt {c : Char} (hc : c.toNat < 128) :
    String.utf8EncodeChar c = [UInt8.ofNat c.toNat] := by
  rw [← utf8EncodeChar_ascii _ hc, Char.ofNat_toNat]

/-- The encoding of a character beyond ASCII has no ASCII byte. -/
theorem le_of_mem_utf8EncodeChar {c : Char} (hc : 128 ≤ c.toNat) {b : UInt8}
    (hb : b ∈ String.utf8EncodeChar c) : 128 ≤ b := by
  have hval : ¬ c.val.toNat ≤ 0x7f := Nat.not_le_of_lt hc
  rw [String.utf8EncodeChar] at hb
  simp only [hval, ↓reduceIte] at hb
  rw [UInt8.le_iff_toNat_le]
  split at hb
  · simp only [List.mem_cons, List.not_mem_nil, or_false] at hb
    rcases hb with rfl | rfl <;> simp <;> omega
  split at hb
  · simp only [List.mem_cons, List.not_mem_nil, or_false] at hb
    rcases hb with rfl | rfl | rfl <;> simp <;> omega
  · simp only [List.mem_cons, List.not_mem_nil, or_false] at hb
    rcases hb with rfl | rfl | rfl | rfl <;> simp <;> omega

/-! ## Bytes that are texts -/

/-- The bytes are the UTF-8 encoding of a text. -/
def IsText (bs : Bytes) : Prop := ∃ s, utf8 s = bs

theorem isText_utf8EncodeChar (c : Char) : IsText (String.utf8EncodeChar c) :=
  ⟨String.singleton c, by simp [utf8_eq_flatMap]⟩

theorem isText_nil : IsText [] := ⟨"", by simp [utf8_eq_flatMap]⟩

theorem IsText.append {bs bs' : Bytes} (h : IsText bs) (h' : IsText bs') : IsText (bs ++ bs') := by
  obtain ⟨s, rfl⟩ := h
  obtain ⟨s', rfl⟩ := h'
  exact ⟨s ++ s', utf8_append s s'⟩

theorem isText_of_ascii {bs : Bytes} (h : ∀ b ∈ bs, b < 128) : IsText bs := by
  induction bs with
  | nil => exact isText_nil
  | cons b bs ih =>
      obtain ⟨hb, hbs⟩ := List.forall_mem_cons.1 h
      have hchar := isText_utf8EncodeChar (Char.ofNat b.toNat)
      rw [utf8EncodeChar_ascii _ (UInt8.lt_iff_toNat_lt.1 hb), UInt8.ofNat_toNat] at hchar
      exact hchar.append (ih hbs)

/-! ## Digits -/

theorem isDigit_ascii : ∀ n < 128, Numeral.isDigit (UInt8.ofNat n) = (Char.ofNat n).isDigit := by
  decide

/-- A byte that is a digit belongs to a character that is one. -/
theorem isDigit_of_mem_utf8 {s : String} {b : UInt8} (hb : b ∈ utf8 s)
    (hdigit : Numeral.isDigit b = true) : ∃ c ∈ s.toList, c.isDigit = true := by
  rw [utf8_eq_flatMap, List.mem_flatMap] at hb
  obtain ⟨c, hc, hb⟩ := hb
  by_cases hascii : c.toNat < 128
  · have hsame := isDigit_ascii _ hascii
    rw [utf8EncodeChar_of_lt hascii, List.mem_singleton] at hb
    rw [Char.ofNat_toNat, ← hb, hdigit] at hsame
    exact ⟨c, hc, hsame.symm⟩
  · have hle := le_of_mem_utf8EncodeChar (Nat.le_of_not_lt hascii) hb
    simp only [Numeral.isDigit, Bool.and_eq_true, decide_eq_true_eq] at hdigit
    exact absurd (UInt8.le_trans hle hdigit.2) (by decide)

theorem utf8_ofList_of_digits {cs : List Char} (h : ∀ c ∈ cs, c.isDigit = true) :
    utf8 (String.ofList cs) = cs.map fun c => UInt8.ofNat c.toNat := by
  have hchar (c : Char) (hc : c ∈ cs) : String.utf8EncodeChar c = [UInt8.ofNat c.toNat] := by
    have hascii : c.toNat < 128 := by
      have hdigit := h c hc
      simp only [Char.isDigit, Bool.and_eq_true, decide_eq_true_eq, UInt32.le_iff_toNat_le] at hdigit
      exact Nat.lt_of_le_of_lt hdigit.2 (by decide)
    exact utf8EncodeChar_of_lt hascii
  rw [utf8_eq_flatMap, String.toList_ofList, List.flatMap_def, List.map_congr_left hchar,
    ← List.flatMap_def, ← List.map_eq_flatMap]

theorem utf8_toString (n : Nat) : utf8 (toString n) = Numeral.digits n :=
  utf8_ofList_of_digits fun _ => Nat.isDigit_of_mem_toDigits (by decide) (by decide)

theorem utf8_intercalate (gap : String) (parts : List String) :
    utf8 (gap.intercalate parts) = (utf8 gap).intercalate (parts.map utf8) := by
  induction parts with
  | nil => rfl
  | cons part parts ih =>
      cases parts with
      | nil => rw [String.intercalate_singleton, List.map_singleton, List.intercalate_singleton]
      | cons next parts =>
          rw [String.intercalate_cons_cons, utf8_append, utf8_append, ih, List.map_cons, List.map_cons,
            List.map_cons, List.intercalate_cons_cons]

end Text

end FiniteReach
