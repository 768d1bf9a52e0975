/-!
# Bytes and text

Files and streams hold bytes, messages and arguments are text. `utf8` writes text as bytes and
`ofUtf8?` reads it back; neither loses anything (`ofUtf8?_utf8`, `utf8_of_ofUtf8?`).
-/

namespace FiniteReach

/-- The content of a file or a stream. -/
abbrev Bytes := List UInt8

namespace Text

/-- The UTF-8 encoding of a text. -/
def utf8 (s : String) : Bytes := s.toByteArray.data.toList

/-- The text that has this UTF-8 encoding, if there is one. -/
def ofUtf8? (bs : Bytes) : Option String := String.fromUTF8? ⟨bs.toArray⟩

/-- A text of ASCII bytes; every other byte becomes the character of that number. -/
def ofAscii (bs : Bytes) : String := String.ofList (bs.map fun b => Char.ofNat b.toNat)

theorem ofUtf8?_utf8 (s : String) : ofUtf8? (utf8 s) = some s := by
  simp only [ofUtf8?, utf8, String.fromUTF8?, Array.toArray_toList, s.isValidUTF8, ↓reduceDIte]
  rfl

theorem utf8_of_ofUtf8? {bs : Bytes} {s : String} (h : ofUtf8? bs = some s) : utf8 s = bs := by
  simp only [ofUtf8?, String.fromUTF8?] at h
  split at h <;> simp_all [utf8]
  subst h
  rfl

theorem utf8_append (s t : String) : utf8 (s ++ t) = utf8 s ++ utf8 t := by
  simp [utf8, String.toByteArray_append]

end Text

end FiniteReach
