import FiniteReach.Json.Reader
import FiniteReach.Text.Utf8

/-!
# Texts in JSON texts

A text stands between quotes. Escapes are resolved, two escapes of surrogates in the right order
make one character, and what results must be UTF-8.
-/

namespace FiniteReach.Json

/-- The value of a hexadecimal digit. -/
def hexDigit? (b : UInt8) : Option Nat :=
  if Numeral.isDigit b then some (b.toNat - 48)
  else if 97 ≤ b && b ≤ 102 then some (b.toNat - 87)
  else if 65 ≤ b && b ≤ 70 then some (b.toNat - 55)
  else none

/-- The byte for which an escape of one letter stands. -/
def shortEscape? (b : UInt8) : Option UInt8 :=
  if b = 34 || b = 92 || b = 47 then some b
  else if b = 98 then some 8
  else if b = 102 then some 12
  else if b = 110 then some 10
  else if b = 114 then some 13
  else if b = 116 then some 9
  else none

namespace Reader

/-- The number that four hexadecimal digits denote. -/
def hexEscape : Reader Nat := do
  let a ← next .endInText
  let b ← next .endInText
  let c ← next .endInText
  let d ← next .endInText
  match hexDigit? a, hexDigit? b, hexDigit? c, hexDigit? d with
  | some a, some b, some c, some d => return ((a * 16 + b) * 16 + c) * 16 + d
  | _, _, _, _ => throw .invalidEscape

/-- The byte `b`, as the part of a surrogate pair that must come next. -/
def pairByte (b : UInt8) : Reader Unit := do
  if (← next .endInText) ≠ b then throw .halfPair

/-- The character of an escape by number, after its `u`. -/
def numberedEscape : Reader Bytes := do
  let first ← hexEscape
  if 0xDC00 ≤ first && first ≤ 0xDFFF then throw .loneSurrogate
  else if 0xD800 ≤ first && first ≤ 0xDBFF then do
    pairByte 92
    pairByte 117
    let second ← hexEscape
    if 0xDC00 ≤ second && second ≤ 0xDFFF then
      return String.utf8EncodeChar
        (Char.ofNat (0x10000 + (first - 0xD800) * 0x400 + (second - 0xDC00)))
    else throw .loneSurrogate
  else return String.utf8EncodeChar (Char.ofNat first)

/-- The bytes for which an escape stands, after its backslash. -/
def escape : Reader Bytes := do
  let b ← next .endInText
  if b = 117 then numberedEscape
  else
    match shortEscape? b with
    | some resolved => return [resolved]
    | none => throw .invalidEscape

/-- The bytes of a text up to its closing quote. -/
def textBytes : Rounds → Reader Bytes
  | [] => throw .endInText
  | _ :: rounds => do
    let b ← next .endInText
    if b = 34 then return []
    else if b = 92 then
      let resolved ← escape
      return resolved ++ (← textBytes rounds)
    else if b < 32 then throw .controlCharacter
    else return b :: (← textBytes rounds)

/-- A text after its opening quote. -/
def text : Reader String := do
  match Text.ofUtf8? (← textBytes (← rounds)) with
  | some s => return s
  | none => throw .invalidText

end Reader

end FiniteReach.Json
