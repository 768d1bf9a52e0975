import FiniteReach.Numeral.Stream

/-!
# Words

A word is a finite sequence of symbols. Its text is read like every number stream: `"0 1 1"`,
`"0,1,1"` and `"[0;1;1]"` are the same word, and a text without digits is the empty word.
-/

namespace FiniteReach

/-- A finite sequence of symbols; a symbol is an index into some alphabet. -/
abbrev Word := List Nat

/-- Why a text is no word. -/
inductive WordFault where
  /-- A digit run is not smaller than `limit`. -/
  | tooLarge (run : Bytes)
  deriving DecidableEq, Repr

/-- The wording of a fault. -/
def WordFault.message : WordFault → String
  | .tooLarge run => s!"symbol {Text.ofAscii run} is too large"

namespace Word

/-- The word that a text holds. -/
def parse (text : String) : Except WordFault Word :=
  collect ((Numeral.runs (Text.utf8 text)).map (Numeral.ofRun .tooLarge))

/-- The symbols with a space between them; the empty word is `ε`. -/
def toText (w : Word) : String :=
  if w.isEmpty then "ε" else " ".intercalate (w.map toString)

end Word

end FiniteReach
