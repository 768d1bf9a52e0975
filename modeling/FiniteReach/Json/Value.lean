import FiniteReach.Json.Number
import FiniteReach.Json.Skip

/-!
# Reading values of a known kind

`natural`, `list`, `quotedText` and `nullable` read values of one kind each; whatever else comes
next is named as `Found`. A `Shape` describes a record: an object with the record's fields in any
order, unknown ones skipped and none twice, or a list of the values of all fields in order.
-/

namespace FiniteReach.Json

namespace Reader

variable {α σ : Type}

/-- Fails because something else than `expected` comes next. Literals, numbers and texts are read
to their end first, and a fault in one of them wins. -/
def wrongKind (expected : String) : Reader α := do
  let found : Found ← do
    match ← peek with
    | none => throw .expectedValue
    | some b =>
      if b = 110 then do drop; literal [117, 108, 108]; pure .null
      else if b = 116 then do drop; literal [114, 117, 101]; pure (.boolean true)
      else if b = 102 then do drop; literal [97, 108, 115, 101]; pure (.boolean false)
      else if b = 45 then do drop; pure (← number false).found
      else if Numeral.isDigit b then pure (← number true).found
      else if b = 34 then do drop; pure (.text (← text))
      else if b = 91 then pure .sequence
      else if b = 123 then pure .map
      else throw .expectedValue
  throw (.wrongKind found expected)

/-- The byte with which the next value starts. -/
def start : Reader UInt8 := do
  match ← skipBlanks with
  | some b => return b
  | none => throw .endInValue

/-- An integer that is not negative. -/
def natural (expected : String) : Reader Nat := do
  let b ← start
  let value ←
    if b = 45 then do drop; number false
    else if Numeral.isDigit b then number true
    else wrongKind expected
  match value with
  | .natural n => return n
  | .negative _ => throw (.wrongValue value.found expected)
  | .real _ => throw (.wrongKind value.found expected)

/-- A text. -/
def quotedText (expected : String) : Reader String := do
  if (← start) = 34 then do drop; text
  else wrongKind expected

/-- The value `null`. -/
def null (expected : String) : Reader Unit := do
  if (← start) = 110 then do drop; literal [117, 108, 108]
  else wrongKind expected

/-- A value or `null`. -/
def nullable (value : Reader α) : Reader (Option α) := do
  if (← skipBlanks) = some 110 then do drop; literal [117, 108, 108]; return none
  else return some (← value)

/-- Whether a list goes on; a comma before the next value is taken away. -/
def listGoesOn (first : Bool) : Reader Bool := do
  match ← skipBlanks with
  | none => throw .endInList
  | some b =>
    if b = 93 then return false
    else if first then return true
    else if b = 44 then do
      drop
      match ← skipBlanks with
      | none => throw .endInValue
      | some b => if b = 93 then throw .trailingComma else return true
    else throw .expectedCommaOrBracket

/-- The values of a list up to its closing bracket. -/
def items (item : Reader α) (first : Bool) : Rounds → Reader (List α)
  | [] => throw .endInList
  | _ :: rounds => do
    if ← listGoesOn first then
      let a ← item
      return a :: (← items item false rounds)
    else return []

/-- A list of values of one kind. -/
def list (item : Reader α) : Reader (List α) := do
  if (← start) = 91 then do
    drop
    let values ← items item true (← rounds)
    drop
    return values
  else wrongKind "a sequence"

/-- Whether an object goes on; a comma before the next key is taken away. -/
def objectGoesOn (first : Bool) : Reader Bool := do
  match ← skipBlanks with
  | none => throw .endInObject
  | some b =>
    if b = 125 then return false
    else if first then if b = 34 then return true else throw .keyNotText
    else if b = 44 then do
      drop
      match ← skipBlanks with
      | none => throw .endInValue
      | some b =>
        if b = 34 then return true
        else if b = 125 then throw .trailingComma
        else throw .keyNotText
    else throw .expectedCommaOrBrace

end Reader

/-! ## Records -/

/-- A field of a record that is being filled. -/
structure Field (σ : Type) where
  name : String
  /-- Whether the record has a value for the field. -/
  filled : σ → Bool
  /-- Reads a value and puts it into the record. -/
  fill : σ → Reader σ

/-- The fields of a record and what the record is called in messages. -/
structure Shape (σ : Type) where
  title : String
  fields : List (Field σ)

namespace Reader

variable {σ : Type}

/-- The values of the fields in order; `count` values have been read. -/
def inOrder (expected : String) (count : Nat) : List (Field σ) → σ → Reader σ
  | [], record => return record
  | field :: fields, record => do
    if ← listGoesOn (count = 0) then
      inOrder expected (count + 1) fields (← field.fill record)
    else throw (.wrongLength count expected)

/-- The closing bracket of a list of which every value has been read. -/
def closeList : Reader Unit := do
  match ← skipBlanks with
  | none => throw .endInList
  | some b =>
    if b = 93 then drop
    else if b = 44 then do
      drop
      let after ← tryCatch skipBlanks fun _ => pure none
      throw (if after = some 93 then .trailingComma else .trailingCharacters)
    else throw .trailingCharacters

/-- The entries of an object up to its closing brace. -/
def entries (fields : List (Field σ)) (first : Bool) (record : σ) : Rounds → Reader σ
  | [] => throw .endInObject
  | _ :: rounds => do
    if ← objectGoesOn first then
      drop
      let key ← text
      let record ←
        match fields.find? (·.name = key) with
        | none => do colon; skip; pure record
        | some field =>
          if field.filled record then throw (.duplicateField key)
          else do colon; field.fill record
      entries fields false record rounds
    else return record

/-- A record, from an object or a list. Fields that an object does not have stay as they are. -/
def record (shape : Shape σ) (blank : σ) : Reader σ := do
  let b ← start
  if b = 91 then do
    drop
    let expected := s!"{shape.title} with {shape.fields.length} elements"
    let filled ← inOrder expected 0 shape.fields blank
    closeList
    return filled
  else if b = 123 then do
    drop
    let filled ← entries shape.fields true blank (← rounds)
    drop
    return filled
  else wrongKind shape.title

end Reader

/-- The value of a field that a record must have. -/
def required {α : Type} (name : String) : Option α → Reader α
  | some a => return a
  | none => throw (.missingField name)

end FiniteReach.Json
