import FiniteReach.Binary
import FiniteReach.Description.Printer
import FiniteReach.Description.Reader
import FiniteReach.Json.Record
import FiniteReach.Sink.Buffered

/-!
# Storage formats

An automaton is stored as a description, as a JSON text or in binary. `Format.pieces` and
`Format.load` write and read each of them; what has been read is checked like any other automaton.
`Format.save` gives the pieces to a sink one by one, `Format.saveThrough` does with portions and a
buffer between; both come to the same (`Format.saveThrough_eq`).
-/

namespace FiniteReach

/-- How an automaton is stored. -/
inductive Format where
  /-- The numbers of a description. -/
  | text
  | binary
  | json
  deriving DecidableEq, Repr

/-- Why storing an automaton or reading a stored one failed. -/
inductive CodecFault where
  /-- The binary form is damaged or its file failed. -/
  | binary (cause : Binary.Fault)
  /-- The JSON text is damaged or its file failed. -/
  | json (cause : Json.Fault)
  /-- Writing a description failed. -/
  | unwritten (cause : IoFault)
  /-- Reading a description failed. -/
  | description (fault : LoadFault)
  /-- The stored record is no automaton, or its table cannot be allocated. -/
  | record (cause : Halt FormatFault)
  deriving DecidableEq, Repr

namespace CodecFault

/-- The wording of a fault. -/
def message : CodecFault → String
  | .binary _ => "Bincode error"
  | .json _ => "JSON error"
  | .unwritten _ => "I/O error"
  | .description fault => fault.message
  | .record (.fault fault) => fault.message
  | .record .trap => "capacity overflow"

end CodecFault

namespace Format

/-- The name of a format. -/
def name : Format → String
  | .text => "text"
  | .binary => "bincode"
  | .json => "json"

/-- The file extension of a format. -/
def extension : Format → String
  | .text => "txt"
  | .binary => "bin"
  | .json => "json"

/-- All formats. -/
def all : List Format := [.text, .binary, .json]

/-- The format of a name. -/
def ofName? (given : String) : Option Format := all.find? (·.name = given)

/-- The format of a file extension. -/
def ofExtension? (given : String) : Option Format := all.find? (·.extension = given)

/-- A stored automaton in pieces. -/
def pieces (format : Format) (A : Automaton) : Pieces :=
  match format with
  | .text => Description.lines A
  | .binary => Binary.pieces A.record
  | .json => Json.recordPieces A.record

/-- A stored automaton. -/
def encode (format : Format) (A : Automaton) : Bytes := (format.pieces A).flatten

/-- The fault of a format of which a sink has failed. -/
def unwritten (format : Format) (cause : IoFault) : CodecFault :=
  match format with
  | .text => .unwritten cause
  | .binary => .binary (.io cause)
  | .json => .json (.io cause)

/-- Stores an automaton in a sink. -/
def save (format : Format) (A : Automaton) (sink : Sink) : Except CodecFault Unit × Sink :=
  let (result, sink) := sink.write (format.pieces A)
  (result.mapError format.unwritten, sink)

/-- Stores an automaton in a sink that takes portions: descriptions through a buffer of this capacity,
the other formats piece by piece. -/
def saveThrough (portion : Portion) (capacity : Nat) (format : Format) (A : Automaton)
    (sink : Sink) : Except CodecFault Unit × Sink :=
  let (result, sink) :=
    match format with
    | .text => Buffered.writeThrough portion capacity (format.pieces A) sink
    | .binary | .json => Writing.each (Sink.writeAll portion) (format.pieces A) sink
  (result.mapError format.unwritten, sink)

/-- The automaton that a source holds. Descriptions are read in the state-major layout. -/
def load (format : Format) (src : Source) : Except CodecFault Automaton :=
  match format with
  | .text => (Description.load .stateMajor src).mapError .description
  | .binary => do
    let record ← (Binary.readRecord src).mapError .binary
    record.automaton?.mapError .record
  | .json => do
    let record ← (Json.readRecord src).mapError .json
    record.automaton?.mapError .record

end Format

end FiniteReach
