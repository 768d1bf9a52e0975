import FiniteReach.Sink

/-!
# Sinks that take portions, and buffers before them

A sink need not take all that it is given at once. What it leaves is given to it again, until it has
taken everything or is full. A buffer collects small pieces on their way to a sink. Pieces that it has
accepted may still be lost, so a writer that ends well has to flush it; one that is given up tries
once more to pass on what it holds, and nobody hears of that failing.
-/

namespace FiniteReach

/-- How much a sink takes at once of what it is given. -/
abbrev Portion := Sink → Bytes → Nat

/-- Something that is done to a writer and may fail. -/
abbrev Writing (σ : Type) := σ → Except IoFault Unit × σ

namespace Writing

variable {σ : Type}

/-- One thing after another, unless the first one has failed. -/
def andThen (first second : Writing σ) : Writing σ := fun s =>
  match first s with
  | (.ok (), s) => second s
  | (.error fault, s) => (.error fault, s)

/-- Pieces one after another, up to the first that fails. -/
def each (write : Bytes → Writing σ) : Pieces → Writing σ
  | [] => fun s => (.ok (), s)
  | piece :: rest => andThen (write piece) (each write rest)

end Writing

namespace Sink

/-- How many bytes a sink takes at once. It takes at least one if it has room for any. -/
def taken (portion : Portion) (sink : Sink) (bs : Bytes) : Nat :=
  min sink.room (max 1 (portion sink bs))

/-- Gives bytes to a sink until it has taken them all or is full. What it has left comes first. -/
def push (portion : Portion) (sink : Sink) (bs : Bytes) : Bytes × Sink :=
  if bs = [] ∨ sink.room = 0 then (bs, sink)
  else
    let count := sink.taken portion bs
    (sink.take (bs.take count)).push portion (bs.drop count)
termination_by bs.length
decreasing_by
  rename_i h
  have hpos : 0 < bs.length := List.length_pos_iff.2 fun hnil => h (.inl hnil)
  rw [List.length_drop, taken]
  omega

/-- Writes a piece, in as many portions as it takes. -/
def writeAll (portion : Portion) (piece : Bytes) : Writing Sink := fun sink =>
  let (left, sink) := sink.push portion piece
  (if left.isEmpty then .ok () else .error sink.failure, sink)

end Sink

/-- A sink with a buffer before it that holds up to `capacity` bytes. -/
structure Buffered where
  sink : Sink
  capacity : Nat
  /-- What has been accepted and not yet been passed on. -/
  pending : Bytes := []

namespace Buffered

/-- Passes on what is pending; what the sink leaves stays pending. -/
def flush (portion : Portion) : Writing Buffered := fun out =>
  let (left, sink) := out.sink.push portion out.pending
  (if left.isEmpty then .ok () else .error sink.failure, { out with sink, pending := left })

/-- Room for what is to be written is made first if the buffer has too little. -/
def makeRoom (portion : Portion) (piece : Bytes) : Writing Buffered := fun out =>
  if out.capacity - out.pending.length < piece.length then out.flush portion else (.ok (), out)

/-- Writes to the sink itself what is not smaller than a whole buffer, and keeps the rest. -/
def accept (portion : Portion) (piece : Bytes) : Writing Buffered := fun out =>
  if out.capacity ≤ piece.length then
    let (result, sink) := out.sink.writeAll portion piece
    (result, { out with sink })
  else (.ok (), { out with pending := out.pending ++ piece })

/-- Writes a piece, which need not reach the sink. -/
def write (portion : Portion) (piece : Bytes) : Writing Buffered := fun out =>
  if piece.length < out.capacity - out.pending.length then
    (.ok (), { out with pending := out.pending ++ piece })
  else Writing.andThen (makeRoom portion piece) (accept portion piece) out

/-- The sink of a buffer that is given up. Whatever is still pending is offered to it once more. -/
def close (portion : Portion) (out : Buffered) : Sink := (out.sink.push portion out.pending).2

/-- Writes pieces through a buffer, which is flushed if nothing has failed before, and given up in any
case. -/
def writeThrough (portion : Portion) (capacity : Nat) (pieces : Pieces) : Writing Sink := fun sink =>
  let (result, out) := Writing.andThen (Writing.each (write portion) pieces) (flush portion)
    { sink, capacity }
  (result, out.close portion)

end Buffered

end FiniteReach
