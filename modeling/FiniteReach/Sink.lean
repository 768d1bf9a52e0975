import FiniteReach.Source

/-!
# Byte sinks

Printers give their output in pieces. A sink takes the pieces one after another, each byte by byte
as long as there is room, and refuses the rest with its failure.
-/

namespace FiniteReach

/-- An output in parts; what is written is their concatenation. -/
abbrev Pieces := List Bytes

/-- What a sink has taken and how much more it takes. -/
structure Sink where
  held : Array UInt8 := #[]
  room : Nat
  /-- What the sink says when it is full. -/
  failure : IoFault
  deriving DecidableEq, Repr

namespace Sink

/-- The sink after a piece, of which it takes what fits. -/
def take (sink : Sink) (piece : Bytes) : Sink :=
  { sink with held := sink.held ++ piece.take sink.room, room := sink.room - piece.length }

/-- Writes pieces up to the first that does not fit. -/
def write (sink : Sink) : Pieces → Except IoFault Unit × Sink
  | [] => (.ok (), sink)
  | piece :: rest =>
    if piece.length ≤ sink.room then (sink.take piece).write rest
    else (.error sink.failure, sink.take piece)

/-! ## What comes of writing -/

theorem take_nil (sink : Sink) : sink.take [] = sink := by simp [take]

theorem take_take (sink : Sink) (p q : Bytes) : (sink.take p).take q = sink.take (p ++ q) := by
  have hheld : sink.held ++ p.take sink.room ++ q.take (sink.room - p.length) =
      sink.held ++ (p ++ q).take sink.room := Array.ext' (by simp [List.take_append])
  simp only [take, hheld, List.length_append, Nat.sub_sub]

/-- A sink that is full stays as it is. -/
theorem take_of_full {sink : Sink} (h : sink.room = 0) (bs : Bytes) : sink.take bs = sink := by
  obtain ⟨held, room, failure⟩ := sink
  cases h
  simp [take]

/-- As much as there is room for is taken, and the failure is reported if that is not everything. -/
def outcome (bs : Bytes) (sink : Sink) : Except IoFault Unit × Sink :=
  (if bs.length ≤ sink.room then .ok () else .error sink.failure, sink.take bs)

theorem outcome_nil (sink : Sink) : outcome [] sink = (.ok (), sink) := by
  rw [outcome, take_nil, List.length_nil, if_pos (Nat.zero_le _)]

theorem outcome_append_of_le {sink : Sink} {p : Bytes} (h : p.length ≤ sink.room) (q : Bytes) :
    outcome (p ++ q) sink = outcome q (sink.take p) := by
  have hroom : (p ++ q).length ≤ sink.room ↔ q.length ≤ (sink.take p).room := by
    rw [List.length_append, take]
    exact (Nat.le_sub_iff_add_le' h).symm
  simp only [outcome, hroom, take_take]
  rfl

theorem outcome_append_of_lt {sink : Sink} {p : Bytes} (h : sink.room < p.length) (q : Bytes) :
    outcome (p ++ q) sink = (.error sink.failure, sink.take p) := by
  have hroom : ¬ (p ++ q).length ≤ sink.room := by
    rw [List.length_append]
    omega
  have hfull : (sink.take p).room = 0 := Nat.sub_eq_zero_of_le (Nat.le_of_lt h)
  rw [outcome, if_neg hroom, ← take_take, take_of_full hfull]

/-- It makes no difference how the output is cut into pieces. -/
theorem write_eq_outcome (sink : Sink) (pieces : Pieces) :
    sink.write pieces = outcome pieces.flatten sink := by
  induction pieces generalizing sink with
  | nil => rw [write, List.flatten_nil, outcome_nil]
  | cons piece rest ih =>
    rw [write, List.flatten_cons]
    split
    · next hfits => rw [ih, outcome_append_of_le hfits]
    · next hfull => rw [outcome_append_of_lt (Nat.lt_of_not_le hfull)]

/-- Writing succeeds exactly if everything fits, and then everything has been taken. -/
theorem write_eq_ok {sink written : Sink} {pieces : Pieces} :
    sink.write pieces = (.ok (), written) ↔ pieces.flatten.length ≤ sink.room ∧
      written = { sink with
        held := sink.held ++ pieces.flatten, room := sink.room - pieces.flatten.length } := by
  rw [write_eq_outcome, outcome]
  by_cases hfits : pieces.flatten.length ≤ sink.room
  · rw [if_pos hfits, take, List.take_of_length_le hfits]
    simp only [Prod.mk.injEq, true_and, hfits, eq_comm]
  · simp only [hfits, ↓reduceIte, Prod.mk.injEq, reduceCtorEq, false_and]

end Sink

end FiniteReach
