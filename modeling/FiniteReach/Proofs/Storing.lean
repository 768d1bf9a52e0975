import FiniteReach.Format

/-!
# Storing in sinks that are too small

A sink that takes portions ends up with what fits into it, and only if that is not everything a
failure is reported (`Sink.writeAll_eq`). The same is true of a buffer before the sink: what has been
accepted is either pending or has been passed on, and a piece that is lost is reported at the latest
when the buffer is flushed (`Buffered.writeThrough_eq`). So no automaton counts as stored that has
been stored in part (`Format.saveThrough_cut`).
-/

namespace FiniteReach

variable {portion : Portion}

/-! ## Portions -/

namespace Sink

/-- Whatever the portions are, in the end the sink has taken what fits. -/
theorem push_eq (portion : Portion) (sink : Sink) (bs : Bytes) :
    sink.push portion bs = (bs.drop sink.room, sink.take bs) := by
  fun_induction push portion sink bs with
  | case1 sink bs h =>
      rcases h with rfl | hfull
      · rw [List.drop_nil, take_nil]
      · rw [take_of_full hfull, hfull, List.drop_zero]
  | case2 sink bs h count ih =>
      have hroom : count ≤ sink.room := Nat.min_le_left _ _
      rw [ih, take_take, List.take_append_drop, List.drop_drop]
      rcases Nat.le_total count bs.length with hle | hge
      · have hrest : (sink.take (bs.take count)).room = sink.room - count := by
          rw [take, List.length_take_of_le hle]
        rw [hrest, Nat.add_sub_cancel' hroom]
      · rw [List.drop_eq_nil_of_le (by omega), List.drop_eq_nil_of_le (by omega)]

theorem writeAll_eq (portion : Portion) (piece : Bytes) :
    writeAll portion piece = outcome piece := by
  funext sink
  rw [writeAll, push_eq, outcome]
  simp only [List.isEmpty_iff, List.drop_eq_nil_iff]
  rfl

/-- A sink that has refused something takes nothing more. -/
theorem take_refused {sink : Sink} {bs : Bytes} (h : sink.room ≤ bs.length) (more : Bytes) :
    (sink.take bs).take more = sink.take bs :=
  take_of_full (Nat.sub_eq_zero_of_le h) more

end Sink

namespace Writing

open Sink

variable {σ : Type}

theorem andThen_of_ok {first second : Writing σ} {s s' : σ} (h : first s = (.ok (), s')) :
    andThen first second s = second s' := by rw [andThen, h]

theorem andThen_of_error {first second : Writing σ} {s s' : σ} {fault : IoFault}
    (h : first s = (.error fault, s')) : andThen first second s = (.error fault, s') := by
  rw [andThen, h]

theorem andThen_outcome (p q : Bytes) : andThen (outcome p) (outcome q) = outcome (p ++ q) := by
  funext sink
  rcases Nat.lt_or_ge sink.room p.length with hlt | hle
  · rw [outcome_append_of_lt hlt]
    exact andThen_of_error (by rw [outcome, if_neg (Nat.not_le.2 hlt)])
  · rw [outcome_append_of_le hle]
    exact andThen_of_ok (by rw [outcome, if_pos hle])

theorem each_writeAll (portion : Portion) (pieces : Pieces) :
    each (writeAll portion) pieces = outcome pieces.flatten := by
  induction pieces with
  | nil =>
      funext sink
      rw [each, List.flatten_nil, outcome_nil]
  | cons piece rest ih => rw [each, ih, writeAll_eq, andThen_outcome, List.flatten_cons]

end Writing

/-! ## Buffers -/

namespace Buffered

/-- Where writing through a buffer stands after the bytes `sent`. While it goes well, what the buffer
has passed on fits into the sink and the rest is pending. Once it has failed, the sink is full. -/
inductive Stands (start : Sink) (sent : Bytes) : Except IoFault Unit × Buffered → Prop where
  | well {out : Buffered} {passed : Bytes} : passed.length ≤ start.room →
      out.sink = start.take passed → passed ++ out.pending = sent →
      out.pending.length ≤ out.capacity → Stands start sent (.ok (), out)
  | failed {out : Buffered} : start.room < sent.length → out.sink = start.take sent →
      Stands start sent (.error start.failure, out)

variable {start : Sink} {sent : Bytes} {out : Buffered}

theorem Stands.length_le (h : Stands start sent (.ok (), out)) :
    out.pending.length ≤ out.capacity := by
  cases h with
  | well _ _ _ hcapacity => exact hcapacity

theorem Stands.more {fault : IoFault} (h : Stands start sent (.error fault, out)) (more : Bytes) :
    Stands start (sent ++ more) (.error fault, out) := by
  cases h with
  | failed hlt hsink =>
      refine .failed ?_ ?_
      · rw [List.length_append]
        omega
      · rw [hsink, ← Sink.take_take, Sink.take_refused (Nat.le_of_lt hlt)]

/-- What is done second may rely on the first having gone well; if it has not, nothing is done. -/
theorem Stands.andThen {first second : Writing Buffered} {more : Bytes}
    (h : Stands start sent (first out))
    (hsecond : ∀ made, first out = (.ok (), made) → Stands start (sent ++ more) (second made)) :
    Stands start (sent ++ more) (Writing.andThen first second out) := by
  match hfirst : first out with
  | (.ok (), made) =>
      rw [Writing.andThen_of_ok hfirst]
      exact hsecond made hfirst
  | (.error fault, made) =>
      rw [hfirst] at h
      rw [Writing.andThen_of_error hfirst]
      exact h.more more

theorem flush_eq (portion : Portion) (out : Buffered) : out.flush portion =
    (if out.pending.length ≤ out.sink.room then .ok () else .error out.sink.failure,
      { out with sink := out.sink.take out.pending, pending := out.pending.drop out.sink.room }) := by
  rw [flush, Sink.push_eq]
  simp only [List.isEmpty_iff, List.drop_eq_nil_iff]
  rfl

theorem Stands.flush (h : Stands start sent (.ok (), out)) (portion : Portion) :
    Stands start sent (out.flush portion) ∧
      ((out.flush portion).1 = .ok () → (out.flush portion).2.pending = []) := by
  cases h with
  | @well _ passed hle hsink hsent hcapacity =>
      have htaken : out.sink.take out.pending = start.take sent := by
        rw [hsink, Sink.take_take, hsent]
      have hroom : out.sink.room = start.room - passed.length := by rw [hsink, Sink.take]
      have hfailure : out.sink.failure = start.failure := by rw [hsink, Sink.take]
      have hlength : sent.length = passed.length + out.pending.length := by
        rw [← hsent, List.length_append]
      rw [flush_eq, htaken, hfailure]
      split
      · next hfits =>
          have hnil : out.pending.drop out.sink.room = [] := List.drop_eq_nil_of_le hfits
          rw [hnil]
          exact ⟨.well (by omega) rfl (List.append_nil sent) (Nat.zero_le _), fun _ => rfl⟩
      · next hfull =>
          refine ⟨.failed (by omega) rfl, fun hok => ?_⟩
          cases hok

/-- A piece that is not kept waits until there is room for it, or until nothing else is pending. -/
theorem Stands.makeRoom (h : Stands start sent (.ok (), out)) (portion : Portion) (piece : Bytes) :
    Stands start sent (makeRoom portion piece out) ∧
      ((makeRoom portion piece out).1 = .ok () → (makeRoom portion piece out).2.pending = [] ∨
        piece.length ≤ (makeRoom portion piece out).2.capacity -
          (makeRoom portion piece out).2.pending.length) := by
  rw [Buffered.makeRoom]
  split
  · exact ⟨(h.flush portion).1, fun hok => .inl ((h.flush portion).2 hok)⟩
  · next hroom => exact ⟨h, fun _ => .inr (Nat.le_of_not_lt hroom)⟩

theorem Stands.keep {piece : Bytes} (h : Stands start sent (.ok (), out))
    (hroom : out.pending.length + piece.length ≤ out.capacity) :
    Stands start (sent ++ piece) (.ok (), { out with pending := out.pending ++ piece }) := by
  cases h with
  | well hle hsink hsent _ =>
      rw [← hsent, List.append_assoc]
      rw [← List.length_append] at hroom
      exact .well hle hsink rfl hroom

/-- A piece may overtake the buffer if nothing is pending. -/
theorem Stands.direct (h : Stands start sent (.ok (), out)) (hnil : out.pending = [])
    (portion : Portion) (piece : Bytes) : Stands start (sent ++ piece)
      ((out.sink.writeAll portion piece).1, { out with sink := (out.sink.writeAll portion piece).2 }) := by
  cases h with
  | @well _ passed hle hsink hsent hcapacity =>
      rw [hnil, List.append_nil] at hsent
      subst hsent
      have htaken : (out.sink.writeAll portion piece).2 = start.take (passed ++ piece) := by
        rw [Sink.writeAll_eq, hsink, Sink.outcome, Sink.take_take]
      have hresult : (out.sink.writeAll portion piece).1 =
          if piece.length ≤ start.room - passed.length then .ok () else .error start.failure := by
        rw [Sink.writeAll_eq, hsink]
        rfl
      have hlength : (passed ++ piece).length = passed.length + piece.length := List.length_append
      rw [hresult, htaken]
      split
      · refine .well (by omega) rfl ?_ hcapacity
        rw [hnil, List.append_nil]
      · exact .failed (by omega) rfl

theorem Stands.accept {piece : Bytes} (h : Stands start sent (.ok (), out)) (portion : Portion)
    (hroom : out.pending = [] ∨ piece.length ≤ out.capacity - out.pending.length) :
    Stands start (sent ++ piece) (accept portion piece out) := by
  have hcapacity : out.pending.length ≤ out.capacity := h.length_le
  have hpending : out.pending = [] ↔ out.pending.length = 0 := List.length_eq_zero_iff.symm
  rw [hpending] at hroom
  rw [Buffered.accept]
  split
  · -- A piece as large as the buffer fits behind nothing that is pending.
    exact h.direct (hpending.2 (by omega)) portion piece
  · exact h.keep (by omega)

theorem Stands.write (h : Stands start sent (.ok (), out)) (portion : Portion) (piece : Bytes) :
    Stands start (sent ++ piece) (write portion piece out) := by
  rw [Buffered.write]
  split
  · exact h.keep (by omega)
  · obtain ⟨hstands, hroom⟩ := h.makeRoom portion piece
    refine hstands.andThen fun made hmade => ?_
    rw [hmade] at hstands hroom
    exact hstands.accept portion (hroom rfl)

theorem Stands.each (h : Stands start sent (.ok (), out)) (portion : Portion) (pieces : Pieces) :
    Stands start (sent ++ pieces.flatten) (Writing.each (Buffered.write portion) pieces out) := by
  induction pieces generalizing sent out with
  | nil =>
      rw [List.flatten_nil, List.append_nil]
      exact h
  | cons piece rest ih =>
      have hstands := h.write portion piece
      rw [Writing.each, List.flatten_cons, ← List.append_assoc]
      refine hstands.andThen fun written hwrite => ?_
      rw [hwrite] at hstands
      exact ih hstands

/-- What a buffer still holds when it is given up is lost only to a sink that is full. -/
theorem Stands.close {result : Except IoFault Unit} (h : Stands start sent (result, out))
    (hpending : result = .ok () → out.pending = []) (portion : Portion) :
    (result, out.close portion) = Sink.outcome sent start := by
  rw [Buffered.close, Sink.push_eq, Sink.outcome]
  cases h with
  | well hle hsink hsent _ =>
      rw [hpending rfl, List.append_nil] at hsent
      subst hsent
      rw [if_pos hle, hpending rfl, Sink.take_nil, hsink]
  | failed hlt hsink =>
      rw [if_neg (Nat.not_le.2 hlt), hsink, Sink.take_refused (Nat.le_of_lt hlt)]

/-- A buffer makes no difference to what is stored in the end and to whether that is reported. -/
theorem writeThrough_eq (portion : Portion) (capacity : Nat) (pieces : Pieces) :
    writeThrough portion capacity pieces = Sink.outcome pieces.flatten := by
  funext sink
  have hstart : Stands sink [] (.ok (), { sink, capacity }) :=
    .well (Nat.zero_le _) (Sink.take_nil sink).symm rfl (Nat.zero_le _)
  have hstands := hstart.each portion pieces
  rw [List.nil_append] at hstands
  rw [writeThrough]
  match hpieces : Writing.each (Buffered.write portion) pieces { sink, capacity } with
  | (.ok (), out) =>
      rw [hpieces] at hstands
      rw [Writing.andThen_of_ok hpieces]
      exact (hstands.flush portion).1.close (hstands.flush portion).2 portion
  | (.error fault, out) =>
      rw [hpieces] at hstands
      rw [Writing.andThen_of_error hpieces]
      exact hstands.close nofun portion

end Buffered

/-! ## Stored automata -/

namespace Format

theorem save_eq_outcome (format : Format) (A : Automaton) (sink : Sink) : format.save A sink =
    ((Sink.outcome (format.encode A) sink).1.mapError format.unwritten,
      (Sink.outcome (format.encode A) sink).2) := by
  rw [save, Sink.write_eq_outcome, encode]

theorem saveThrough_eq (portion : Portion) (capacity : Nat) (format : Format) (A : Automaton) :
    format.saveThrough portion capacity A = format.save A := by
  funext sink
  rw [save_eq_outcome]
  cases format with
  | text => rw [saveThrough, Buffered.writeThrough_eq, encode]
  | binary | json => rw [saveThrough, Writing.each_writeAll, encode]

/-- An automaton counts as stored in a sink exactly if there is room for all of it, whatever portions
the sink takes and whatever a buffer holds back. Otherwise the sink holds as much as there is room
for, and the failure is reported in the way of the format. -/
theorem saveThrough_cut (format : Format) (A : Automaton) (portion : Portion) (capacity room : Nat)
    (failure : IoFault) :
    (format.saveThrough portion capacity A { room, failure }).1 =
        (if (format.encode A).length ≤ room then .ok ()
        else .error <|
          match format with
          | .text => .unwritten failure
          | .json => .json (.io failure)
          | .binary => .binary (.io failure)) ∧
      (format.saveThrough portion capacity A { room, failure }).2.held.toList =
        (if (format.encode A).length ≤ room then format.encode A
        else (format.encode A).take room) ∧
      format.saveThrough portion capacity A { room, failure } = format.save A { room, failure } := by
  rw [saveThrough_eq]
  refine ⟨?_, ?_, rfl⟩
  · rw [save_eq_outcome, Sink.outcome]
    split
    · rfl
    · cases format <;> rfl
  · have hheld : (format.save A { room, failure }).2.held.toList = (format.encode A).take room := by
      rw [save_eq_outcome, Sink.outcome, Sink.take, Array.toList_appendList]
      rfl
    rw [hheld]
    split
    · next hfits => exact List.take_of_length_le hfits
    · rfl

end Format

end FiniteReach
