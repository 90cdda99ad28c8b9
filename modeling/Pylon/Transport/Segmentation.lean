import Pylon.Transport.Inbound

/-!
# Segmentation

The same bytes may reach `read_frames` in many ways. What a connection should
make of a stream does not depend on that: the dispatcher takes the frames in front
of the first framing error until one of them closes the connection, and if none
does, the error fails the connection (`Verdict`). There are two ways to come to
something else. A call that meets the error returns it alone and drops the frames it
parsed before (`Mixed`); and a frame that closes the connection when its batch is over
lets the rest of the batch through (`Overrun`). A connection follows the stream's
verdict as long as its calls are `Orderly` (`Follows`), and has taken too few frames or
too many from the first one on that is not (`Lost`).
-/

namespace Pylon.Transport

open Pylon.Lib

variable {maxPayload : Nat} {reacts : List Frame → Reaction}

/-! ## The dispatcher -/

/-- The frames taken if every frame came in a batch of its own. -/
def handEach (reacts : List Frame → Reaction) (taken : List Frame) :
    List Frame → List Frame × Bool
  | [] => (taken, false)
  | frame :: frames =>
    if reacts (taken ++ [frame]) = .keep then handEach reacts (taken ++ [frame]) frames
    else (taken ++ [frame], true)

variable {stream : Bytes} {reads : List (SockRead Chunk)} {c : Inbound} {frames taken : List Frame}
  {error : Option ConnError}

/-- A dispatcher that does not close takes everything. -/
theorem handEach_kept (h : (handEach reacts taken frames).2 = false) :
    handEach reacts taken frames = (taken ++ frames, false) := by
  induction frames generalizing taken with
  | nil => simp [handEach]
  | cons _ _ ih =>
    rw [handEach] at h ⊢
    split at h
    · next hkeep =>
      rw [if_pos hkeep, ih h, List.append_assoc]
      rfl
    · cases h

/-- In a batch, a frame stands behind one that is going to close the connection. -/
def Overrun (reacts : List Frame → Reaction) (taken : List Frame) : List Frame → Bool
  | [] => false
  | frame :: frames =>
    match reacts (taken ++ [frame]) with
    | .keep => Overrun reacts (taken ++ [frame]) frames
    | .close => false
    | .closeLater => !frames.isEmpty

/-- What the dispatcher takes of a stream, and how the connection ends. -/
def Verdict (maxPayload : Nat) (reacts : List Frame → Reaction) (stream : Bytes)
    (taken : List Frame)
    (ended : Option Over) : Prop :=
  ∃ frames error tail, Cuts (frameParser maxPayload) stream frames error tail ∧
    (handEach reacts [] frames).1 = taken ∧
    ended = if (handEach reacts [] frames).2 then some .dispatched else error.map .failed

theorem Verdict.unique {taken' : List Frame} {ended ended' : Option Over}
    (h : Verdict maxPayload reacts stream taken ended)
    (h' : Verdict maxPayload reacts stream taken' ended') : taken = taken' ∧ ended = ended' := by
  obtain ⟨frames, error, tail, hcuts, rfl, rfl⟩ := h
  obtain ⟨frames', error', tail', hcuts', rfl, rfl⟩ := h'
  obtain ⟨rfl, rfl, rfl⟩ := hcuts.unique hcuts'
  exact ⟨rfl, rfl⟩

/-- The connection has made of the stream so far what it should: while it is open,
its dispatcher has all the frames and its buffer the rest; once it has ended, no
continuation of the stream changes the verdict. -/
def Follows (maxPayload : Nat) (reacts : List Frame → Reaction) (c : Inbound) (stream : Bytes) :
    Prop :=
  if c.ended = none then
    Cuts (frameParser maxPayload) stream c.taken none c.inbuf ∧
      (handEach reacts [] c.taken).2 = false
  else ∀ ext, Verdict maxPayload reacts (stream ++ ext) c.taken c.ended

theorem Follows.verdict (h : Follows maxPayload reacts c stream) :
    Verdict maxPayload reacts stream c.taken c.ended := by
  rw [Follows] at h
  split at h
  next hopen =>
    refine ⟨c.taken, none, c.inbuf, h.1, ?_, ?_⟩
    · rw [handEach_kept h.2, List.nil_append]
    · rw [h.2, hopen]
      rfl
  next => simpa using h []

/-- The connection has ended with too few frames of the stream taken, or too many. -/
def Lost (maxPayload : Nat) (reacts : List Frame → Reaction) (c : Inbound) (stream : Bytes) :
    Prop :=
  c.ended ≠ none ∧ ∀ ext taken ended, Verdict maxPayload reacts (stream ++ ext) taken ended →
    c.taken.length ≠ taken.length

/-- A buffer that starts with a complete frame and holds a framing error. -/
def Mixed (maxPayload : Nat) (buf : Bytes) : Prop :=
  (parse buf maxPayload).toBool = true ∧
    (parseFrames maxPayload buf.length buf).1.toBool = false

instance (maxPayload : Nat) (buf : Bytes) : Decidable (Mixed maxPayload buf) :=
  inferInstanceAs (Decidable (_ ∧ _))

/-- The complete frames of a buffer without an error. -/
def framesOf (maxPayload : Nat) (buf : Bytes) : List Frame :=
  match (parseFrames maxPayload buf.length buf).1 with
  | .ok frames => frames
  | .error _ => []

/-- The call does not have both a frame and the error, and its batch is not overrun. -/
def Orderly (maxPayload : Nat) (reacts : List Frame → Reaction) (c : Inbound)
    (reads : List (SockRead Chunk)) : Prop :=
  c.ended = none → ¬ Mixed maxPayload (c.inbuf ++ available reads) ∧
    Overrun reacts c.taken (framesOf maxPayload (c.inbuf ++ available reads)) = false

instance (maxPayload : Nat) (reacts : List Frame → Reaction) (c : Inbound)
    (reads : List (SockRead Chunk)) : Decidable (Orderly maxPayload reacts c reads) :=
  inferInstanceAs (Decidable (_ → _ ∧ _))

theorem handleReads_ended (h : c.ended ≠ none) (reads : List (SockRead Chunk)) :
    handleReads maxPayload reacts c reads = c := by
  rw [handleReads, if_pos h]

theorem Lost.handleReads (h : Lost maxPayload reacts c stream) (reads : List (SockRead Chunk)) :
    Lost maxPayload reacts (handleReads maxPayload reacts c reads) (stream ++ available reads) := by
  rw [handleReads_ended h.1]
  refine ⟨h.1, ?_⟩
  intro ext taken ended hverdict
  rw [List.append_assoc] at hverdict
  exact h.2 _ taken ended hverdict

/-! ## Any number of calls -/

theorem Lost.run (h : Lost maxPayload reacts c stream) (events : List (List (SockRead Chunk))) :
    Lost maxPayload reacts (run (Transport.handleReads maxPayload reacts) c events)
      (stream ++ events.flatMap available) := by
  induction events generalizing c stream with
  | nil => simpa using h
  | cons reads _ ih =>
    rw [run_cons, List.flatMap_cons, ← List.append_assoc]
    exact ih (h.handleReads reads)

/-- The two ways come to the same. -/
def Alike (reacts : List Frame → Reaction) (as bs : List (List (SockRead Chunk))) : Prop :=
  (run (handleReads 16 reacts) {} as).taken = (run (handleReads 16 reacts) {} bs).taken ∧
    (run (handleReads 16 reacts) {} as).ended = (run (handleReads 16 reacts) {} bs).ended

end Pylon.Transport
