import Pylon.Lib.Incremental
import Pylon.Lib.Trace
import Pylon.Transport.Codec
import Pylon.Transport.Read

/-!
# The inbound half of an open plain connection

`read_frames` and `handle_frames` call after call: each readiness event brings a
script of reads, the call reads until the socket blocks, takes every complete
frame off the buffer and hands them to the dispatcher, or fails the connection.

* **the frames of a buffer** — `parse` is an incremental parser (`frameParser`),
  and a call answers what the buffer cuts to (`readFramesPlain_eq`), except that
  frames in front of an error are dropped (`outcome`);
* **the buffer, moment by moment** — `callMoments` lists it. Nothing is parsed
  until the socket blocks, so the longest moment of a call is the remainder
  before it with all that was available (`within_iff_room`).
-/

namespace Pylon.Transport

open Pylon.Lib

/-! ## The frames of a buffer -/

/-- `parse` with the errors `read_frames` makes of its own. -/
def parseAnswer (maxPayload : Nat) (buf : Bytes) : Answer UInt8 Frame ConnError :=
  match parse buf maxPayload with
  | .ok (frame, rest) => .item frame rest
  | .error .incomplete => .wait
  | .error (.protocol message) => .fault (.protocol message)
  | .error .tooLarge => .fault (.protocol "frame too large")

variable {maxPayload : Nat} {frames : List Frame} {buf : Bytes}

theorem parseAnswer_eq_item {rest : Bytes} {frame : Frame} :
    parseAnswer maxPayload buf = .item frame rest ↔ parse buf maxPayload = .ok (frame, rest) := by
  rw [parseAnswer]
  rcases parse buf maxPayload with (_ | _ | _) | ⟨frame', rest'⟩ <;> simp

theorem parseAnswer_eq_wait :
    parseAnswer maxPayload buf = .wait ↔ parse buf maxPayload = .error .incomplete := by
  rw [parseAnswer]
  rcases parse buf maxPayload with (_ | _ | _) | ⟨frame', rest'⟩ <;> simp

/-- A fault is a fatal error, and it stands. -/
theorem parseAnswer_fault_append {e : ConnError} (ext : Bytes)
    (h : parseAnswer maxPayload buf = .fault e) :
    parseAnswer maxPayload (buf ++ ext) = .fault e := by
  rw [parseAnswer] at h ⊢
  cases hparse : parse buf maxPayload with
  | ok =>
    rw [hparse] at h
    cases h
  | error e' =>
    rw [hparse] at h
    cases e' with
    | incomplete => cases h
    | protocol | tooLarge =>
      rw [parse_error_append ext hparse (by simp)]
      exact h

/-- The frame parser of a connection. -/
def frameParser (maxPayload : Nat) : Incremental UInt8 Frame ConnError where
  parse := parseAnswer maxPayload
  consumes h := by
    have hless := parse_consumes (parseAnswer_eq_item.mp h)
    omega
  item_append ext h := parseAnswer_eq_item.mpr (parse_ok_append ext (parseAnswer_eq_item.mp h))
  fault_append ext h := parseAnswer_fault_append ext h

/-- What the parse loop returns: frames in front of an error are dropped. -/
def outcome (frames : List Frame) : Option ConnError → Except ConnError (List Frame)
  | none => .ok frames
  | some e => .error e

variable {tail : Bytes}

/-- Enough fuel cuts the buffer to its end. -/
theorem parseFrames_eq {error : Option ConnError}
    (h : Cuts (frameParser maxPayload) buf frames error tail) {fuel : Nat}
    (hfuel : buf.length ≤ fuel) :
    parseFrames maxPayload fuel buf = (outcome frames error, tail) := by
  induction h generalizing fuel with
  | @wait buf hparse =>
    cases fuel with
    | zero => rfl
    | succ =>
      rw [parseFrames, parseAnswer_eq_wait.mp hparse]
      rfl
  | @fault buf e hparse =>
    cases fuel with
    | zero =>
      obtain rfl := List.eq_nil_of_length_eq_zero (Nat.le_zero.mp hfuel)
      cases hparse
    | succ =>
      change parseAnswer maxPayload buf = _ at hparse
      rw [parseAnswer] at hparse
      rw [parseFrames]
      generalize parse buf maxPayload = answer at hparse
      rcases answer with (_ | _ | _) | ⟨frame, rest⟩ <;> cases hparse <;> rfl
  | @item buf frame rest frames error tail hparse _ ih =>
    have hok := parseAnswer_eq_item.mp hparse
    have hless := parse_consumes hok
    cases fuel with
    | zero => omega
    | succ =>
      rw [parseFrames, hok]
      dsimp only
      rw [ih (by omega)]
      cases error <;> rfl

/-- Frames are returned only when nothing but an incomplete one is left. -/
theorem readFramesPlain_ok {reads : List (SockRead Chunk)} {scratch : Bytes}
    (h : readFramesPlain reads maxPayload scratch = (.ok frames, tail)) :
    Cuts (frameParser maxPayload) (scratch ++ available reads) frames none tail := by
  obtain ⟨frames', error, tail', hcuts⟩ :=
    Cuts.total (frameParser maxPayload) (scratch ++ available reads)
  have hparse := parseFrames_eq hcuts (Nat.le_refl _)
  have hfinish : ∀ eof,
      finishRead maxPayload eof (scratch ++ available reads) = (.ok frames, tail) →
      Cuts (frameParser maxPayload) (scratch ++ available reads) frames none tail := by
    intro eof heq
    rw [finishRead, hparse] at heq
    cases error with
    | some => cases heq
    | none =>
      dsimp only [outcome] at heq
      split at heq
      · cases heq
      · cases heq
        exact hcuts
  rw [readFramesPlain, readPlain_eq] at h
  cases hending : ending reads with
  | blocked => rw [hending] at h; exact hfinish false h
  | eof => rw [hending] at h; exact hfinish true h
  | failed => rw [hending] at h; cases h

/-! ## Calls -/

/-- How a connection came to its end: failed by `read_frames`, or closed by the
dispatcher. -/
inductive Over where
  | failed (e : ConnError)
  | dispatched
  deriving DecidableEq, Repr

/-- An open connection's inbound side: the unparsed buffer, and the frames its
dispatcher has taken so far. -/
structure Inbound where
  inbuf : Bytes := []
  taken : List Frame := []
  ended : Option Over := none
  deriving DecidableEq, Repr

/-- What a frame leads to. A Close frame or a violation ends the connection at once; a
failed signin leaves a Close event in the connection's mailbox, which is read when the
batch is over. -/
inductive Reaction where
  | keep
  | close
  | closeLater
  deriving DecidableEq, Repr

/-- `dispatch_frames` takes the frames of a batch one by one; `reacts` says what the last
of the frames taken so far leads to, `due` whether a Close event is in the mailbox. -/
def handOver (reacts : List Frame → Reaction) (due : Bool) (taken : List Frame) :
    List Frame → List Frame × Bool
  | [] => (taken, due)
  | frame :: frames =>
    match reacts (taken ++ [frame]) with
    | .close => (taken ++ [frame], true)
    | .closeLater => handOver reacts true (taken ++ [frame]) frames
    | .keep => handOver reacts due (taken ++ [frame]) frames

/-- `handle_frames` with no frame-rate limit. -/
def handleReads (maxPayload : Nat) (reacts : List Frame → Reaction) (c : Inbound)
    (reads : List (SockRead Chunk)) : Inbound :=
  if c.ended ≠ none then c
  else
    match readFramesPlain reads maxPayload c.inbuf with
    | (.error e, inbuf) => { c with inbuf, ended := some (.failed e) }
    | (.ok frames, inbuf) =>
      let (taken, quit) := handOver reacts false c.taken frames
      { inbuf, taken, ended := if quit then some .dispatched else none }

/-- Between two calls the buffer is short of one frame. -/
def Inbound.Short (maxPayload : Nat) (c : Inbound) : Prop :=
  c.ended = none → c.inbuf.length < maxPayload + 14

theorem short_handleReads (reacts : List Frame → Reaction) {c : Inbound} (h : c.Short maxPayload)
    (reads : List (SockRead Chunk)) : (handleReads maxPayload reacts c reads).Short maxPayload := by
  rw [handleReads]
  split
  next => exact h
  next =>
    split
    next => exact fun hopen => absurd hopen (by simp)
    next frames inbuf hread =>
      intro _
      exact parse_incomplete (parseAnswer_eq_wait.mp (readFramesPlain_ok hread).tail_waits)

/-! ## The buffer within a call -/

/-- The buffer before each read of a call, and after the last. -/
def readMoments : List (SockRead Chunk) → Bytes → List Bytes
  | .data chunk :: reads, buf => buf :: readMoments reads (buf ++ chunk.1)
  | .interrupted :: reads, buf => buf :: readMoments reads buf
  | _, buf => [buf]

/-- The buffer before each frame is taken off it, and after the last. -/
def parseMoments (maxPayload : Nat) : Nat → Bytes → List Bytes
  | 0, buf => [buf]
  | fuel + 1, buf =>
    match parse buf maxPayload with
    | .ok (_, rest) => buf :: parseMoments maxPayload fuel rest
    | .error _ => [buf]

/-- The unparsed buffer at every moment of a call, its end included. -/
def callMoments (maxPayload : Nat) (scratch : Bytes) (reads : List (SockRead Chunk)) : List Bytes :=
  let (buf, ending) := readPlain reads scratch
  readMoments reads scratch ++
    if ending = .failed then [] else parseMoments maxPayload buf.length buf

theorem length_le_of_mem_readMoments (reads : List (SockRead Chunk)) (scratch : Bytes) :
    ∀ buf ∈ readMoments reads scratch, buf.length ≤ scratch.length + (available reads).length := by
  induction reads generalizing scratch with
  | nil => simp [readMoments]
  | cons r _ ih =>
    intro buf hmem
    cases r with
    | data chunk =>
      rw [available, List.length_append]
      rcases List.mem_cons.mp hmem with rfl | hlater
      · omega
      · have hle := ih (scratch ++ chunk.1) buf hlater
        rw [List.length_append] at hle
        omega
    | interrupted =>
      rcases List.mem_cons.mp hmem with rfl | hlater
      · omega
      · exact ih scratch buf hlater
    | eof | wouldBlock | error => simp_all [readMoments]

/-- All that was available is in the buffer at once. -/
theorem available_mem_readMoments (reads : List (SockRead Chunk)) (scratch : Bytes) :
    scratch ++ available reads ∈ readMoments reads scratch := by
  induction reads generalizing scratch with
  | nil => simp [readMoments, available]
  | cons r _ ih =>
    cases r with
    | data chunk =>
      rw [available, ← List.append_assoc]
      exact List.mem_cons_of_mem _ (ih (scratch ++ chunk.1))
    | interrupted => exact List.mem_cons_of_mem _ (ih scratch)
    | eof | wouldBlock | error => simp [readMoments, available]

theorem length_le_of_mem_parseMoments (maxPayload fuel : Nat) (scratch : Bytes) :
    ∀ buf ∈ parseMoments maxPayload fuel scratch, buf.length ≤ scratch.length := by
  induction fuel generalizing scratch with
  | zero => simp [parseMoments]
  | succ _ ih =>
    intro buf hmem
    rw [parseMoments] at hmem
    split at hmem
    next frame rest hparse =>
      have hless := parse_consumes hparse
      rcases List.mem_cons.mp hmem with rfl | hlater
      · exact Nat.le_refl _
      · have hle := ih rest buf hlater
        omega
    next =>
      rw [List.mem_singleton.mp hmem]

theorem parseFrames_mem_parseMoments (maxPayload fuel : Nat) (scratch : Bytes) :
    (parseFrames maxPayload fuel scratch).2 ∈ parseMoments maxPayload fuel scratch := by
  induction fuel generalizing scratch with
  | zero => simp [parseMoments, parseFrames]
  | succ _ ih =>
    rw [parseMoments, parseFrames]
    rcases hparse : parse scratch maxPayload with (_ | _ | _) | ⟨frame, rest⟩
    · simp
    · simp
    · simp
    · exact List.mem_cons_of_mem _ (ih rest)

/-- The buffer a call leaves is the last of its moments. -/
theorem readFramesPlain_mem_callMoments (maxPayload : Nat) (scratch : Bytes)
    (reads : List (SockRead Chunk)) :
    (readFramesPlain reads maxPayload scratch).2 ∈ callMoments maxPayload scratch reads := by
  have hfinish : ∀ eof buf, (finishRead maxPayload eof buf).2 =
      (parseFrames maxPayload buf.length buf).2 := by
    intro eof buf
    rw [finishRead]
    rcases parseFrames maxPayload buf.length buf with ⟨_ | frames, tail⟩
    · rfl
    · dsimp only
      split <;> rfl
  rw [readFramesPlain, callMoments, readPlain_eq]
  cases hending : ending reads with
  | failed => exact List.mem_append_left _ (available_mem_readMoments reads scratch)
  | eof | blocked =>
    refine List.mem_append_right _ ?_
    rw [hfinish]
    exact parseFrames_mem_parseMoments _ _ _

/-- `max_payload`, the largest header and one read. -/
def inboundBound (maxPayload : Nat) : Nat := maxPayload + 14 + chunkSize

/-- The buffer never exceeds the bound during the call. -/
def Within (maxPayload : Nat) (c : Inbound) (reads : List (SockRead Chunk)) : Prop :=
  c.ended = none → ∀ buf ∈ callMoments maxPayload c.inbuf reads,
    buf.length ≤ inboundBound maxPayload

/-- The bytes available at the event find room beside the remainder. -/
def Room (maxPayload : Nat) (c : Inbound) (reads : List (SockRead Chunk)) : Prop :=
  c.ended = none → c.inbuf.length + (available reads).length ≤ inboundBound maxPayload

instance (maxPayload : Nat) (c : Inbound) (reads : List (SockRead Chunk)) :
    Decidable (Room maxPayload c reads) :=
  inferInstanceAs (Decidable (_ → _))

theorem within_iff_room (maxPayload : Nat) (c : Inbound) (reads : List (SockRead Chunk)) :
    Within maxPayload c reads ↔ Room maxPayload c reads := by
  refine forall_congr' fun _ => ?_
  rw [callMoments, readPlain_eq]
  constructor
  · intro hall
    rw [← List.length_append]
    exact hall _ (List.mem_append_left _ (available_mem_readMoments reads c.inbuf))
  · intro hroom buf hmem
    rcases List.mem_append.mp hmem with hread | hparse
    · exact (length_le_of_mem_readMoments reads c.inbuf buf hread).trans hroom
    · split at hparse
      · exact absurd hparse (by simp)
      · have hle := length_le_of_mem_parseMoments _ _ _ buf hparse
        rw [List.length_append] at hle
        exact hle.trans hroom

/-- Over every sequence of readiness events: the buffer stays within the bound at
every moment of every call exactly when, at every event, the bytes available find
room beside the remainder of the call before; and they do whenever no event has
more than one read's worth. -/
theorem inbound_bounded (maxPayload : Nat) (reacts : List Frame → Reaction)
    (events : List (List (SockRead Chunk))) :
    (Along (handleReads maxPayload reacts) (Within maxPayload) {} events ↔
      Along (handleReads maxPayload reacts) (Room maxPayload) {} events) ∧
    ((∀ reads ∈ events, (available reads).length ≤ chunkSize) →
      Along (handleReads maxPayload reacts) (Room maxPayload) {} events) := by
  have hiff : Within maxPayload = Room maxPayload := by
    funext c reads
    exact propext (within_iff_room maxPayload c reads)
  refine ⟨by rw [hiff], fun hone => ?_⟩
  have hstart : Inbound.Short maxPayload {} := fun _ => by simp
  refine (Along.of_mem hone ({} : Inbound)).of_invariant (fun c reads hshort hle => ⟨?_, ?_⟩) hstart
  · exact short_handleReads reacts hshort reads
  · intro hopen
    have hrest := hshort hopen
    rw [inboundBound]
    omega

/-- A frame trickling in, byte by byte. -/
theorem inbound_bounded_trickle :
    Along (handleReads 4 fun _ => .keep) (Within 4) {}
      [[.data ⟨[0x81], by decide⟩], [.interrupted, .data ⟨[0x84], by decide⟩], []] :=
  (inbound_bounded 4 (fun _ => .keep) _).1.mpr
    ((inbound_bounded 4 (fun _ => .keep) _).2 (by decide))

/-- A read that fills the stack buffer. -/
def fullChunk : Chunk :=
  ⟨List.replicate chunkSize 0x81, by rw [chunkSize]; exact List.cons_ne_nil _ _,
    Nat.le_of_eq List.length_replicate⟩

theorem length_available_full (n : Nat) :
    (available (List.replicate n (.data fullChunk))).length = n * chunkSize := by
  induction n with
  | zero => simp [available]
  | succ _ ih =>
    rw [List.replicate_succ, available, List.length_append, ih, Nat.succ_mul, Nat.add_comm]
    simp [fullChunk]

/-- With the default frame limit of 1 MiB, a peer that has 2 MiB ready at one
event has all of them buffered. -/
theorem inbound_unbounded :
    ¬ Along (handleReads (2 ^ 20) fun _ => .keep) (Within (2 ^ 20)) {}
      [List.replicate 128 (.data fullChunk)] := by
  rintro ⟨hwithin, -⟩
  have hroom := (within_iff_room _ _ _).mp hwithin rfl
  rw [length_available_full] at hroom
  exact absurd hroom (by decide)

end Pylon.Transport
