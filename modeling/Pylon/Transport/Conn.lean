import Mathlib.Algebra.BigOperators.Group.List.Basic
import Mathlib.Algebra.GroupWithZero.Nat
import Pylon.Transport.Frame

/-!
# The outbound half of a connection

`transport/conn.rs`: a connection's queue of pre-encoded frames, and the two
places that take frames out of it unsent.

* **drop-head** — `queue` evicts the oldest frames not yet begun until the new
  one fits under the high-water mark;
* **CoDel** — `codelDequeue` drops stale frames at the front while the queue is
  overloaded;
* **the coalescing flush** — `flushCoalesced` moves frames out of the queue into
  a batch, hands the batch to the sink in one call and puts what was not written
  back to the front.

The sink is given by what it does at each call (`WriteOutcome`); a sink with
nothing left to do blocks. Times are `u64` nanoseconds, whose additions saturate.

The loops that run CoDel return, with the connection, what CoDel did
(`CodelEvent`), in order and with the connection each event found.
-/

namespace Pylon.Transport

/-- A queued frame with its enqueue time. -/
abbrev OutFrame := Bytes × Nat

/-- The bytes held by a list of frames. -/
def totalBytes (frames : List OutFrame) : Nat :=
  (frames.map (·.1.length)).sum

@[simp] theorem totalBytes_nil : totalBytes [] = 0 := rfl

@[simp] theorem totalBytes_cons (f : OutFrame) (fs : List OutFrame) :
    totalBytes (f :: fs) = f.1.length + totalBytes fs := by
  simp [totalBytes]

@[simp] theorem totalBytes_append (fs gs : List OutFrame) :
    totalBytes (fs ++ gs) = totalBytes fs + totalBytes gs := by
  simp [totalBytes]

/-- `u64::saturating_add`. -/
def saturatingAdd (a b : Nat) : Nat := min (a + b) (2 ^ 64 - 1)

/-- `u64::saturating_mul`. -/
def saturatingMul (a b : Nat) : Nat := min (a * b) (2 ^ 64 - 1)

/-! ## CoDel state -/

structure CodelParams where
  targetNs : Nat
  intervalNs : Nat
  deriving DecidableEq, Repr

/-- A zero target switches the overlay off. -/
def CodelParams.enabled (p : CodelParams) : Bool := p.targetNs ≠ 0

structure CodelState where
  intervalMin : Option Nat := none
  intervalEnd : Nat := 0
  overloaded : Bool := false
  deriving DecidableEq, Repr

namespace CodelState

/-- Fold one sojourn sample into the current interval; a sample at or after its
end closes the interval and decides `overloaded` from its minimum. -/
def noteInterval (st : CodelState) (codel : CodelParams) (now sojourn : Nat) : CodelState :=
  let intervalEnd :=
    if st.intervalEnd = 0 then saturatingAdd now codel.intervalNs else st.intervalEnd
  let min := match st.intervalMin with
    | some m => Nat.min m sojourn
    | none => sojourn
  if intervalEnd ≤ now then
    { overloaded := decide (codel.targetNs < min)
      intervalMin := some sojourn
      intervalEnd := saturatingAdd now codel.intervalNs }
  else
    { st with intervalMin := some min, intervalEnd := intervalEnd }

/-- With the queue empty, the overloaded regime ends with its interval. -/
def ageEmpty (st : CodelState) (codel : CodelParams) (now : Nat) : CodelState :=
  if st.intervalEnd ≠ 0 ∧ st.intervalEnd ≤ now then
    { overloaded := false
      intervalMin := none
      intervalEnd := saturatingAdd now codel.intervalNs }
  else st

end CodelState

/-! ## The connection -/

/-- The outbound fields of `Connection`, with the bytes its reassembly buffer is
billed for and whether it is registered for writability. -/
structure Connection where
  out : List OutFrame := []
  outCursor : Nat := 0
  outBytes : Nat := 0
  highWater : Nat
  codel : CodelParams
  codelState : CodelState := {}
  codelDropped : Nat := 0
  dropheadDropped : Nat := 0
  writevBatch : List OutFrame := []
  inflightDelta : Int := 0
  outboundDelta : Int := 0
  writableArmed : Bool := false
  reassemblyBytes : Nat := 0
  deriving DecidableEq, Repr

namespace Connection

/-- A fresh connection, `new` followed by `set_codel`. -/
def new (highWater : Nat) (codel : CodelParams) : Connection :=
  { highWater, codel }

/-- Take `len` queued bytes off the three byte counters. -/
def unbill (c : Connection) (len : Nat) : Connection :=
  { c with
    outBytes := c.outBytes - len
    inflightDelta := c.inflightDelta - len
    outboundDelta := c.outboundDelta - len }

/-- Put `len` queued bytes on the three byte counters. -/
def bill (c : Connection) (len : Nat) : Connection :=
  { c with
    outBytes := c.outBytes + len
    inflightDelta := c.inflightDelta + len
    outboundDelta := c.outboundDelta + len }

/-- Resize the billing of the reassembly buffer. -/
def setReassemblyBytes (c : Connection) (bytes : Nat) : Connection :=
  { c with
    inflightDelta := c.inflightDelta + (bytes - c.reassemblyBytes)
    reassemblyBytes := bytes }

/-! ## Drop-head -/

/-- The eviction loop of `queue`. `front` is the locked frame, if any, and the
third argument what stands behind it, oldest first; also counts the evictions. -/
def dropHead (flen : Nat) (front : List OutFrame) :
    List OutFrame → Connection → Connection × Nat
  | [], c => ({ c with out := front }, 0)
  | victim :: behind, c =>
    if c.highWater < c.outBytes + flen then
      let c := c.unbill victim.1.length
      let r := dropHead flen front behind { c with dropheadDropped := c.dropheadDropped + 1 }
      (r.1, r.2 + 1)
    else ({ c with out := front ++ victim :: behind }, 0)

/-- Append a frame, evicting the oldest droppable ones until it fits. Returns the
number of frames dropped. -/
def queue (c : Connection) (frame : Bytes) (now : Nat) : Connection × Nat :=
  -- the frame being written is locked: the oldest droppable index is then 1
  let locked := if 0 < c.outCursor then 1 else 0
  let r := dropHead frame.length (c.out.take locked) (c.out.drop locked) c
  let c := r.1.bill frame.length
  ({ c with out := c.out ++ [(frame, now)] }, r.2)

end Connection

/-! ## CoDel dequeue -/

inductive CodelEvent where
  /-- The time in queue of the front was folded into the interval. -/
  | sampled (c : Connection) (front : OutFrame) (now : Nat)
  /-- The front was dropped. -/
  | dropped (c : Connection) (victim : OutFrame) (now : Nat)
  /-- The queue was found empty. -/
  | aged (c : Connection) (now : Nat)
  deriving DecidableEq, Repr

/-- The frame a drop takes. -/
def CodelEvent.victim : CodelEvent → Option OutFrame
  | .dropped _ victim _ => some victim
  | .sampled .. | .aged .. => none

namespace Connection

/-- The loop of `codel_dequeue` over the queue `out`. -/
def codelLoop (frontLocked : Bool) (now : Nat) :
    List OutFrame → Connection → Connection × List CodelEvent
  | [], c =>
    ({ c with out := [], codelState := c.codelState.ageEmpty c.codel now },
      [.aged { c with out := [] } now])
  | front :: rest, c =>
    let sample := CodelEvent.sampled { c with out := front :: rest } front now
    let sojourn := now - front.2
    let c := { c with
      out := front :: rest
      codelState := c.codelState.noteInterval c.codel now sojourn }
    if frontLocked then (c, [sample])
    -- the last remaining frame is never dropped
    else if c.codelState.overloaded ∧ saturatingMul c.codel.targetNs 2 < sojourn ∧ rest ≠ [] then
      let r := codelLoop frontLocked now rest
        { c.unbill front.1.length with out := rest, codelDropped := c.codelDropped + 1 }
      (r.1, sample :: .dropped c front now :: r.2)
    else (c, [sample])

def codelDequeue (c : Connection) (frontLocked : Bool) (now : Nat) :
    Connection × List CodelEvent :=
  if c.codel.enabled then codelLoop frontLocked now c.out c else (c, [])

/-- The check as `flush_coalesced` calls it: the front is locked while it is
partly written and has not been gathered. -/
def vetting (c : Connection) (now : Nat) : Connection × List CodelEvent :=
  c.codelDequeue (decide (0 < c.outCursor) && c.writevBatch.isEmpty) now

/-- The connection the check leaves. -/
def vet (c : Connection) (now : Nat) : Connection := (c.vetting now).1

/-- What CoDel does in the check. -/
def vetLog (c : Connection) (now : Nat) : List CodelEvent := (c.vetting now).2

end Connection

/-! ## The coalescing flush -/

def writevMaxSlices : Nat := 1024

def writevMaxBytes : Nat := 256 * 1024

/-- What the sink does at one `write_batch` call: take up to `n` of the bytes it
is offered, or fail. -/
inductive WriteOutcome where
  | wrote (n : Nat)
  | wouldBlock
  | interrupted
  | error
  deriving DecidableEq, Repr

inductive WriteStatus where
  | drained
  | wouldBlock
  | closed
  deriving DecidableEq, Repr

/-- The slices handed to the sink: the first one starts at the cursor. -/
def slices (startCursor : Nat) : List OutFrame → List Bytes
  | [] => []
  | first :: rest => first.1.drop startCursor :: rest.map (·.1)

@[simp] theorem slices_zero (fs : List OutFrame) : slices 0 fs = fs.map (·.1) := by
  cases fs <;> rfl

/-- A write of the first `k` frames and `left` bytes more, and what it leaves. -/
theorem slices_split {cursor k left n : Nat} {fs : List OutFrame}
    (h : n = ((slices cursor fs).take k).flatten.length + left) :
    (slices cursor fs).flatten.take n = (slices cursor (fs.take k)).flatten ++
        (slices (if k = 0 then cursor else 0) (fs.drop k)).flatten.take left ∧
      (slices cursor fs).flatten.drop n =
        (slices (if k = 0 then cursor else 0) (fs.drop k)).flatten.drop left := by
  have htake : (slices cursor fs).take k = slices cursor (fs.take k) := by
    cases fs <;> cases k <;> simp [slices]
  have hdrop : (slices cursor fs).drop k = slices (if k = 0 then cursor else 0) (fs.drop k) := by
    cases fs with
    | nil => simp [slices]
    | cons f fs =>
      cases k with
      | zero => rfl
      | succ k =>
        rw [if_neg (Nat.succ_ne_zero k), slices_zero, List.map_drop]
        rfl
  have hsplit := congrArg List.flatten (List.take_append_drop k (slices cursor fs))
  rw [List.flatten_append] at hsplit
  rw [← hsplit, h, List.take_length_add_append, List.drop_length_add_append, htake, hdrop]
  exact ⟨rfl, rfl⟩

namespace Connection

/-- The front joins the batch. -/
def join (c : Connection) (front : OutFrame) (rest : List OutFrame) : Connection :=
  { c with out := rest, writevBatch := c.writevBatch ++ [front] }

/-- The gather loop: move vetted frames to the batch while both limits hold. The
first argument bounds the iterations; each takes a frame out of the queue. -/
def gatherLoop (maxBytes startCursor now : Nat) :
    Nat → Nat → Connection → Connection × List CodelEvent
  | 0, _, c => (c, [])
  | fuel + 1, batchBytes, c =>
    match c.out with
    | [] => (c, [])
    | front :: rest =>
      let take := front.1.length - (if c.writevBatch.isEmpty then startCursor else 0)
      if ¬ c.writevBatch.isEmpty ∧
          (writevMaxSlices ≤ c.writevBatch.length ∨ maxBytes < batchBytes + take) then (c, [])
      else
        let c := c.join front rest
        let r := gatherLoop maxBytes startCursor now fuel (batchBytes + take) (c.vet now)
        (r.1, c.vetLog now ++ r.2)

/-- Gather the next batch from a queue whose front has been vetted. -/
def gathering (maxBytes now : Nat) (c : Connection) : Connection × List CodelEvent :=
  gatherLoop maxBytes c.outCursor now c.out.length 0 { c with writevBatch := [] }

/-- The connection with the batch gathered. -/
def gatherBatch (maxBytes now : Nat) (c : Connection) : Connection := (c.gathering maxBytes now).1

/-- What CoDel does while the batch is gathered. -/
def gatherLog (maxBytes now : Nat) (c : Connection) : List CodelEvent :=
  (c.gathering maxBytes now).2

/-- Push the unwritten batch back to the front of the queue. -/
def restoreBatch (c : Connection) : Connection :=
  { c with out := c.writevBatch ++ c.out, writevBatch := [] }

/-- Walk `n` written bytes over the batch: whole frames come off the counters.
Returns the index of the first frame not fully written and what is left of `n`. -/
def creditWritten (startCursor : Nat) :
    Nat → Nat → List OutFrame → Connection → Nat × Nat × Connection
  | idx, n, [], c => (idx, n, c)
  | idx, n, frame :: rest, c =>
    let rem := frame.1.length - (if idx = 0 then startCursor else 0)
    if n < rem then (idx, n, c)
    else creditWritten startCursor (idx + 1) (n - rem) rest (c.unbill frame.1.length)

/-- The `Ok(n)` arm of the flush. -/
def applyWritten (c : Connection) (startCursor n : Nat) : Connection :=
  let (idx, left, c) := creditWritten startCursor 0 n c.writevBatch c
  if idx = c.writevBatch.length then { c with outCursor := 0, writevBatch := [] }
  else
    { c with
      outCursor := if idx = 0 then startCursor + left else left
      out := c.writevBatch.drop idx ++ c.out
      writevBatch := [] }

end Connection

/-- What a flush did: its status, the connection it left, the bytes the sink took, and
what CoDel did. -/
structure Flushed where
  status : WriteStatus
  conn : Connection
  accepted : Bytes
  log : List CodelEvent
  deriving DecidableEq, Repr

/-- A round before the rest of a flush: the bytes its write took, and its events. -/
def Flushed.after (r : Flushed) (bytes : Bytes) (log : List CodelEvent) : Flushed :=
  { r with accepted := bytes ++ r.accepted, log := log ++ r.log }

/-- Write the queue to a sink that does `script`, one entry a call. -/
def flushCoalesced (maxBytes now : Nat) (script : List WriteOutcome) (c : Connection) : Flushed :=
  let vetLog := c.vetLog now
  let c := c.vet now
  if c.out = [] then ⟨.drained, { c with writevBatch := [] }, [], vetLog⟩
  else
    let start := c.outCursor
    let log := vetLog ++ c.gatherLog maxBytes now
    let c := c.gatherBatch maxBytes now
    match script with
    | [] | .wouldBlock :: _ => ⟨.wouldBlock, c.restoreBatch, [], log⟩
    | .interrupted :: script => (flushCoalesced maxBytes now script c.restoreBatch).after [] log
    | .error :: _ => ⟨.closed, c.restoreBatch, [], log⟩
    | .wrote n :: script =>
      let bytes := (slices start c.writevBatch).flatten.take n
      if bytes.length = 0 then ⟨.closed, c.restoreBatch, [], log⟩
      else
        (flushCoalesced maxBytes now script (c.applyWritten start bytes.length)).after bytes log

/-- `flush` on a plain connection. -/
def flushPlain (c : Connection) (script : List WriteOutcome) (now : Nat) : Flushed :=
  flushCoalesced writevMaxBytes now script c

/-! ## What the loops do -/

namespace Connection

variable (c : Connection)

@[simp] theorem unbill_zero : c.unbill 0 = c := by
  simp [unbill]

@[simp] theorem unbill_unbill (m n : Nat) : (c.unbill m).unbill n = c.unbill (m + n) := by
  simp only [unbill, Connection.mk.injEq, true_and, and_true]
  refine ⟨?_, ?_, ?_⟩ <;> omega

/-- Drop-head evicts a run of the oldest frames behind the locked front, and
takes exactly their bytes off the counters. -/
theorem dropHead_spec (flen : Nat) (front behind : List OutFrame) (c : Connection) :
    ∃ evicted kept, behind = evicted ++ kept ∧
      dropHead flen front behind c =
        ({ c.unbill (totalBytes evicted) with
            out := front ++ kept
            dropheadDropped := c.dropheadDropped + evicted.length }, evicted.length) := by
  induction behind generalizing c with
  | nil => exact ⟨[], [], rfl, by simp [dropHead]⟩
  | cons victim behind ih =>
    rw [dropHead]
    split
    · obtain ⟨evicted, kept, hbehind, heq⟩ :=
        ih { c.unbill victim.1.length with dropheadDropped := c.dropheadDropped + 1 }
      refine ⟨victim :: evicted, kept, by rw [hbehind]; rfl, ?_⟩
      show ((dropHead flen front behind _).1, (dropHead flen front behind _).2 + 1) = _
      refine (congrArg (fun r => (r.1, r.2 + 1)) heq).trans ?_
      simp only [totalBytes_cons, ← unbill_unbill, List.length_cons]
      simp [unbill]
      omega
    · exact ⟨[], victim :: behind, rfl, by simp⟩

/-- The front while it is partly written. -/
def locked (c : Connection) : List OutFrame := c.out.take (if 0 < c.outCursor then 1 else 0)

/-- The frames `queue` may evict. -/
def droppable (c : Connection) : List OutFrame := c.out.drop (if 0 < c.outCursor then 1 else 0)

theorem locked_append_droppable : c.locked ++ c.droppable = c.out :=
  List.take_append_drop _ _

/-- `queue` evicts a run of the oldest droppable frames and appends the new one. -/
theorem queue_spec (frame : Bytes) (now : Nat) :
    ∃ evicted kept, c.droppable = evicted ++ kept ∧
      c.queue frame now =
        ({ (c.unbill (totalBytes evicted)).bill frame.length with
            out := c.locked ++ kept ++ [(frame, now)]
            dropheadDropped := c.dropheadDropped + evicted.length }, evicted.length) := by
  obtain ⟨evicted, kept, hsplit, heq⟩ := dropHead_spec frame.length c.locked c.droppable c
  refine ⟨evicted, kept, hsplit, ?_⟩
  have hqueue : c.queue frame now =
      ({ (dropHead frame.length c.locked c.droppable c).1.bill frame.length with
          out := ((dropHead frame.length c.locked c.droppable c).1.bill frame.length).out ++
            [(frame, now)] }, (dropHead frame.length c.locked c.droppable c).2) := rfl
  rw [hqueue, heq]
  rfl

/-- CoDel drops a run of frames at the front, none when the front is locked and never
the last one, and takes exactly their bytes off the counters. -/
theorem codelLoop_spec (frontLocked : Bool) (now : Nat) (out : List OutFrame) (c : Connection) :
    ∃ dropped kept st, out = dropped ++ kept ∧ (frontLocked → dropped = []) ∧
      (dropped ≠ [] → kept ≠ []) ∧
      (codelLoop frontLocked now out c).1 =
        { c.unbill (totalBytes dropped) with
          out := kept
          codelState := st
          codelDropped := c.codelDropped + dropped.length } ∧
      (codelLoop frontLocked now out c).2.filterMap CodelEvent.victim = dropped := by
  induction out generalizing c with
  | nil =>
    exact ⟨[], [], c.codelState.ageEmpty c.codel now, rfl, fun _ => rfl, by simp,
      by simp [codelLoop], rfl⟩
  | cons front rest ih =>
    simp only [codelLoop]
    split_ifs with hlocked hdrop
    · exact ⟨[], front :: rest, _, rfl, fun _ => rfl, by simp, by simp; rfl, rfl⟩
    · obtain ⟨dropped, kept, st, hrest, -, hbehind, heq, hvictims⟩ := ih
        { unbill { c with
            out := front :: rest
            codelState := c.codelState.noteInterval c.codel now (now - front.2) }
            front.1.length with out := rest, codelDropped := c.codelDropped + 1 }
      refine ⟨front :: dropped, kept, st, by rw [hrest]; rfl, fun h => absurd h hlocked, ?_, ?_,
        congrArg (front :: ·) hvictims⟩
      · rintro - rfl
        -- all of `rest` would be dropped, and the loop keeps its last frame
        have hnil : dropped = [] := by
          by_contra hne
          exact hbehind hne rfl
        exact hdrop.2.2 (by rw [hrest, hnil]; rfl)
      · refine heq.trans ?_
        simp only [totalBytes_cons, ← unbill_unbill, List.length_cons]
        simp [unbill]
        omega
    · exact ⟨[], front :: rest, _, rfl, fun _ => rfl, by simp, by simp; rfl, rfl⟩

/-- The check before a frame joins the batch keeps the batch and the cursor; the frames
that go are those of its drops. -/
theorem vet_spec (now : Nat) :
    ∃ dropped kept st, c.out = dropped ++ kept ∧
      (0 < c.outCursor → c.writevBatch = [] → dropped = []) ∧
      (dropped ≠ [] → kept ≠ []) ∧
      c.vet now =
        { c.unbill (totalBytes dropped) with
          out := kept
          codelState := st
          codelDropped := c.codelDropped + dropped.length } ∧
      (c.vetLog now).filterMap CodelEvent.victim = dropped := by
  rw [vet, vetLog, vetting, codelDequeue]
  split
  · obtain ⟨dropped, kept, st, hout, hlocked, hspec⟩ :=
      codelLoop_spec (decide (0 < c.outCursor) && c.writevBatch.isEmpty) now c.out c
    exact ⟨dropped, kept, st, hout, fun hcur hbatch => hlocked (by simp [hcur, hbatch]), hspec⟩
  · exact ⟨[], c.out, c.codelState, rfl, fun _ _ => rfl, by simp, by simp, rfl⟩

theorem vet_out_length_le (now : Nat) : (c.vet now).out.length ≤ c.out.length := by
  obtain ⟨dropped, kept, st, hout, -, -, heq, -⟩ := c.vet_spec now
  rw [heq, hout, List.length_append]
  exact Nat.le_add_left _ _

/-- The bound on the gather loop is one: an iteration more than there are queued
frames finds the queue empty. -/
theorem gatherLoop_succ (maxBytes startCursor now : Nat) {fuel : Nat} {c : Connection}
    (hfuel : c.out.length ≤ fuel) (batchBytes : Nat) :
    gatherLoop maxBytes startCursor now (fuel + 1) batchBytes c =
      gatherLoop maxBytes startCursor now fuel batchBytes c := by
  induction fuel generalizing c batchBytes with
  | zero =>
    have hempty : c.out = [] := List.eq_nil_of_length_eq_zero (Nat.le_zero.mp hfuel)
    simp only [gatherLoop, hempty]
  | succ fuel ih =>
    rw [gatherLoop, gatherLoop]
    cases hout : c.out with
    | nil => rfl
    | cons _ rest =>
      dsimp only
      rw [ih (Nat.le_trans (vet_out_length_le _ _) ?_)]
      show rest.length ≤ fuel
      rw [hout, List.length_cons] at hfuel
      omega

/-- Induction along the gather loop: it stops, or the front joins the batch and the one
behind it is vetted. -/
theorem gatherLoop_rule {maxBytes startCursor now : Nat}
    {motive : Connection → Connection × List CodelEvent → Prop} (stop : ∀ c, motive c (c, []))
    (join : ∀ c front rest r, c.out = front :: rest → motive ((c.join front rest).vet now) r →
      motive c (r.1, (c.join front rest).vetLog now ++ r.2))
    (fuel batchBytes : Nat) (c : Connection) :
    motive c (gatherLoop maxBytes startCursor now fuel batchBytes c) := by
  induction fuel generalizing batchBytes c with
  | zero => exact stop c
  | succ _ ih =>
    rw [gatherLoop]
    cases hout : c.out with
    | nil => exact stop c
    | cons front rest =>
      dsimp only
      generalize front.1.length - (if c.writevBatch.isEmpty then startCursor else 0) = take
      split
      · exact stop c
      · exact join c front rest _ hout (ih _ _)

/-- The walk over a batch passes `k` frames, and `left` bytes go into the next if there is
one. -/
theorem creditWritten_spec (startCursor idx n : Nat) (batch : List OutFrame) (c : Connection) :
    ∃ k left, creditWritten startCursor idx n batch c =
        (idx + k, left, c.unbill (totalBytes (batch.take k))) ∧ k ≤ batch.length ∧
      n = ((slices (if idx = 0 then startCursor else 0) batch).take k).flatten.length + left ∧
      ∀ f ∈ (batch.drop k).head?, (if idx + k = 0 then startCursor else 0) + left < f.1.length := by
  induction batch generalizing idx n c with
  | nil => exact ⟨0, n, by simp [creditWritten], Nat.le_refl 0, by simp, by simp⟩
  | cons frame rest ih =>
    rw [creditWritten]
    generalize hcursor : (if idx = 0 then startCursor else 0) = cursor
    by_cases hpart : n < frame.1.length - cursor
    · -- the write ends inside this frame
      rw [if_pos hpart]
      refine ⟨0, n, by simp, Nat.zero_le _, by simp, ?_⟩
      rintro f ⟨⟩
      rw [Nat.add_zero, hcursor]
      omega
    · obtain ⟨k, left, heq, hk, hn, hnext⟩ :=
        ih (idx + 1) (n - (frame.1.length - cursor)) (c.unbill frame.1.length)
      rw [if_neg (Nat.succ_ne_zero idx), slices_zero] at hn
      refine ⟨k + 1, left, ?_, Nat.succ_le_succ hk, ?_, ?_⟩
      · rw [if_neg hpart, heq, unbill_unbill, List.take_succ_cons, totalBytes_cons]
        congr 1
        omega
      · rw [slices, List.take_succ_cons, List.flatten_cons, List.length_append, List.length_drop]
        omega
      · rw [List.drop_succ_cons, show idx + (k + 1) = idx + 1 + k by omega]
        exact hnext

/-- The `Ok(n)` arm: what the write left of the batch goes back to the front of the queue. -/
theorem applyWritten_spec (c : Connection) (startCursor n : Nat) :
    ∃ k left cursor, c.applyWritten startCursor n =
        { c.unbill (totalBytes (c.writevBatch.take k)) with
          out := c.writevBatch.drop k ++ c.out
          outCursor := cursor
          writevBatch := [] } ∧ k ≤ c.writevBatch.length ∧
      n = ((slices startCursor c.writevBatch).take k).flatten.length + left ∧
      (k = c.writevBatch.length → cursor = 0) ∧
      ∀ f ∈ (c.writevBatch.drop k).head?,
        cursor = (if k = 0 then startCursor else 0) + left ∧ cursor < f.1.length := by
  obtain ⟨k, left, heq, hk, hn, hnext⟩ := creditWritten_spec startCursor 0 n c.writevBatch c
  rw [applyWritten, heq]
  simp only [Nat.zero_add] at hnext ⊢
  by_cases hall : k = c.writevBatch.length
  · refine ⟨k, left, 0, ?_, hk, hn, fun _ => rfl, by simp [hall]⟩
    rw [if_pos (show k = (c.unbill _).writevBatch.length from hall), hall, List.drop_length]
    rfl
  · refine ⟨k, left, (if k = 0 then startCursor else 0) + left, ?_, hk, hn,
      fun hend => absurd hend hall, fun f hf => ⟨rfl, hnext f hf⟩⟩
    rw [if_neg (show ¬ k = (c.unbill _).writevBatch.length from hall)]
    split <;> simp [unbill]

end Connection

/-- Induction along a flush. A round that finds something to write offers it to the sink,
which stops the flush, asks for another try or takes some of the bytes. -/
theorem flushCoalesced_rule {maxBytes now : Nat} {motive : Connection → Flushed → Prop}
    (drained : ∀ c, (c.vet now).out = [] →
      motive c ⟨.drained, { c.vet now with writevBatch := [] }, [], c.vetLog now⟩)
    (stopped : ∀ c status, (c.vet now).out ≠ [] → status ≠ .drained →
      motive c ⟨status, ((c.vet now).gatherBatch maxBytes now).restoreBatch, [],
        c.vetLog now ++ (c.vet now).gatherLog maxBytes now⟩)
    (retried : ∀ c r, (c.vet now).out ≠ [] →
      motive ((c.vet now).gatherBatch maxBytes now).restoreBatch r →
        motive c (r.after [] (c.vetLog now ++ (c.vet now).gatherLog maxBytes now)))
    (wrote : ∀ c n r, (c.vet now).out ≠ [] →
      let g := (c.vet now).gatherBatch maxBytes now
      let offered := (slices (c.vet now).outCursor g.writevBatch).flatten
      0 < n → n ≤ offered.length → motive (g.applyWritten (c.vet now).outCursor n) r →
        motive c (r.after (offered.take n)
          (c.vetLog now ++ (c.vet now).gatherLog maxBytes now)))
    (script : List WriteOutcome) (c : Connection) :
    motive c (flushCoalesced maxBytes now script c) := by
  fun_induction flushCoalesced maxBytes now script c with
  | case1 _ c _ _ hempty => exact drained c hempty
  | case2 c _ v hfull | case3 c _ v hfull => exact stopped c .wouldBlock hfull (by simp)
  | case4 c _ _ hfull _ _ _ ih => exact retried c _ hfull ih
  | case5 c _ v hfull | case6 c _ v hfull => exact stopped c .closed hfull (by simp)
  | case7 c _ _ hfull start _ g _ _ bytes hsome ih =>
    have hle : bytes.length ≤ (slices start g.writevBatch).flatten.length :=
      List.length_take_le' _ _
    have htake : (slices start g.writevBatch).flatten.take bytes.length = bytes := by
      rw [List.length_take, ← List.take_eq_take_min]
    have hwrote := wrote c bytes.length _ hfull (Nat.pos_of_ne_zero hsome) hle ih
    rw [htake] at hwrote
    exact hwrote

end Pylon.Transport
