import Pylon.Lib.Trace
import Pylon.Lib.Framing
import Pylon.Transport.Conn

/-!
# Outbound stream integrity

The queue of a connection is a framed sender: each of its operations is a
sequence of the moves of `Pylon.Lib.Framing`.

A frame gathered into the batch still counts as queued, in front of what the queue
holds, so that popping and restoring a batch are no moves. With that, what the sink
has accepted over any history of `queue` and `flush` calls is whole frames and the
written part of the front.
-/

namespace Pylon.Transport

open Lib Lib.Framing

/-- The bytes of a queued frame. -/
abbrev payload : OutFrame → Bytes := Prod.fst

/-- The connection as a framed sender. -/
def Connection.line (c : Connection) (queued gone : List OutFrame) (accepted : Bytes) :
    Line OutFrame UInt8 :=
  { history := queued
    queue := c.writevBatch ++ c.out
    gone := gone
    cursor := c.outCursor
    wire := accepted }

/-- The frames CoDel drops. -/
def codelVictims (log : List CodelEvent) : List OutFrame := log.filterMap CodelEvent.victim

@[simp] theorem codelVictims_append (log log' : List CodelEvent) :
    codelVictims (log ++ log') = codelVictims log ++ codelVictims log' :=
  List.filterMap_append

namespace Connection

variable (queued gone : List OutFrame) (accepted : Bytes)

/-! ## The loops as moves -/

/-- Vetting evicts what it drops, and no frame that has begun. -/
theorem vet_steps (c : Connection) (now : Nat) :
    Steps payload (c.line queued gone accepted)
        ((c.vet now).line queued (gone ++ codelVictims (c.vetLog now)) accepted) ∧
      (c.vet now).outCursor = c.outCursor ∧ (c.vet now).writevBatch = c.writevBatch := by
  obtain ⟨dropped, kept, st, hout, hlocked, hbehind, heq, hvictims⟩ := c.vet_spec now
  rw [codelVictims, hvictims, heq]
  refine ⟨Relation.ReflTransGen.single ?_, rfl, rfl⟩
  refine Step.evict (c.line queued gone accepted) dropped (c.writevBatch ++ kept) ?_ ?_ ?_ ?_
  · show (c.writevBatch ++ c.out).Perm (dropped ++ (c.writevBatch ++ kept))
    rw [hout]
    exact List.perm_append_comm_assoc _ _ _
  · show (c.writevBatch ++ kept).Sublist (c.writevBatch ++ c.out)
    rw [hout]
    exact (List.sublist_append_right dropped kept).append_left c.writevBatch
  · intro hcur
    show (c.writevBatch ++ kept).head? = (c.writevBatch ++ c.out).head?
    cases hbatch : c.writevBatch with
    | nil =>
      -- the begun frame is still in the queue, so the check ran locked
      rw [hout, hlocked hcur hbatch]
      rfl
    | cons => rfl
  · show (c.writevBatch ++ kept).getLast? = (c.writevBatch ++ c.out).getLast?
    by_cases hnone : dropped = []
    · rw [hout, hnone, List.nil_append]
    · rw [hout, List.getLast?_append_of_ne_nil _ (hbehind hnone),
        List.getLast?_append_of_ne_nil _ (by simp [hbehind hnone]),
        List.getLast?_append_of_ne_nil _ (hbehind hnone)]

/-- Vetting the queue and gathering a batch: a gathered frame still counts as queued, so
that only the drops are moves. -/
theorem gatherLoop_steps (maxBytes startCursor now fuel batchBytes : Nat) (c : Connection) :
    let r := gatherLoop maxBytes startCursor now fuel batchBytes c
    Steps payload (c.line queued gone accepted)
        (r.1.line queued (gone ++ codelVictims r.2) accepted) ∧
      r.1.outCursor = c.outCursor := by
  revert gone
  refine gatherLoop_rule (motive := fun c r => ∀ gone, Steps payload (c.line queued gone accepted)
    (r.1.line queued (gone ++ codelVictims r.2) accepted) ∧ r.1.outCursor = c.outCursor)
    ?_ ?_ fuel batchBytes c
  · intro c gone
    exact ⟨by rw [codelVictims, List.filterMap_nil, List.append_nil], rfl⟩
  · intro c front rest r hout ih gone
    have hjoined : (c.join front rest).line queued gone accepted = c.line queued gone accepted := by
      simp [line, join, hout]
    obtain ⟨hvet, hvetCursor, -⟩ := vet_steps queued gone accepted (c.join front rest) now
    obtain ⟨hrest, hrestCursor⟩ := ih (gone ++ codelVictims ((c.join front rest).vetLog now))
    refine ⟨?_, hrestCursor.trans hvetCursor⟩
    rw [hjoined] at hvet
    rw [codelVictims_append, ← List.append_assoc]
    exact hvet.trans hrest

/-- Whole frames leave the queue. -/
theorem complete_steps (frames out : List OutFrame) (cursor : Nat) :
    Steps payload ⟨queued, frames ++ out, gone, cursor, accepted⟩
      ⟨queued, out, gone, if frames = [] then cursor else 0,
        accepted ++ (slices cursor frames).flatten⟩ := by
  induction frames generalizing cursor accepted with
  | nil => simpa [slices] using Relation.ReflTransGen.refl
  | cons frame rest ih =>
    have hfirst : Step payload ⟨queued, frame :: rest ++ out, gone, cursor, accepted⟩
        ⟨queued, rest ++ out, gone, 0, accepted ++ frame.1.drop cursor⟩ :=
      Step.complete ⟨queued, frame :: rest ++ out, gone, cursor, accepted⟩ frame (rest ++ out) rfl
    have hrest := ih (accepted ++ frame.1.drop cursor) 0
    rw [ite_self, slices_zero, List.append_assoc] at hrest
    exact .head hfirst hrest

/-- The `Ok(n)` arm: the batch is spent, and the line has moved by the bytes the
sink took. -/
theorem applyWritten_steps (c : Connection) {n : Nat} (hpos : 0 < n)
    (hn : n ≤ (slices c.outCursor c.writevBatch).flatten.length) :
    Steps payload (c.line queued gone accepted)
        ((c.applyWritten c.outCursor n).line queued gone
          (accepted ++ (slices c.outCursor c.writevBatch).flatten.take n)) ∧
      (c.applyWritten c.outCursor n).writevBatch = [] := by
  obtain ⟨k, left, cursor, heq, hk, hlen, hend, hnext⟩ := c.applyWritten_spec c.outCursor n
  have hwhole := complete_steps queued gone accepted (c.writevBatch.take k)
    (c.writevBatch.drop k ++ c.out) c.outCursor
  rw [← List.append_assoc, List.take_append_drop] at hwhole
  rw [heq, (slices_split hlen).1, ← List.append_assoc]
  refine ⟨hwhole.trans ?_, rfl⟩
  generalize accepted ++ (slices c.outCursor (c.writevBatch.take k)).flatten = accepted
  have hbatch : c.writevBatch ≠ [] := by
    intro hempty
    rw [hempty] at hn
    exact absurd hn (Nat.not_le.mpr hpos)
  simp only [List.take_eq_nil_iff, hbatch, or_false]
  simp only [line, List.nil_append]
  cases hrest : c.writevBatch.drop k with
  | nil =>
    have hall : k = c.writevBatch.length := Nat.le_antisymm hk (List.drop_eq_nil_iff.mp hrest)
    rw [hend hall, hall, if_neg (mt List.eq_nil_of_length_eq_zero hbatch), slices, List.flatten_nil,
      List.take_nil, List.append_nil]
  | cons f rest =>
    obtain ⟨rfl, hinside⟩ := hnext f (by rw [hrest]; rfl)
    have hpart : (slices (if k = 0 then c.outCursor else 0) (f :: rest)).flatten.take left =
        (f.1.drop (if k = 0 then c.outCursor else 0)).take left := by
      rw [slices, List.flatten_cons, List.take_append_of_le_length]
      rw [List.length_drop]
      omega
    rw [hpart]
    exact .single (Step.advance ⟨queued, f :: rest ++ c.out, gone, _, accepted⟩ f (rest ++ c.out)
      left rfl hinside)

/-- `queue` appends the frame and evicts behind the locked front; the new frame stays. -/
theorem queue_steps (c : Connection) (hbatch : c.writevBatch = []) (frame : Bytes) (now : Nat) :
    ∃ evicted,
      Steps payload (c.line queued gone accepted)
        ((c.queue frame now).1.line (queued ++ [(frame, now)]) (gone ++ evicted) accepted) ∧
      (c.queue frame now).1.writevBatch = [] ∧
      (c.queue frame now).1.dropheadDropped = c.dropheadDropped + evicted.length := by
  obtain ⟨evicted, kept, hsplit, heq⟩ := c.queue_spec frame now
  have hout : c.out = c.locked ++ (evicted ++ kept) := by
    rw [← hsplit, c.locked_append_droppable]
  refine ⟨evicted, ?_⟩
  rw [heq]
  refine ⟨(Relation.ReflTransGen.single (Step.enqueue _ (frame, now))).tail ?_, hbatch, rfl⟩
  have hline : line { (c.unbill (totalBytes evicted)).bill frame.length with
        out := c.locked ++ kept ++ [(frame, now)]
        dropheadDropped := c.dropheadDropped + evicted.length } (queued ++ [(frame, now)])
          (gone ++ evicted) accepted =
      { c.line queued gone accepted with
        history := queued ++ [(frame, now)]
        queue := c.locked ++ kept ++ [(frame, now)]
        gone := gone ++ evicted } := by
    simp [line, bill, unbill, hbatch]
  rw [hline]
  refine Step.evict
    { c.line queued gone accepted with
      history := queued ++ [(frame, now)], queue := c.writevBatch ++ c.out ++ [(frame, now)] }
    evicted (c.locked ++ kept ++ [(frame, now)]) ?_ ?_ ?_ ?_
  · show (c.writevBatch ++ c.out ++ [(frame, now)]).Perm _
    rw [hbatch, List.nil_append, hout, ← List.append_assoc evicted]
    exact (List.perm_append_comm_assoc _ _ _).append_right _
  · show (c.locked ++ kept ++ [(frame, now)]).Sublist (c.writevBatch ++ c.out ++ [(frame, now)])
    rw [hbatch, hout, List.nil_append]
    exact ((List.sublist_append_right evicted kept).append_left c.locked).append_right _
  · intro hcur
    have hcur' : 0 < c.outCursor := hcur
    show (c.locked ++ kept ++ [(frame, now)]).head? =
      (c.writevBatch ++ c.out ++ [(frame, now)]).head?
    rw [hbatch, List.nil_append]
    rw [droppable, if_pos hcur'] at hsplit
    rw [locked, if_pos hcur']
    cases hq : c.out with
    | nil =>
      have hkept : kept = [] := by
        simp only [hq, List.drop_nil, List.nil_eq, List.append_eq_nil_iff] at hsplit
        exact hsplit.2
      simp [hkept]
    | cons => rfl
  · show (c.locked ++ kept ++ [(frame, now)]).getLast? =
      (c.writevBatch ++ c.out ++ [(frame, now)]).getLast?
    rw [List.getLast?_concat, List.getLast?_concat]

/-- A round of the flush up to its write. -/
theorem offer_steps (maxBytes now : Nat) (c : Connection) (hbatch : c.writevBatch = []) :
    Steps payload (c.line queued gone accepted)
        (((c.vet now).gatherBatch maxBytes now).line queued
          (gone ++ codelVictims (c.vetLog now ++ (c.vet now).gatherLog maxBytes now)) accepted) ∧
      ((c.vet now).gatherBatch maxBytes now).outCursor = (c.vet now).outCursor := by
  obtain ⟨hvet, -, hvetBatch⟩ := c.vet_steps queued gone accepted now
  have hclear : ({ c.vet now with writevBatch := [] } : Connection) = c.vet now := by
    rw [← hvetBatch.trans hbatch]
  obtain ⟨hgather, hcursor⟩ := gatherLoop_steps queued (gone ++ codelVictims (c.vetLog now))
    accepted maxBytes (c.vet now).outCursor now (c.vet now).out.length 0 (c.vet now)
  rw [codelVictims_append, ← List.append_assoc, gatherBatch, gatherLog, gathering, hclear]
  exact ⟨hvet.trans hgather, hcursor⟩

end Connection

/-- A flush moves the line by exactly the bytes the sink accepted and the frames CoDel
dropped, whatever the sink does, and leaves no frame in the batch. -/
theorem flushCoalesced_steps (maxBytes now : Nat) (script : List WriteOutcome) (c : Connection)
    (queued gone : List OutFrame) (accepted : Bytes) (hbatch : c.writevBatch = []) :
    let r := flushCoalesced maxBytes now script c
    Steps payload (c.line queued gone accepted)
        (r.conn.line queued (gone ++ codelVictims r.log) (accepted ++ r.accepted)) ∧
      r.conn.writevBatch = [] := by
  revert gone accepted hbatch
  refine flushCoalesced_rule (motive := fun c r => ∀ gone accepted, c.writevBatch = [] →
    Steps payload (c.line queued gone accepted)
        (r.conn.line queued (gone ++ codelVictims r.log) (accepted ++ r.accepted)) ∧
      r.conn.writevBatch = []) ?_ ?_ ?_ ?_ script c
  · intro c _ gone accepted hbatch
    obtain ⟨hvet, -, hvetBatch⟩ := c.vet_steps queued gone accepted now
    rw [List.append_nil, ← hvetBatch.trans hbatch]
    exact ⟨hvet, rfl⟩
  · intro c _ _ _ gone accepted hbatch
    rw [List.append_nil]
    exact ⟨(c.offer_steps queued gone accepted maxBytes now hbatch).1, rfl⟩
  · intro c r _ ih gone accepted hbatch
    obtain ⟨hrest, hclear⟩ := ih _ accepted rfl
    refine ⟨?_, hclear⟩
    rw [Flushed.after, codelVictims_append, ← List.append_assoc, List.nil_append]
    exact (c.offer_steps queued gone accepted maxBytes now hbatch).1.trans hrest
  · intro c n r _ g offered hpos hle ih gone accepted hbatch
    obtain ⟨hline, hcursor⟩ := c.offer_steps queued gone accepted maxBytes now hbatch
    have hwrite := g.applyWritten_steps queued
      (gone ++ codelVictims (c.vetLog now ++ (c.vet now).gatherLog maxBytes now)) accepted hpos
      (show n ≤ (slices g.outCursor g.writevBatch).flatten.length by rw [hcursor]; exact hle)
    rw [hcursor] at hwrite
    obtain ⟨hrest, hclear⟩ := ih _ (accepted ++ offered.take n) hwrite.2
    refine ⟨?_, hclear⟩
    rw [List.append_assoc accepted] at hrest
    rw [Flushed.after, codelVictims_append, ← List.append_assoc]
    exact hline.trans (hwrite.1.trans hrest)

/-! ## Histories of calls -/

/-- A connection with everything that was queued on it and everything its sink
accepted. -/
structure Outbound where
  conn : Connection
  queued : List OutFrame := []
  accepted : Bytes := []
  deriving DecidableEq, Repr

inductive OutAct where
  | queue (frame : Bytes) (now : Nat)
  | flush (script : List WriteOutcome) (now : Nat)
  deriving DecidableEq, Repr

def outStep (s : Outbound) : OutAct → Outbound
  | .queue frame now =>
    { s with conn := (s.conn.queue frame now).1, queued := s.queued ++ [(frame, now)] }
  | .flush script now =>
    let r := flushPlain s.conn script now
    { s with conn := r.conn, accepted := s.accepted ++ r.accepted }

def Outbound.line (s : Outbound) (gone : List OutFrame) : Line OutFrame UInt8 :=
  s.conn.line s.queued gone s.accepted

/-- Between calls the batch is empty, and every call is a sequence of moves. -/
theorem outStep_steps (s : Outbound) (a : OutAct) (gone : List OutFrame)
    (hbatch : s.conn.writevBatch = []) :
    (∃ gone', Steps payload (s.line gone) ((outStep s a).line gone')) ∧
      (outStep s a).conn.writevBatch = [] := by
  cases a with
  | queue frame now =>
    obtain ⟨evicted, hsteps, hclear, -⟩ :=
      s.conn.queue_steps s.queued gone s.accepted hbatch frame now
    exact ⟨⟨_, hsteps⟩, hclear⟩
  | flush script now =>
    obtain ⟨hsteps, hclear⟩ :=
      flushCoalesced_steps writevMaxBytes now script s.conn s.queued gone s.accepted hbatch
    exact ⟨⟨_, hsteps⟩, hclear⟩

theorem outRun_batch (highWater : Nat) (codel : CodelParams) (as : List OutAct) :
    (run outStep { conn := Connection.new highWater codel } as).conn.writevBatch = [] ∧
      ∃ gone, Intact payload
        ((run outStep { conn := Connection.new highWater codel } as).line gone) := by
  have hstart : Intact payload (Outbound.line { conn := Connection.new highWater codel } []) :=
    ⟨⟨[], rfl, List.Sublist.refl []⟩, Or.inl rfl⟩
  refine @run_invariant _ _ outStep
    (fun s => s.conn.writevBatch = [] ∧ ∃ gone, Intact payload (s.line gone)) ?_ _
    ⟨rfl, [], hstart⟩ as
  rintro s a ⟨hbatch, gone, hintact⟩
  obtain ⟨⟨gone', hsteps⟩, hbatch'⟩ := outStep_steps s a gone hbatch
  exact ⟨hbatch', gone', hsteps.intact hintact⟩

/-- Whatever is queued and whatever the sink does, the bytes accepted are whole
frames, in the order they were queued, followed by the first `outCursor` bytes of
the front; and a call keeps a partly written front until its last byte is out. -/
theorem outbound_stream_intact (highWater : Nat) (codel : CodelParams) (as : List OutAct) :
    let s := run outStep { conn := Connection.new highWater codel } as
    (∃ sent : List OutFrame,
      s.accepted = (sent.map (·.1)).flatten ++
        ((s.conn.out.head?.map (·.1)).getD []).take s.conn.outCursor ∧
      (sent ++ s.conn.out).Sublist s.queued) ∧
    s.conn.outCursor ≤ ((s.conn.out.head?.map (·.1)).getD []).length ∧
    ∀ a front, s.conn.out.head? = some front → 0 < s.conn.outCursor →
      (outStep s a).conn.out.head? = some front ∨
        (s.accepted ++ front.1.drop s.conn.outCursor) <+: (outStep s a).accepted := by
  intro s
  obtain ⟨hbatch, gone, ⟨sent, hwire, hsub⟩, hplaced⟩ := outRun_batch highWater codel as
  have hqueue : (s.line gone).queue = s.conn.out := by
    show s.conn.writevBatch ++ s.conn.out = s.conn.out
    rw [show s.conn.writevBatch = [] from hbatch, List.nil_append]
  have hcursor := hplaced
  change s.accepted = sent.flatMap payload ++ (front payload (s.line gone)).take s.conn.outCursor
    at hwire
  change (sent ++ (s.line gone).queue).Sublist s.queued at hsub
  change s.conn.outCursor = 0 ∨ s.conn.outCursor < (front payload (s.line gone)).length at hcursor
  rw [front, hqueue] at hwire hcursor
  rw [hqueue] at hsub
  refine ⟨⟨sent, ?_, hsub⟩, ?_, ?_⟩
  · rw [← List.flatMap_def]
    exact hwire
  · have hle : s.conn.outCursor ≤ ((s.conn.out.head?.map payload).getD []).length := by omega
    exact hle
  · intro a f hfront hpos
    obtain ⟨⟨gone', hsteps⟩, hbatch'⟩ := outStep_steps s a gone hbatch
    have hkept := hsteps.begun hplaced (hqueue ▸ hfront) hpos
    have hqueue' : ((outStep s a).line gone').queue = (outStep s a).conn.out := by
      show (outStep s a).conn.writevBatch ++ (outStep s a).conn.out = (outStep s a).conn.out
      rw [hbatch', List.nil_append]
    rw [hqueue'] at hkept
    exact hkept

/-- A frame of which one byte went out survives a later frame that does not fit
under the high-water mark. -/
theorem outbound_stream_intact_short_write :
    let s := run outStep { conn := Connection.new 4 ⟨0, 100⟩ }
      [.queue [1, 2, 3] 0, .flush [.wrote 1] 0]
    s.accepted = [1] ∧ s.conn.outCursor = 1 ∧
      ((outStep s (.queue [4, 5, 6] 1)).conn.out.head? = some ([1, 2, 3], 0) ∨
        (s.accepted ++ [2, 3]) <+: (outStep s (.queue [4, 5, 6] 1)).accepted) :=
  ⟨by decide, by decide,
    (outbound_stream_intact 4 ⟨0, 100⟩ [.queue [1, 2, 3] 0, .flush [.wrote 1] 0]).2.2
      (.queue [4, 5, 6] 1) ([1, 2, 3], 0) (by decide) (by decide)⟩

end Pylon.Transport
