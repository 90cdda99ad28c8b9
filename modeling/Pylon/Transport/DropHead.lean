import Pylon.Transport.Billing

/-!
# Drop-head evicts no more than it must

`Connection::queue` of `transport/conn.rs`. The loop looks at one counter, `out_bytes`,
and evicts until the new frame fits beside it. On a connection in use the counter is the
sum of the queued lengths (`Sound.billed`), so what the loop decides about the counter is
a fact about the queue: the evicted frames are the shortest prefix behind the locked
front whose going makes room.
-/

namespace Pylon.Transport

open Lib

/-! ## Connections in use -/

/-- A call on a connection. -/
inductive IoAct where
  | queue (frame : Bytes) (now : Nat)
  | flush (socket : Socket) (now : Nat)
  | setReassemblyBytes (bytes : Nat)
  | setFrameBufferBytes (bytes : Nat)
  | setWritableArmed (armed : Bool)
  | setWantsWrite (wantsWrite : Bool)
  | takeDeltas
  deriving DecidableEq, Repr

def ioStep (c : IoConnection) : IoAct → IoConnection
  | .queue frame now => c.queue frame now
  | .flush socket now => (c.flush socket now).2
  | .setReassemblyBytes bytes => c.setReassemblyBytes bytes
  | .setFrameBufferBytes bytes => c.setFrameBufferBytes bytes
  | .setWritableArmed armed => c.setWritableArmed armed
  | .setWantsWrite wantsWrite => c.setWantsWrite wantsWrite
  | .takeDeltas => c.takeDeltas

theorem ioStep_sound {c : IoConnection} (h : c.conn.Sound) (a : IoAct) :
    (ioStep c a).conn.Sound := by
  cases a with
  | queue frame now => exact (IoConnection.keeps_queue h frame now).sound
  | flush socket now => exact (IoConnection.keeps_flush h socket now).sound
  | setReassemblyBytes bytes => exact (IoConnection.keeps_setReassemblyBytes h bytes).sound
  | setFrameBufferBytes bytes => exact (IoConnection.keeps_setFrameBufferBytes h bytes).sound
  | setWritableArmed armed => exact (IoConnection.keeps_setWritableArmed h armed).sound
  | setWantsWrite wantsWrite => exact (IoConnection.keeps_setWantsWrite h wantsWrite).sound
  | takeDeltas => exact ⟨h.batch, h.billed, h.intact⟩

theorem ioRun_sound (secure : Bool) (highWater : Nat) (codel : CodelParams) (as : List IoAct) :
    (run ioStep (IoConnection.new secure highWater codel) as).conn.Sound := by
  refine @run_invariant _ _ ioStep (fun c => c.conn.Sound) ?_ _ ?_ as
  · intro c a h
    exact ioStep_sound h a
  · exact Connection.Sound.new highWater codel

/-! ## The loop -/

namespace Connection

/-- The loop stops as soon as the frame fits, and not before. -/
theorem dropHead_stops (flen : Nat) (front behind : List OutFrame) (c : Connection) :
    ((dropHead flen front behind c).2 = behind.length ∨
      c.outBytes - totalBytes (behind.take (dropHead flen front behind c).2) + flen ≤ c.highWater) ∧
    ∀ m < (dropHead flen front behind c).2,
      c.highWater < c.outBytes - totalBytes (behind.take m) + flen := by
  induction behind generalizing c with
  | nil => exact ⟨Or.inl rfl, fun m hm => absurd hm (Nat.not_lt_zero m)⟩
  | cons victim behind ih =>
    rw [dropHead]
    split
    · next hover =>
      obtain ⟨hstop, hmin⟩ :=
        ih { c.unbill victim.1.length with dropheadDropped := c.dropheadDropped + 1 }
      have hbytes : ∀ m, c.outBytes - totalBytes ((victim :: behind).take (m + 1)) =
          c.outBytes - victim.1.length - totalBytes (behind.take m) := by
        intro m
        rw [List.take_succ_cons, totalBytes_cons, Nat.sub_sub]
      refine ⟨hstop.imp (congrArg (· + 1)) fun hfits => ?_, fun m hm => ?_⟩
      · rw [hbytes]
        exact hfits
      · cases m with
        | zero => simpa using hover
        | succ m =>
          rw [hbytes]
          exact hmin m (Nat.lt_of_succ_lt_succ hm)
    · next hfits =>
      refine ⟨Or.inr ?_, fun m hm => absurd hm (Nat.not_lt_zero m)⟩
      simpa using hfits

/-- The frames `queue` removes are the shortest prefix behind the locked front that makes
room for the new one, or all of it where none does. -/
structure Evicts (c : Connection) (flen : Nat) (evicted kept : List OutFrame) : Prop where
  split : c.droppable = evicted ++ kept
  fits : totalBytes c.locked + totalBytes kept + flen ≤ c.highWater ∨ kept = []
  shortest : ∀ fewer more, c.droppable = fewer ++ more → fewer.length < evicted.length →
    c.highWater < totalBytes c.locked + totalBytes more + flen

/-- Eviction starts behind a front that has begun. -/
theorem Sound.evicts {c : Connection} (h : c.Sound) (frame : Bytes) (now : Nat) :
    ∃ evicted kept, c.Evicts frame.length evicted kept ∧
      c.queue frame now =
        ({ (c.unbill (totalBytes evicted)).bill frame.length with
            out := c.locked ++ kept ++ [(frame, now)]
            dropheadDropped := c.dropheadDropped + evicted.length }, evicted.length) := by
  obtain ⟨evicted, kept, hsplit, heq⟩ := c.queue_spec frame now
  obtain ⟨hstop, hmin⟩ := dropHead_stops frame.length c.locked c.droppable c
  have hcount : (dropHead frame.length c.locked c.droppable c).2 = evicted.length :=
    congrArg Prod.snd heq
  rw [hcount] at hstop hmin
  -- the counter is the sum of what is queued, so what is left of it is what is kept
  have hleft : ∀ fewer more, c.droppable = fewer ++ more →
      c.outBytes - totalBytes fewer = totalBytes c.locked + totalBytes more := by
    intro fewer more hsplit
    have hbilled := h.billed
    rw [← c.locked_append_droppable, totalBytes_append] at hbilled
    rw [hsplit, totalBytes_append] at hbilled
    omega
  refine ⟨evicted, kept, ⟨hsplit, ?_, ?_⟩, heq⟩
  · rcases hstop with hall | hfits
    · right
      have hlen := congrArg List.length hsplit
      rw [List.length_append] at hlen
      exact List.eq_nil_of_length_eq_zero (by omega)
    · left
      rw [hsplit, List.take_left' rfl, hleft _ _ hsplit] at hfits
      exact hfits
  · intro fewer more hother hlt
    have hover := hmin fewer.length hlt
    rw [hother, List.take_left' rfl, hleft _ _ hother] at hover
    exact hover

end Connection

/-- On any connection in use, `queue` keeps the partly written front, evicts the shortest
prefix behind it that makes room and appends the frame; every counter moves by the frames
removed, and the queue ends no larger than the high-water mark or the two frames that
cannot be refused. -/
theorem drop_head_minimal (secure : Bool) (highWater : Nat) (codel : CodelParams)
    (as : List IoAct) (frame : Bytes) (now : Nat) :
    let c := (run ioStep (IoConnection.new secure highWater codel) as).conn
    let r := c.queue frame now
    (∃ evicted kept, c.Evicts frame.length evicted kept ∧
      r.1.out = c.locked ++ kept ++ [(frame, now)] ∧
      r.2 = evicted.length ∧
      r.1.dropheadDropped = c.dropheadDropped + evicted.length ∧
      r.1.inflightDelta = c.inflightDelta - totalBytes evicted + frame.length ∧
      r.1.outboundDelta = c.outboundDelta - totalBytes evicted + frame.length) ∧
    r.1.outBytes ≤ max c.highWater (totalBytes c.locked + frame.length) := by
  intro c r
  have hsound : c.Sound := ioRun_sound secure highWater codel as
  clear_value c
  obtain ⟨evicted, kept, hevicts, heq⟩ := hsound.evicts frame now
  have hbilled : r.1.outBytes = totalBytes r.1.out := (hsound.queue frame now).sound.billed
  have hout : r.1.out = c.locked ++ kept ++ [(frame, now)] := congrArg (·.1.out) heq
  refine ⟨⟨evicted, kept, hevicts, hout, ?_⟩, ?_⟩
  · rw [show r = _ from heq]
    exact ⟨rfl, rfl, rfl, rfl⟩
  · rw [hbilled, hout, totalBytes_append, totalBytes_append, totalBytes_cons, totalBytes_nil,
      Nat.add_zero]
    rcases hevicts.fits with hfits | rfl
    · exact Nat.le_trans hfits (Nat.le_max_left _ _)
    · exact Nat.le_max_right _ _

/-- Two bytes of the front are out, one frame makes room and one does not have to go. -/
example :
    let c := (run ioStep (IoConnection.new false 8 ⟨0, 0⟩) [.queue [1, 2, 3] 0, .queue [4, 5] 1,
      .queue [6, 7, 8] 2, .flush { writes := [.wrote 2] } 3]).conn
    (c.queue [9, 9] 4).1.out = [([1, 2, 3], 0), ([6, 7, 8], 2), ([9, 9], 4)] := by
  decide

end Pylon.Transport
