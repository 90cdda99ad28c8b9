import Mathlib.Tactic.Ring
import Pylon.Lib.Tally
import Pylon.Transport.Visits
import Pylon.Transport.Wire

/-!
# Byte accounting of a worker

A worker never sums its slab. It adds up the deltas its connections leave, modulo
`2 ^ 64`, and takes a connection that goes out of the totals.

A handler may leave a delta, but never changes what the worker was told
(`IoConnection.Keeps`), and each total is what the entries have told (`Booked`).
Between two steps no delta is left, so each total is the sum of what the slab holds.
-/

namespace Pylon.Transport

open Lib

/-! ## Handlers -/

namespace WorkerEntry

/-- The handler kept the books of the entry's connection. -/
def Keeps (e e' : WorkerEntry) : Prop := e.conn.Keeps e'.conn

theorem Keeps.next {e e' e'' : WorkerEntry} (h : e.Keeps e')
    (hnext : e'.conn.conn.Sound → e'.Keeps e'') : e.Keeps e'' :=
  h.trans (hnext h.sound)

variable {e : WorkerEntry} (h : e.conn.conn.Sound)

include h

theorem keeps_self : e.Keeps e := IoConnection.Keeps.refl h

theorem keeps_queue (frame : Bytes) (now : Nat) : e.Keeps (e.queue frame now) :=
  IoConnection.keeps_queue h frame now

theorem keeps_queueReject (reject : Reject) (now : Nat) : e.Keeps (e.queueReject reject now) :=
  (keeps_queue h _ now).next fun h => keeps_queue h _ now

theorem keeps_rearm (reregisters writable : Bool) :
    e.Keeps (e.rearm reregisters writable).entry := by
  rw [rearm]
  split
  · exact IoConnection.keeps_setWritableArmed h writable
  · exact keeps_self h

theorem keeps_flushAndArm (site : FlushSite) (now : Nat) :
    e.Keeps (e.flushAndArm site now).entry := by
  have hflush : e.Keeps { e with conn := (e.conn.flush site.socket now).2 } :=
    IoConnection.keeps_flush h site.socket now
  rw [flushAndArm]
  generalize e.conn.flush site.socket now = r at hflush
  obtain ⟨status, conn⟩ := r
  cases status with
  | drained => exact hflush.next fun h => keeps_rearm h site.reregisters false
  | wouldBlock => exact hflush.next fun h => keeps_rearm h site.reregisters true
  | closed => exact hflush

theorem keeps_send (frame : Bytes) (site : FlushSite) (now : Nat) :
    e.Keeps ((e.queue frame now).flushAndArm site now).entry :=
  (keeps_queue h frame now).next fun h => keeps_flushAndArm h site now

theorem keeps_setFragment (fragment : Option Fragment) : e.Keeps (e.setFragment fragment) :=
  IoConnection.keeps_setReassemblyBytes h _

theorem keeps_fail (code : Nat) (reason : String) (site : FlushSite) (now : Nat) :
    e.Keeps (e.fail code reason site now).entry :=
  (keeps_setFragment h none).next fun h => keeps_send h _ site now

variable (cfg : WorkerConfig)

theorem keeps_dispatchTextMessage (payload : Bytes) (site : FlushSite) (now : Nat) :
    e.Keeps (e.dispatchTextMessage cfg payload site now).entry := by
  rw [dispatchTextMessage]
  split
  · exact keeps_fail h 1007 _ site now
  · split
    · exact keeps_self h
    · exact keeps_self h

theorem keeps_dispatchFrame (f : Frame) (site : FlushSite) (now : Nat) :
    e.Keeps (e.dispatchFrame cfg f site now).entry := by
  refine dispatchFrame_cases cfg (motive := fun _ r => e.Keeps r.entry) (keeps_self h)
    (keeps_setFragment h) (keeps_fail h 1002 · site now)
    (keeps_dispatchTextMessage h cfg · site now)
    ?_ (fun _ => keeps_send h _ site now) (keeps_send h _ site now)
  exact fun payload => (keeps_setFragment h none).next fun h =>
    keeps_dispatchTextMessage h cfg payload site now

theorem keeps_dispatchLoop (now : Nat) (frames : List Frame) (sites : List FlushSite) :
    e.Keeps (dispatchLoop cfg now frames sites e).entry := by
  induction frames generalizing e sites with
  | nil => exact keeps_self h
  | cons f _ ih =>
    have hframe := keeps_dispatchFrame h cfg f (sites.headD {}) now
    rw [dispatchLoop]
    split
    · exact hframe.next fun h => ih h sites.tail
    · exact hframe

theorem keeps_queueMail (now : Nat) (mail : List Mail) : e.Keeps (queueMail now mail e).1 := by
  induction mail generalizing e with
  | nil => exact keeps_self h
  | cons m _ ih =>
    cases m with
    | close => exact keeps_queue h _ now
    | event => exact (keeps_queue h _ now).next fun h => ih h

theorem keeps_drainSession (mail : List Mail) (site : FlushSite) (now : Nat) :
    e.Keeps (e.drainSession mail site now).entry := by
  rw [drainSession]
  split
  · exact keeps_self h
  · have hflush := (keeps_queueMail h now mail).next fun h => keeps_flushAndArm h site now
    dsimp only
    split
    · exact hflush
    · exact hflush

theorem keeps_echoFrames (site : FlushSite) (now : Nat) (frames : List Frame) (wrote : Bool) :
    e.Keeps (echoFrames site now frames wrote e).entry := by
  induction frames generalizing e wrote with
  | nil =>
    rw [echoFrames]
    split
    · exact keeps_flushAndArm h site now
    · exact keeps_self h
  | cons f rest ih =>
    have hqueued (frame : Bytes) :
        e.Keeps (echoFrames site now rest true (e.queue frame now)).entry :=
      (keeps_queue h frame now).next fun h => ih h true
    rw [echoFrames]
    cases f.opcode with
    | text | binary | continuation | ping => exact hqueued _
    | pong => exact ih h wrote
    | close => exact keeps_self h

theorem keeps_armHandshakeInterest (site : FlushSite) (now : Nat) :
    e.Keeps (e.armHandshakeInterest site now).entry := by
  rw [armHandshakeInterest]
  split
  · exact keeps_flushAndArm h site now
  · split
    · exact keeps_rearm h site.reregisters false
    · exact keeps_self h

theorem keeps_establish (upgrade : Upgrade) (gen : BitVec 64) (site : FlushSite) (now : Nat) :
    e.Keeps (e.establish upgrade gen site now).entry := by
  cases upgrade with
  | establish text =>
    have hset : e.Keeps { e.queueText text now with session := true } := keeps_queue h _ now
    exact hset.next fun h => keeps_flushAndArm h site now
  | reject reject =>
    exact (keeps_queueReject h reject now).next fun h => keeps_flushAndArm h site now
  | park =>
    have hset : e.Keeps { e with pendingEstablish := some gen } := keeps_self h
    exact hset.next fun h => keeps_flushAndArm h site now

theorem keeps_handleHandshake (gen : BitVec 64) (input : Input) (now : Nat) :
    e.Keeps (e.handleHandshake cfg gen input now).entry := by
  have hread : e.Keeps (e.drainHeadBytes input).2 := IoConnection.keeps_setWantsWrite h _
  generalize hhead : (e.drainHeadBytes input).2 = e' at hread
  refine hread.next fun h => ?_
  refine handleHandshake_cases cfg (motive := fun _ r => e'.Keeps r.entry) hhead (keeps_self h)
    (keeps_armHandshakeInterest h _ now) (fun _ => keeps_self h) (keeps_send h _ _ now)
    fun key => ?_
  have hopened : e'.Keeps
      { e'.queue (cfg.acceptResponse key) now with inbuf := [], state := .opened } :=
    keeps_queue h _ now
  dsimp only
  split
  · exact hopened.next fun h => keeps_flushAndArm h input.site now
  · exact hopened.next fun h => keeps_establish h input.upgrade gen input.site now

theorem keeps_dispatchFrames (frames : List Frame) (input : Input) (now : Nat) :
    e.Keeps (e.dispatchFrames cfg frames input now).entry := by
  have hloop := keeps_dispatchLoop h cfg now frames input.sites
  rw [dispatchFrames]
  split
  · exact hloop.next fun h => keeps_drainSession h input.mail input.site now
  · exact hloop

theorem keeps_handleFrames (input : Input) (now : Nat) :
    e.Keeps (e.handleFrames cfg input now).entry := by
  have hread : e.Keeps (e.readInto cfg input).2 := by
    have hwants := IoConnection.keeps_setWantsWrite h (input.received e.conn).wantsWrite
    exact hwants.trans (IoConnection.keeps_setFrameBufferBytes hwants.sound _)
  rw [handleFrames]
  generalize e.readInto cfg input = r at hread ⊢
  obtain ⟨result, e'⟩ := r
  refine hread.next fun h => ?_
  cases result with
  | error => exact keeps_self h
  | ok frames =>
    dsimp only
    split
    · exact keeps_fail h 4100 _ input.site now
    · split
      · exact keeps_echoFrames h input.site now frames false
      · exact keeps_dispatchFrames h cfg frames input now

theorem keeps_handleReadable (gen : BitVec 64) (input : Input) (now : Nat) :
    e.Keeps (e.handleReadable cfg gen input now).entry := by
  rw [handleReadable]
  cases e.state with
  | handshaking => exact keeps_handleHandshake h cfg gen input now
  | opened => exact keeps_handleFrames h cfg input now

theorem keeps_handleWritable (gen : BitVec 64) (input : Input) (now : Nat) :
    e.Keeps (e.handleWritable cfg gen input now).entry := by
  rw [handleWritable]
  cases e.state with
  | handshaking => exact keeps_handleHandshake h cfg gen input now
  | opened => exact keeps_flushAndArm h input.site now

theorem Work.keeps {gen : BitVec 64} {r : Handled} (hwork : e.Work cfg gen r) :
    e.Keeps r.entry := by
  have hgoodbye (text : Bytes) (code : Nat) (reason : String) (site : FlushSite) (now : Nat) :
      e.Keeps ((e.queueText text now).sendCloseReply code reason site now).entry :=
    (keeps_queue h _ now).next fun h => keeps_send h _ site now
  cases hwork with
  | writable input now => exact keeps_handleWritable h cfg gen input now
  | mail mail site now => exact keeps_drainSession h mail site now
  | resumed upgrade gen' site now =>
    have htaken : e.Keeps { e with pendingEstablish := none } := keeps_self h
    exact htaken.next fun h => keeps_establish h upgrade gen' site now
  | ping text site now => exact keeps_send h _ site now
  | goodbye text code reason site now => exact hgoodbye text code reason site now
  | closeDue text code reason site now =>
    cases text with
    | none => exact keeps_send h _ site now
    | some text => exact hgoodbye text code reason site now

end WorkerEntry

/-! ## The books -/

/-- What the entry has told the worker, as the worker adds it up. -/
def WorkerEntry.booked (m : Meter) (e : WorkerEntry) : BitVec 64 := .ofInt 64 (e.conn.folded m)

theorem WorkerEntry.booked_eq (m : Meter) (e : WorkerEntry) :
    e.booked m = .ofNat 64 (e.conn.held m) - .ofInt 64 (e.conn.delta m) := by
  show ((e.conn.held m - e.conn.delta m : Int) : BitVec 64) =
    ((e.conn.held m : Nat) : BitVec 64) - ((e.conn.delta m : Int) : BitVec 64)
  rw [Int.cast_sub, Int.cast_natCast]

namespace Worker

def total (w : Worker) : Meter → BitVec 64
  | .inflight => w.inflightBytes
  | .outbound => w.outboundBytes

/-- Connections are sound, and each total is what the entries have told. -/
structure Booked (w : Worker) : Prop where
  sound : ∀ k e, w.conns.hget k = some e → e.conn.conn.Sound
  total : ∀ m, w.total m = w.conns.tally (WorkerEntry.booked m)

/-- No delta is left, except perhaps under `key`. -/
structure BalancedBut (w : Worker) (key : Nat) : Prop extends Booked w where
  clean : ∀ k e, k ≠ key → w.conns.hget k = some e → ∀ m, e.conn.delta m = 0

/-- No delta is left. -/
structure Balanced (w : Worker) : Prop extends Booked w where
  clean : ∀ k e, w.conns.hget k = some e → ∀ m, e.conn.delta m = 0

variable {w : Worker} {key : Nat} {e : WorkerEntry} {r : Handled}

theorem Balanced.but (h : w.Balanced) (key : Nat) : w.BalancedBut key :=
  ⟨h.toBooked, fun k e _ hk => h.clean k e hk⟩

@[simp] theorem total_put (m : Meter) : (w.put key r).total m = w.total m := by
  cases m <;> rfl

theorem total_foldDelta (hkey : w.conns.hget key = some e) (m : Meter) :
    (w.foldDelta key).total m = w.total m + .ofInt 64 (e.conn.delta m) := by
  cases m <;> simp only [foldDelta, hkey] <;> rfl

theorem total_release (hkey : w.conns.hget key = some e) (m : Meter) :
    (w.release key).total m =
      w.total m + .ofInt 64 (e.conn.delta m) - .ofNat 64 (e.conn.held m) := by
  cases m <;> simp only [release, hkey] <;> rfl

/-- A handler's work keeps the books, and only its own entry may have a delta. -/
theorem Balanced.put (h : w.Balanced) (hkey : w.conns.hget key = some e)
    (hkeeps : e.Keeps r.entry) : (w.put key r).BalancedBut key := by
  refine ⟨⟨?_, ?_⟩, ?_⟩
  · intro k e' hk
    rw [Worker.put, Hash.hget_hset] at hk
    split at hk
    · cases hk
      exact hkeeps.sound
    · exact h.sound k e' hk
  · intro m
    have htally := Hash.tally_hset (WorkerEntry.booked m) w.conns key r.entry
    have hsame : r.entry.booked m = e.booked m := by
      rw [WorkerEntry.booked, WorkerEntry.booked, hkeeps.folded m]
    rw [Hash.weight_of_hget hkey, hsame] at htally
    rw [total_put, h.total m]
    exact (add_right_cancel htally).symm
  · intro k e' hne hk
    rw [Worker.put, Hash.hget_hset, if_neg hne] at hk
    exact h.clean k e' hk

/-- Folding an entry tells the worker of its delta and leaves it with none. -/
theorem BalancedBut.foldDelta (h : w.BalancedBut key) : (w.foldDelta key).Balanced := by
  cases hkey : w.conns.hget key with
  | none =>
    rw [Worker.foldDelta, hkey]
    refine ⟨h.toBooked, fun k e hk => h.clean k e ?_ hk⟩
    rintro rfl
    rw [hkey] at hk
    cases hk
  | some e =>
    have hconns : (w.foldDelta key).conns =
        w.conns.hset key { e with conn := e.conn.takeDeltas } := by
      rw [Worker.foldDelta, hkey]
    refine ⟨⟨?_, ?_⟩, ?_⟩
    · intro k e' hk
      rw [hconns, Hash.hget_hset] at hk
      split at hk
      · cases hk
        have hsound := h.sound key e hkey
        exact ⟨hsound.batch, hsound.billed, hsound.intact⟩
      · exact h.sound k e' hk
    · intro m
      have htally := Hash.tally_hset (WorkerEntry.booked m) w.conns key
        { e with conn := e.conn.takeDeltas }
      have htold : WorkerEntry.booked m { e with conn := e.conn.takeDeltas } =
          e.booked m + .ofInt 64 (e.conn.delta m) := by
        show BitVec.ofInt 64 (e.conn.takeDeltas.folded m) = _
        rw [IoConnection.folded_takeDeltas, BitVec.ofInt_add]
        rfl
      rw [Hash.weight_of_hget hkey, htold, ← hconns, ← h.total m] at htally
      rw [total_foldDelta hkey]
      refine (add_right_cancel (b := e.booked m) ?_).symm
      rw [htally]
      ring
    · intro k e' hk m
      rw [hconns, Hash.hget_hset] at hk
      split at hk
      · cases hk
        exact IoConnection.delta_takeDeltas e.conn m
      next hne => exact h.clean k e' hne hk m

/-- Removing an entry takes what it holds out of the totals, whatever was left to
fold. -/
theorem BalancedBut.release (h : w.BalancedBut key) : (w.release key).Balanced := by
  cases hkey : w.conns.hget key with
  | none =>
    rw [Worker.release, hkey]
    refine ⟨h.toBooked, fun k e hk => h.clean k e ?_ hk⟩
    rintro rfl
    rw [hkey] at hk
    cases hk
  | some =>
    have hconns : (w.release key).conns = w.conns.hdel key := by
      rw [Worker.release, hkey]
    have hother {k : Nat} {e' : WorkerEntry} (hk : (w.release key).conns.hget k = some e') :
        k ≠ key ∧ w.conns.hget k = some e' := by
      rw [hconns, Hash.hget_hdel] at hk
      split at hk
      · cases hk
      next hne => exact ⟨hne, hk⟩
    refine ⟨⟨?_, ?_⟩, ?_⟩
    · intro k e' hk
      exact h.sound k e' (hother hk).2
    · intro m
      have htally := Hash.tally_hdel (WorkerEntry.booked m) w.conns key
      rw [Hash.weight_of_hget hkey, WorkerEntry.booked_eq, ← hconns, ← h.total m] at htally
      rw [total_release hkey, ← htally]
      ring
    · intro k e' hk
      exact h.clean k e' (hother hk).1 (hother hk).2

theorem Balanced.remove (h : w.Balanced) (key : Nat) : (w.remove key).Balanced :=
  (h.but key).release

theorem BalancedBut.settle (h : w.BalancedBut key) (action : Fate) :
    (w.settle key action).Balanced := by
  cases action with
  | keep => exact h.foldDelta
  | close | handoff => exact h.foldDelta.remove key

/-! ## Steps -/

/-- A new entry has no delta. -/
theorem Balanced.accept (h : w.Balanced) (cfg : WorkerConfig) (key : Nat) :
    (w.accept cfg key).Balanced := by
  rw [Worker.accept]
  split
  · exact h
  next hvacant =>
    have hnone : w.conns.hget key = none := by
      rw [Hash.hexists_iff, not_not] at hvacant
      exact hvacant
    refine ⟨⟨?_, ?_⟩, ?_⟩
    · intro k e hk
      rw [Hash.hget_hset] at hk
      split at hk
      · cases hk
        exact Connection.Sound.new cfg.highWater cfg.codel
      · exact h.sound k e hk
    · intro m
      have htally := Hash.tally_hset (WorkerEntry.booked m) w.conns key
        { conn := .new cfg.tls cfg.highWater cfg.codel }
      have hfresh : WorkerEntry.booked m { conn := .new cfg.tls cfg.highWater cfg.codel } = 0 := by
        cases m <;> rfl
      rw [Hash.weight_of_absent hnone, hfresh, add_zero, add_zero, ← h.total m] at htally
      rw [htally]
      cases m <;> rfl
    · intro k e hk m
      rw [Hash.hget_hset] at hk
      split at hk
      · cases hk
        cases m <;> rfl
      · exact h.clean k e hk m

theorem Balanced.readable (h : w.Balanced) (cfg : WorkerConfig) (key : Nat) (input : Input)
    (now : Nat) : (w.readable cfg key input now).Balanced := by
  rw [Worker.readable]
  cases hkey : w.conns.hget key with
  | none => exact h
  | some e =>
    dsimp only
    have hkeeps := WorkerEntry.keeps_handleReadable (h.sound key e hkey) cfg w.nextGen input now
    generalize e.handleReadable cfg w.nextGen input now = r at hkeeps
    have hput := h.put hkey hkeeps
    cases r.action with
    | keep => exact hput.foldDelta
    | close | handoff => exact hput.release

/-- Any visit keeps the books of its entry; then comes a fold and the entry's fate. -/
theorem Balanced.rule (cfg : WorkerConfig) : Rule cfg Balanced where
  accept _ key h := h.accept cfg key
  remove _ key h := h.remove key
  visit _ key e r h hkey hwork := (h.put hkey (hwork.keeps (h.sound key e hkey))).settle r.action
  flags _ _ _ h := ⟨⟨h.sound, h.total⟩, h.clean⟩

theorem Balanced.flushTouched {s : Worker × List Nat} (h : s.1.Balanced) (pass : Pass)
    (token : Nat) : (Worker.flushTouched pass s token).1.Balanced := by
  rw [Worker.flushTouched]
  cases hkey : s.1.conns.hget token with
  | none => exact h
  | some e =>
    exact (h.put hkey
      (WorkerEntry.keeps_flushAndArm (h.sound _ e hkey) (pass.site token) pass.now)).foldDelta

theorem Balanced.drainBroadcasts (h : w.Balanced) (cfg : WorkerConfig) (budget : Nat)
    (msgs : List BroadcastMsg) (pass : Pass) :
    (w.drainBroadcasts budget msgs pass).Balanced := by
  have hinbox : (w.drainBroadcastInbox budget pass.now msgs).1.Balanced := by
    refine @drainBroadcastInbox_rule w (fun s => s.1.Balanced) budget pass.now ?_ h msgs
    intro s token e frame hs hkey
    exact (hs.put hkey (WorkerEntry.keeps_queue (hs.sound _ e hkey) frame pass.now)).foldDelta
  rw [Worker.drainBroadcasts]
  generalize w.drainBroadcastInbox budget pass.now msgs = s at hinbox
  obtain ⟨w', touched⟩ := s
  have hflushed : ((pass.walk touched).foldl (Worker.flushTouched pass) (w', [])).1.Balanced :=
    @run_invariant _ _ _ (fun s : Worker × List Nat => s.1.Balanced)
      (fun s token hs => hs.flushTouched pass token) (w', []) hinbox (pass.walk touched)
  exact (Balanced.rule cfg).removeAll hflushed _

theorem Balanced.step (h : w.Balanced) (cfg : WorkerConfig) (a : WorkerAct) :
    (workerStep cfg w a).Balanced :=
  (Balanced.rule cfg).step h a (fun key _ now _ _ input _ => h.readable cfg key input now)
    fun budget msgs pass _ => h.drainBroadcasts cfg budget msgs pass

theorem Balanced.start : ({} : Worker).Balanced := by
  refine ⟨⟨?_, ?_⟩, ?_⟩
  · intro k e hk
    cases hk
  · intro m
    rw [show ({} : Worker).conns = ∅ from rfl, Hash.tally_empty]
    cases m <;> rfl
  · intro k e hk
    cases hk

/-- With every delta folded, a total is the sum of what the slab holds. -/
theorem Balanced.total_eq (h : w.Balanced) (m : Meter) :
    w.total m = .ofNat 64 (w.conns.tally fun e => e.conn.held m) := by
  have hheld : w.conns.tally (WorkerEntry.booked m) =
      w.conns.tally fun e => ((e.conn.held m : Nat) : BitVec 64) := by
    apply Hash.tally_congr
    intro k e hk
    rw [WorkerEntry.booked_eq, h.clean k e hk m, BitVec.ofInt_ofNat, BitVec.sub_zero]
    rfl
  rw [h.total m, hheld]
  exact (Hash.tally_map _ w.conns (Nat.castAddMonoidHom (BitVec 64))).symm

end Worker

/-- In every state a worker reaches, `inflightBytes` and `outboundBytes` are the
sums over the slab, as `u64`s, and each connection's own counters fit its queue. -/
theorem worker_accounting (cfg : WorkerConfig) (as : List WorkerAct) :
    let w := run (workerStep cfg) {} as
    w.inflightBytes = .ofNat 64 (w.conns.tally fun e => e.conn.accountedBytes) ∧
    w.outboundBytes = .ofNat 64 (w.conns.tally fun e => e.conn.outboundBytes) ∧
    ∀ k e, w.conns.hget k = some e →
      e.conn.conn.outBytes = totalBytes e.conn.conn.out ∧
      (e.conn.conn.outCursor = 0 ∨
        ∃ front rest, e.conn.conn.out = front :: rest ∧
          e.conn.conn.outCursor < front.1.length) := by
  intro w
  have h : w.Balanced := run_invariant (fun _ a h => h.step cfg a) Worker.Balanced.start as
  refine ⟨h.total_eq .inflight, h.total_eq .outbound, ?_⟩
  intro k e hk
  have hsound := h.sound k e hk
  exact ⟨hsound.billed, hsound.cursor⟩

end Pylon.Transport
