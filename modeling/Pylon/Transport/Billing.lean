import Pylon.Transport.Outbound

/-!
# What a connection is billed for

The byte counters of `transport/conn.rs`, on a plain connection and on a TLS one.

* **the TLS flush** — ciphertext the session still holds goes out first, then the
  queue is handed to it a batch at a time; the bytes of a batch it has taken and
  the socket has not are `unflushedBytes`;
* **two meters** — what a connection accounts for and what it owes the socket. No
  operation changes what the worker was told (`folded`): each moves a delta by exactly
  what it moves the bytes under it.

Deltas are `i64`s and stay integers here; the worker takes them modulo `2 ^ 64`.
-/

namespace Pylon.Transport

open Lib Lib.Framing

/-! ## The sending half of a TLS session -/

/-- How `write_ciphertext` ends: everything went out, the socket blocked, or a
write failed. -/
inductive CipherWrite where
  | sent
  | blocked
  | failed (interrupted : Bool)
  deriving DecidableEq, Repr

/-- A session with nothing to write makes no call. -/
def writeCiphertext (wantsWrite : Bool) (outcome : CipherWrite) : CipherWrite :=
  if wantsWrite then outcome else .sent

/-- The plaintext taken and not yet on the wire, and whether ciphertext waits. -/
structure TlsSend where
  unflushedBytes : Nat := 0
  wantsWrite : Bool := false
  deriving DecidableEq, Repr

/-- What happens in one `write_batch`: the ciphertext before it, what the writer
takes, whether ciphertext is then buffered, and the ciphertext after it. -/
structure TlsCall where
  before : CipherWrite := .sent
  taken : WriteOutcome
  buffered : Bool := true
  after : CipherWrite := .sent
  deriving DecidableEq, Repr

/-- An `io::Error` of the socket other than `WouldBlock`. -/
def writeError (interrupted : Bool) : WriteOutcome :=
  if interrupted then .interrupted else .error

/-- `write_batch` of the TLS sink on a batch of `offered` bytes. -/
def TlsCall.writeBatch (call : TlsCall) (offered : Nat) (t : TlsSend) : WriteOutcome × TlsSend :=
  match writeCiphertext t.wantsWrite call.before with
  | .blocked => (.wouldBlock, t)
  | .failed interrupted => (writeError interrupted, t)
  | .sent =>
    match call.taken with
    | .wrote n =>
      let n := min n offered
      match writeCiphertext call.buffered call.after with
      | .sent => (.wrote n, {})
      | .blocked => (.wrote n, ⟨n, true⟩)
      -- the batch was taken, but the error is what the flush sees
      | .failed interrupted => (writeError interrupted, ⟨n, true⟩)
    | failed => (failed, {})

theorem TlsCall.writeBatch_le (call : TlsCall) (offered : Nat) (t : TlsSend) {n : Nat}
    (h : (call.writeBatch offered t).1 = .wrote n) : n ≤ offered := by
  rw [writeBatch] at h
  split at h
  · cases h
  · rw [writeError] at h
    split at h <;> cases h
  · split at h
    · dsimp only at h
      split at h
      · cases h
        exact Nat.min_le_right _ _
      · cases h
        exact Nat.min_le_right _ _
      · rw [writeError] at h
        split at h <;> cases h
    · rename_i hfailed
      exact absurd h (hfailed n)

def tlsBatchMaxBytes : Nat := 60 * 1024

/-- What a TLS flush did. -/
structure TlsFlushed where
  status : WriteStatus
  conn : Connection
  tls : TlsSend
  deriving DecidableEq, Repr

/-- `flush_coalesced` to the TLS sink, one entry of `calls` a call. -/
def flushCoalescedTls (now : Nat) (calls : List TlsCall) (c : Connection) (t : TlsSend) :
    TlsFlushed :=
  let c := c.vet now
  if c.out = [] then ⟨.drained, { c with writevBatch := [] }, t⟩
  else
    let start := c.outCursor
    let c := c.gatherBatch tlsBatchMaxBytes now
    match calls with
    | [] => ⟨.wouldBlock, c.restoreBatch, t⟩
    | call :: calls =>
      match call.writeBatch (slices start c.writevBatch).flatten.length t with
      | (.wouldBlock, t) => ⟨.wouldBlock, c.restoreBatch, t⟩
      | (.interrupted, t) => flushCoalescedTls now calls c.restoreBatch t
      | (.error, t) => ⟨.closed, c.restoreBatch, t⟩
      | (.wrote n, t) =>
        if n = 0 then ⟨.closed, c.restoreBatch, t⟩
        else flushCoalescedTls now calls (c.applyWritten start n) t

/-- To the queue, a TLS sink is a sink: some script of a plain one does the same. -/
theorem flushCoalescedTls_script (now : Nat) (calls : List TlsCall) (c : Connection)
    (t : TlsSend) :
    ∃ script, (flushCoalescedTls now calls c t).status =
        (flushCoalesced tlsBatchMaxBytes now script c).status ∧
      (flushCoalescedTls now calls c t).conn =
        (flushCoalesced tlsBatchMaxBytes now script c).conn := by
  induction calls generalizing c t with
  | nil =>
    refine ⟨[], ?_⟩
    rw [flushCoalescedTls, flushCoalesced]
    by_cases hempty : (c.vet now).out = []
    · simp only [if_pos hempty, and_self]
    · simp only [if_neg hempty, and_self]
  | cons call _ ih =>
    rw [flushCoalescedTls]
    by_cases hempty : (c.vet now).out = []
    · refine ⟨[], ?_⟩
      rw [flushCoalesced]
      simp only [if_pos hempty, and_self]
    · simp only [if_neg hempty]
      generalize hbatch : (c.vet now).gatherBatch tlsBatchMaxBytes now = d
      generalize hcall : call.writeBatch _ t = r
      obtain ⟨outcome, t'⟩ := r
      cases outcome with
      | wouldBlock =>
        refine ⟨[.wouldBlock], ?_⟩
        rw [flushCoalesced]
        simp only [if_neg hempty, hbatch, and_self]
      | error =>
        refine ⟨[.error], ?_⟩
        rw [flushCoalesced]
        simp only [if_neg hempty, hbatch, and_self]
      | interrupted =>
        obtain ⟨script, hstatus, hconn⟩ := ih d.restoreBatch t'
        refine ⟨.interrupted :: script, ?_⟩
        rw [flushCoalesced]
        simp only [if_neg hempty, hbatch]
        exact ⟨hstatus, hconn⟩
      | wrote n =>
        have hle : n ≤ (slices (c.vet now).outCursor d.writevBatch).flatten.length :=
          call.writeBatch_le _ t (congrArg Prod.fst hcall)
        have hlen : ((slices (c.vet now).outCursor d.writevBatch).flatten.take n).length = n := by
          rw [List.length_take]
          omega
        obtain ⟨script, hstatus, hconn⟩ := ih (d.applyWritten (c.vet now).outCursor n) t'
        refine ⟨.wrote n :: script, ?_⟩
        rw [flushCoalesced]
        simp only [if_neg hempty, hbatch, hlen]
        by_cases hzero : n = 0
        · simp only [if_pos hzero, and_self]
        · simp only [if_neg hzero]
          exact ⟨hstatus, hconn⟩

/-! ## Connections over their I/O -/

/-- What the socket, and the TLS session over it, do during one flush. -/
structure Socket where
  writes : List WriteOutcome := []
  first : CipherWrite := .sent
  calls : List TlsCall := []
  last : CipherWrite := .sent
  deriving DecidableEq, Repr

/-- A connection with its I/O (`secure` is `Io::Tls`) and the bytes its inbound
frame buffer is billed for. -/
structure IoConnection where
  conn : Connection
  secure : Bool
  tls : TlsSend := {}
  frameBufferBytes : Nat := 0
  deriving DecidableEq, Repr

namespace IoConnection

/-- `new` and `new_tls`. -/
def new (secure : Bool) (highWater : Nat) (codel : CodelParams) : IoConnection :=
  { conn := .new highWater codel, secure }

def accountedBytes (c : IoConnection) : Nat :=
  c.conn.outBytes + c.conn.reassemblyBytes + c.frameBufferBytes + c.tls.unflushedBytes

def outboundBytes (c : IoConnection) : Nat := c.conn.outBytes + c.tls.unflushedBytes

def hasPendingWrites (c : IoConnection) : Bool := !c.conn.out.isEmpty || c.tls.wantsWrite

def queue (c : IoConnection) (frame : Bytes) (now : Nat) : IoConnection :=
  { c with conn := (c.conn.queue frame now).1 }

def setReassemblyBytes (c : IoConnection) (bytes : Nat) : IoConnection :=
  { c with conn := c.conn.setReassemblyBytes bytes }

/-- Resize the billing of the inbound frame buffer. -/
def setFrameBufferBytes (c : IoConnection) (bytes : Nat) : IoConnection :=
  { c with
    conn := { c.conn with
      inflightDelta := c.conn.inflightDelta + (bytes - c.frameBufferBytes) }
    frameBufferBytes := bytes }

def setWritableArmed (c : IoConnection) (armed : Bool) : IoConnection :=
  { c with conn := { c.conn with writableArmed := armed } }

/-- Whether the session wants to write once its reads are done. -/
def setWantsWrite (c : IoConnection) (wantsWrite : Bool) : IoConnection :=
  if c.secure then { c with tls := { c.tls with wantsWrite } } else c

/-- Push the buffered ciphertext out; a status is one to return. -/
def drainCiphertext (c : IoConnection) (outcome : CipherWrite) :
    IoConnection × Option WriteStatus :=
  match writeCiphertext c.tls.wantsWrite outcome with
  | .sent => ({ c with tls := {} }, none)
  | .blocked => (c, some .wouldBlock)
  | .failed _ => (c, some .closed)

def flushTlsPhases (c : IoConnection) (s : Socket) (now : Nat) : WriteStatus × IoConnection :=
  match c.drainCiphertext s.first with
  | (c, some status) => (status, c)
  | (c, none) =>
    let r := flushCoalescedTls now s.calls c.conn c.tls
    let c := { c with conn := r.conn, tls := r.tls }
    if r.status ≠ .drained then (r.status, c)
    else
      match c.drainCiphertext s.last with
      | (c, some status) => (status, c)
      | (c, none) => (.drained, c)

def flushTls (c : IoConnection) (s : Socket) (now : Nat) : WriteStatus × IoConnection :=
  let before := c.tls.unflushedBytes
  let (status, c) := c.flushTlsPhases s now
  let delta : Int := c.tls.unflushedBytes - before
  (status, { c with conn := { c.conn with
    inflightDelta := c.conn.inflightDelta + delta
    outboundDelta := c.conn.outboundDelta + delta } })

def flush (c : IoConnection) (s : Socket) (now : Nat) : WriteStatus × IoConnection :=
  if c.secure then c.flushTls s now
  else
    let r := flushPlain c.conn s.writes now
    (r.status, { c with conn := r.conn })

/-- `take_inflight_delta` and `take_outbound_delta`: the connection left. -/
def takeDeltas (c : IoConnection) : IoConnection :=
  { c with conn := { c.conn with inflightDelta := 0, outboundDelta := 0 } }

end IoConnection

/-! ## Frames that leave the queue -/

namespace Connection

/-- Everything queued, gathered into the batch or not. -/
def backlog (c : Connection) : List OutFrame := c.writevBatch ++ c.out

/-- `len` bytes of the backlog went, and the counters have been told. -/
structure Unbilled (c c' : Connection) (len : Nat) : Prop where
  backlog : totalBytes c.backlog = len + totalBytes c'.backlog
  outBytes : c'.outBytes = c.outBytes - len
  inflightDelta : c'.inflightDelta = c.inflightDelta - len
  outboundDelta : c'.outboundDelta = c.outboundDelta - len
  reassemblyBytes : c'.reassemblyBytes = c.reassemblyBytes

/-- `c'` is `c` without some of its backlog. -/
def Sheds (c c' : Connection) : Prop := ∃ len, Unbilled c c' len

/-- Frames only moved between the queue and the batch. -/
theorem Sheds.of_backlog {c c' : Connection}
    (hbacklog : totalBytes c'.backlog = totalBytes c.backlog)
    (hout : c'.outBytes = c.outBytes) (hin : c'.inflightDelta = c.inflightDelta)
    (hob : c'.outboundDelta = c.outboundDelta) (hre : c'.reassemblyBytes = c.reassemblyBytes) :
    c.Sheds c' :=
  ⟨0, by omega, by omega, by omega, by omega, hre⟩

variable (c : Connection)

theorem Sheds.refl : c.Sheds c := .of_backlog rfl rfl rfl rfl rfl

theorem Sheds.trans {c c' c'' : Connection} (h : c.Sheds c') (h' : c'.Sheds c'') :
    c.Sheds c'' := by
  obtain ⟨len, h⟩ := h
  obtain ⟨len', h'⟩ := h'
  refine ⟨len + len', ?_, ?_, ?_, ?_, ?_⟩
  · rw [h.backlog, h'.backlog, Nat.add_assoc]
  · rw [h'.outBytes, h.outBytes, Nat.sub_sub]
  · rw [h'.inflightDelta, h.inflightDelta]
    omega
  · rw [h'.outboundDelta, h.outboundDelta]
    omega
  · rw [h'.reassemblyBytes, h.reassemblyBytes]

theorem vet_sheds (now : Nat) : c.Sheds (c.vet now) := by
  obtain ⟨dropped, kept, st, hout, -, -, heq, -⟩ := c.vet_spec now
  rw [heq]
  refine ⟨totalBytes dropped, ?_, rfl, rfl, rfl, rfl⟩
  show totalBytes (c.writevBatch ++ c.out) = totalBytes dropped + totalBytes (c.writevBatch ++ kept)
  rw [hout, totalBytes_append, totalBytes_append, totalBytes_append]
  omega

theorem gatherLoop_sheds (maxBytes startCursor now fuel batchBytes : Nat) (c : Connection) :
    c.Sheds (gatherLoop maxBytes startCursor now fuel batchBytes c).1 := by
  refine gatherLoop_rule (motive := fun c r => c.Sheds r.1) Sheds.refl ?_ fuel batchBytes c
  intro c front rest r hout ih
  have hjoined : c.Sheds (c.join front rest) := by
    refine Sheds.of_backlog ?_ rfl rfl rfl rfl
    show totalBytes (c.writevBatch ++ [front] ++ rest) = totalBytes (c.writevBatch ++ c.out)
    rw [hout, List.append_assoc, List.singleton_append]
  exact hjoined.trans ((vet_sheds _ now).trans ih)

theorem restoreBatch_sheds : c.Sheds c.restoreBatch :=
  Sheds.of_backlog rfl rfl rfl rfl rfl

theorem applyWritten_sheds (startCursor n : Nat) : c.Sheds (c.applyWritten startCursor n) := by
  obtain ⟨k, -, cursor, heq, -⟩ := c.applyWritten_spec startCursor n
  rw [heq]
  refine ⟨totalBytes (c.writevBatch.take k), ?_, rfl, rfl, rfl, rfl⟩
  show totalBytes (c.writevBatch ++ c.out) =
    totalBytes (c.writevBatch.take k) + totalBytes (c.writevBatch.drop k ++ c.out)
  rw [← totalBytes_append, ← List.append_assoc, List.take_append_drop]

theorem applyWritten_batch (startCursor n : Nat) :
    (c.applyWritten startCursor n).writevBatch = [] := by
  rw [applyWritten]
  dsimp only
  split <;> rfl

/-- Gathering the next batch, from a queue with no batch out. -/
theorem gatherBatch_sheds (maxBytes now : Nat) (hbatch : c.writevBatch = []) :
    c.Sheds (c.gatherBatch maxBytes now) := by
  have hclear : ({ c with writevBatch := [] } : Connection) = c := by rw [← hbatch]
  rw [gatherBatch, gathering, hclear]
  exact gatherLoop_sheds maxBytes c.outCursor now c.out.length 0 c

end Connection

/-- A flush takes bytes off the counters exactly as frames leave the backlog,
whatever the sink does. -/
theorem flushCoalesced_sheds (maxBytes now : Nat) (script : List WriteOutcome) (c : Connection)
    (hbatch : c.writevBatch = []) :
    c.Sheds (flushCoalesced maxBytes now script c).conn := by
  have hvetBatch (c : Connection) (hbatch : c.writevBatch = []) : (c.vet now).writevBatch = [] :=
    (c.vet_steps [] [] [] now).2.2.trans hbatch
  have hoffer (c : Connection) (hbatch : c.writevBatch = []) :
      c.Sheds ((c.vet now).gatherBatch maxBytes now) :=
    (c.vet_sheds now).trans ((c.vet now).gatherBatch_sheds maxBytes now (hvetBatch c hbatch))
  revert hbatch
  refine flushCoalesced_rule (motive := fun c r => c.writevBatch = [] → c.Sheds r.conn)
    ?_ ?_ ?_ ?_ script c
  · intro c _ hbatch
    rw [← hvetBatch c hbatch]
    exact c.vet_sheds now
  · intro c _ _ _ hbatch
    exact (hoffer c hbatch).trans (Connection.restoreBatch_sheds _)
  · intro c r _ ih hbatch
    exact ((hoffer c hbatch).trans (Connection.restoreBatch_sheds _)).trans (ih rfl)
  · intro c n r _ g offered _ _ ih hbatch
    exact (hoffer c hbatch).trans ((g.applyWritten_sheds _ _).trans (ih (g.applyWritten_batch _ _)))

/-! ## Sound connections -/

namespace Connection

/-- The connection between two calls: no batch is out, the queued bytes are what
is queued, and the queue continues the stream its sink has accepted. -/
structure Sound (c : Connection) : Prop where
  batch : c.writevBatch = []
  billed : c.outBytes = totalBytes c.out
  intact : ∃ queued gone accepted, Intact payload (c.line queued gone accepted)

theorem Sound.new (highWater : Nat) (codel : CodelParams) :
    (Connection.new highWater codel).Sound :=
  ⟨rfl, rfl, [], [], [], ⟨[], rfl, List.Sublist.refl []⟩, Or.inl rfl⟩

variable {c : Connection}

/-- The cursor stands in the front frame. -/
theorem Sound.cursor (h : c.Sound) :
    c.outCursor = 0 ∨ ∃ front rest, c.out = front :: rest ∧ c.outCursor < front.1.length := by
  obtain ⟨queued, gone, accepted, -, hcursor⟩ := h.intact
  rcases hcursor with hzero | hlt
  · exact Or.inl hzero
  · rw [front, line, h.batch, List.nil_append] at hlt
    cases hout : c.out with
    | nil =>
      rw [hout] at hlt
      exact absurd hlt (Nat.not_lt_zero _)
    | cons f rest =>
      rw [hout] at hlt
      exact Or.inr ⟨f, rest, rfl, hlt⟩

/-- `c'` is sound, and each delta moved from `c` by what the bytes under it moved. -/
structure Keeps (c c' : Connection) : Prop where
  sound : c'.Sound
  inflight : c'.inflightDelta - (c'.outBytes + c'.reassemblyBytes : Nat) =
    c.inflightDelta - (c.outBytes + c.reassemblyBytes : Nat)
  outbound : c'.outboundDelta - c'.outBytes = c.outboundDelta - c.outBytes

/-- A connection that sheds backlog and stays intact is sound again. -/
theorem Sound.sheds {c' : Connection} (h : c.Sound) (hsheds : c.Sheds c')
    (hbatch : c'.writevBatch = [])
    (hsteps : ∀ queued gone accepted, ∃ queued' gone' accepted',
      Steps payload (c.line queued gone accepted) (c'.line queued' gone' accepted')) :
    c.Keeps c' := by
  obtain ⟨len, hlen⟩ := hsheds
  obtain ⟨queued, gone, accepted, hintact⟩ := h.intact
  obtain ⟨queued', gone', accepted', hmoved⟩ := hsteps queued gone accepted
  have hbacklog := hlen.backlog
  have hbilled := h.billed
  rw [backlog, backlog, h.batch, hbatch, List.nil_append, List.nil_append] at hbacklog
  have hout := hlen.outBytes
  have hin := hlen.inflightDelta
  have hob := hlen.outboundDelta
  have hre := hlen.reassemblyBytes
  refine ⟨⟨hbatch, by omega, queued', gone', accepted', hmoved.intact hintact⟩, ?_, ?_⟩
  · rw [hin, hre]
    omega
  · rw [hob]
    omega

theorem Sound.flush (h : c.Sound) (maxBytes now : Nat) (script : List WriteOutcome) :
    c.Keeps (flushCoalesced maxBytes now script c).conn := by
  have hsteps := fun queued gone accepted =>
    flushCoalesced_steps maxBytes now script c queued gone accepted h.batch
  refine h.sheds (flushCoalesced_sheds maxBytes now script c h.batch) (hsteps [] [] []).2 ?_
  intro queued gone accepted
  exact ⟨queued, _, _, (hsteps queued gone accepted).1⟩

/-- Drop-head sheds the evicted frames, and the new one is billed. -/
theorem Sound.queue (h : c.Sound) (frame : Bytes) (now : Nat) : c.Keeps (c.queue frame now).1 := by
  obtain ⟨queued, gone, accepted, hintact⟩ := h.intact
  obtain ⟨evicted', hsteps, hbatch, -⟩ := c.queue_steps queued gone accepted h.batch frame now
  have hbilled := h.billed
  obtain ⟨evicted, kept, hsplit, heq⟩ := c.queue_spec frame now
  rw [← c.locked_append_droppable, hsplit, totalBytes_append, totalBytes_append] at hbilled
  refine ⟨⟨hbatch, ?_, _, _, _, hsteps.intact hintact⟩, ?_, ?_⟩
  · rw [heq]
    show c.outBytes - totalBytes evicted + frame.length =
      totalBytes (c.locked ++ kept ++ [(frame, now)])
    rw [totalBytes_append, totalBytes_append, totalBytes_cons, totalBytes_nil]
    dsimp only
    omega
  · rw [heq]
    show c.inflightDelta - totalBytes evicted + frame.length -
      (c.outBytes - totalBytes evicted + frame.length + c.reassemblyBytes : Nat) = _
    omega
  · rw [heq]
    show c.outboundDelta - totalBytes evicted + frame.length -
      (c.outBytes - totalBytes evicted + frame.length : Nat) = _
    omega

theorem Sound.setReassemblyBytes (h : c.Sound) (bytes : Nat) :
    c.Keeps (c.setReassemblyBytes bytes) := by
  refine ⟨⟨h.batch, h.billed, h.intact⟩, ?_, rfl⟩
  show c.inflightDelta + (bytes - c.reassemblyBytes) - (c.outBytes + bytes : Nat) = _
  omega

end Connection

/-! ## Two meters -/

/-- The byte totals a worker keeps. -/
inductive Meter where
  | inflight
  | outbound
  deriving DecidableEq, Repr

namespace IoConnection

/-- What the connection has under a meter. -/
def held (c : IoConnection) : Meter → Nat
  | .inflight => c.accountedBytes
  | .outbound => c.outboundBytes

/-- What the worker has not been told yet. -/
def delta (c : IoConnection) : Meter → Int
  | .inflight => c.conn.inflightDelta
  | .outbound => c.conn.outboundDelta

/-- What the worker has been told. -/
def folded (c : IoConnection) (m : Meter) : Int := c.held m - c.delta m

@[simp] theorem held_takeDeltas (c : IoConnection) (m : Meter) :
    c.takeDeltas.held m = c.held m := by
  cases m <;> rfl

@[simp] theorem delta_takeDeltas (c : IoConnection) (m : Meter) : c.takeDeltas.delta m = 0 := by
  cases m <;> rfl

theorem folded_takeDeltas (c : IoConnection) (m : Meter) :
    c.takeDeltas.folded m = c.folded m + c.delta m := by
  rw [folded, folded, held_takeDeltas, delta_takeDeltas]
  omega

theorem folded_inflight (c : IoConnection) : c.folded .inflight =
    (c.conn.outBytes + c.conn.reassemblyBytes + c.frameBufferBytes + c.tls.unflushedBytes : Nat) -
      c.conn.inflightDelta := rfl

theorem folded_outbound (c : IoConnection) : c.folded .outbound =
    (c.conn.outBytes + c.tls.unflushedBytes : Nat) - c.conn.outboundDelta := rfl

/-- `c'` is sound, and of neither has the worker been told more. -/
structure Keeps (c c' : IoConnection) : Prop where
  sound : c'.conn.Sound
  folded : ∀ m, c'.folded m = c.folded m

variable {c c' c'' : IoConnection}

theorem Keeps.refl (h : c.conn.Sound) : c.Keeps c := ⟨h, fun _ => rfl⟩

theorem Keeps.trans (h : c.Keeps c') (h' : c'.Keeps c'') : c.Keeps c'' :=
  ⟨h'.sound, fun m => (h'.folded m).trans (h.folded m)⟩

theorem Keeps.of_conn {d : Connection} (h : c.conn.Keeps d) : c.Keeps { c with conn := d } := by
  have hin := h.inflight
  have hob := h.outbound
  refine ⟨h.sound, fun m => ?_⟩
  cases m <;> simp only [folded_inflight, folded_outbound] <;> omega

theorem keeps_queue (h : c.conn.Sound) (frame : Bytes) (now : Nat) : c.Keeps (c.queue frame now) :=
  Keeps.of_conn (h.queue frame now)

theorem keeps_setReassemblyBytes (h : c.conn.Sound) (bytes : Nat) :
    c.Keeps (c.setReassemblyBytes bytes) :=
  Keeps.of_conn (h.setReassemblyBytes bytes)

theorem keeps_setWritableArmed (h : c.conn.Sound) (armed : Bool) :
    c.Keeps (c.setWritableArmed armed) :=
  Keeps.of_conn ⟨⟨h.batch, h.billed, h.intact⟩, rfl, rfl⟩

theorem keeps_setWantsWrite (h : c.conn.Sound) (wantsWrite : Bool) :
    c.Keeps (c.setWantsWrite wantsWrite) := by
  rw [setWantsWrite]
  split
  · refine ⟨h, fun m => ?_⟩
    cases m <;> rfl
  · exact Keeps.refl h

theorem keeps_setFrameBufferBytes (h : c.conn.Sound) (bytes : Nat) :
    c.Keeps (c.setFrameBufferBytes bytes) := by
  refine ⟨⟨h.batch, h.billed, h.intact⟩, fun m => ?_⟩
  cases m with
  | inflight =>
    simp only [folded_inflight, setFrameBufferBytes]
    omega
  | outbound => rfl

theorem drainCiphertext_conn (c : IoConnection) (outcome : CipherWrite) :
    ∃ t, (c.drainCiphertext outcome).1 = { c with tls := t } := by
  rw [drainCiphertext]
  split
  · exact ⟨{}, rfl⟩
  · exact ⟨c.tls, rfl⟩
  · exact ⟨c.tls, rfl⟩

/-- The phases of a TLS flush flush the queue once, or not at all. -/
theorem flushTlsPhases_conn (h : c.conn.Sound) (s : Socket) (now : Nat) :
    ∃ d t, c.conn.Keeps d ∧ (c.flushTlsPhases s now).2 = { c with conn := d, tls := t } := by
  rw [flushTlsPhases]
  obtain ⟨t, ht⟩ := c.drainCiphertext_conn s.first
  generalize c.drainCiphertext s.first = r at ht
  obtain ⟨c₁, status⟩ := r
  obtain rfl : c₁ = { c with tls := t } := ht
  cases status with
  | some => exact ⟨c.conn, t, ⟨h, rfl, rfl⟩, rfl⟩
  | none =>
    dsimp only
    obtain ⟨script, -, hconn⟩ := flushCoalescedTls_script now s.calls c.conn t
    have hkeeps := h.flush tlsBatchMaxBytes now script
    rw [← hconn] at hkeeps
    generalize flushCoalescedTls now s.calls c.conn t = f at hkeeps
    split
    · exact ⟨f.conn, f.tls, hkeeps, rfl⟩
    · obtain ⟨t', ht'⟩ :=
        drainCiphertext_conn ({ c with conn := f.conn, tls := f.tls } : IoConnection) s.last
      generalize IoConnection.drainCiphertext _ s.last = r at ht'
      obtain ⟨c₂, status⟩ := r
      obtain rfl : c₂ = { c with conn := f.conn, tls := t' } := ht'
      cases status with
      | some | none => exact ⟨f.conn, t', hkeeps, rfl⟩

/-- What the session has taken off the queue and not sent stays on both meters. -/
theorem keeps_flushTls (h : c.conn.Sound) (s : Socket) (now : Nat) :
    c.Keeps (c.flushTls s now).2 := by
  obtain ⟨d, t, hkeeps, heq⟩ := flushTlsPhases_conn h s now
  rw [flushTls]
  generalize c.flushTlsPhases s now = r at heq
  obtain ⟨status, c₁⟩ := r
  obtain rfl : c₁ = { c with conn := d, tls := t } := heq
  have hin := hkeeps.inflight
  have hob := hkeeps.outbound
  have hsound := hkeeps.sound
  refine ⟨⟨hsound.batch, hsound.billed, hsound.intact⟩, fun m => ?_⟩
  cases m <;> simp only [folded_inflight, folded_outbound] <;> omega

theorem keeps_flush (h : c.conn.Sound) (s : Socket) (now : Nat) : c.Keeps (c.flush s now).2 := by
  rw [flush]
  split
  · exact keeps_flushTls h s now
  · exact Keeps.of_conn (h.flush writevMaxBytes now s.writes)

end IoConnection

end Pylon.Transport
