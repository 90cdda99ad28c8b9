import Mathlib.Data.BitVec
import Mathlib.Data.Finset.Sort
import Pylon.Transport.Billing
import Pylon.Transport.Read
import Pylon.Transport.Session

/-!
# The worker loop

`run` of `transport/worker.rs` with everything it calls on the way to a socket: the
handshake, the frames of an open connection, the mailbox, broadcasts, resumed
lookups, timers and the shutdown drain.

* **entries** — a slab entry keeps its connection, its read remainder and its
  protocol phase; of a session only that there is one. What the protocol decides
  (the texts it sends, whether a lookup succeeds) comes with the event;
* **the worker** — the slab and the two byte totals, which follow the connections
  through folded deltas only;
* **steps** — one readiness event, or one of the drains that close an iteration.
  The states at the loop top are among those between two steps.

The order in which a `HashSet` is walked comes with the step as well.
-/

namespace Pylon.Transport

open Pylon.Lib Pylon.Redis

/-! ## Configuration -/

/-- What a request head is. -/
inductive HeadResult where
  | wsUpgrade (key path : String)
  | rest (consumed : Nat)
  | needMore
  | tooManyHeaders
  | bad (reason : String)
  deriving DecidableEq, Repr

/-- `WorkerConfig` with the byte-level functions of the handshake and the codec. -/
structure WorkerConfig where
  echo : Bool
  tls : Bool
  highWater : Nat
  codel : CodelParams
  maxPayload : Nat
  maxMessageBytes : Nat
  restHandoff : Bool
  readHead : Bytes → HeadResult
  acceptResponse : String → Bytes
  headerFieldsTooLargeResponse : Bytes
  isUtf8 : Bytes → Bool

/-! ## Slab entries -/

inductive ConnState where
  | handshaking
  | opened
  deriving DecidableEq, Repr

/-- A slab entry. `pendingEstablish` is the generation of a parked lookup. -/
structure WorkerEntry where
  conn : IoConnection
  state : ConnState := .handshaking
  inbuf : Bytes := []
  session : Bool := false
  fragment : Option Fragment := none
  pendingEstablish : Option (BitVec 64) := none
  deriving DecidableEq

/-- `Action`: what is to become of the connection. -/
inductive Fate where
  | keep
  | close
  | handoff (head : Bytes)
  deriving DecidableEq, Repr

/-- The entry a handler leaves, its action, and whether it parked. -/
structure Handled where
  entry : WorkerEntry
  action : Fate
  parked : Bool := false

def Handled.keep (e : WorkerEntry) : Handled := { entry := e, action := .keep }

def Handled.close (e : WorkerEntry) : Handled := { entry := e, action := .close }

/-- What one flush meets, and whether the poll then re-registers the socket. -/
structure FlushSite where
  socket : Socket := {}
  reregisters : Bool := true

/-- A pre-session rejection: the encoded error event, its code and message. -/
structure Reject where
  text : Bytes
  code : Nat
  message : String

/-- What a mailbox holds. -/
inductive Mail where
  | event (text : Bytes)
  | close (code : Nat) (reason : String)

namespace WorkerEntry

/-! ## Frames out -/

def queue (e : WorkerEntry) (frame : Bytes) (now : Nat) : WorkerEntry :=
  { e with conn := e.conn.queue frame now }

def queueText (e : WorkerEntry) (text : Bytes) (now : Nat) : WorkerEntry :=
  e.queue (encodeText text) now

def queueCloseFrame (e : WorkerEntry) (code : Nat) (reason : String) (now : Nat) : WorkerEntry :=
  e.queue (encode true .close (toBeBytes 2 code ++ reason.toUTF8.toList)) now

def queueReject (e : WorkerEntry) (reject : Reject) (now : Nat) : WorkerEntry :=
  (e.queueText reject.text now).queueCloseFrame reject.code reject.message now

/-- Re-register the socket and mirror its writable interest. -/
def rearm (e : WorkerEntry) (reregisters writable : Bool) : Handled :=
  if reregisters then .keep { e with conn := e.conn.setWritableArmed writable }
  else .close e

def flushAndArm (e : WorkerEntry) (site : FlushSite) (now : Nat) : Handled :=
  let r := e.conn.flush site.socket now
  let e := { e with conn := r.2 }
  match r.1 with
  | .drained => e.rearm site.reregisters false
  | .wouldBlock => e.rearm site.reregisters true
  | .closed => .close e

/-- Flush for the sake of the peer; the connection is torn down anyway. -/
def flushAndClose (e : WorkerEntry) (site : FlushSite) (now : Nat) : Handled :=
  .close (e.flushAndArm site now).entry

def sendCloseReply (e : WorkerEntry) (code : Nat) (reason : String) (site : FlushSite) (now : Nat) :
    Handled :=
  (e.queueCloseFrame code reason now).flushAndArm site now

/-! ## Frames in -/

/-- Install the fragmentation state and bill what it holds. -/
def setFragment (e : WorkerEntry) (fragment : Option Fragment) : WorkerEntry :=
  let held := match fragment with
    | some (.text buf) => buf.length
    | _ => 0
  { e with conn := e.conn.setReassemblyBytes held, fragment }

theorem setFragment_setFragment (e : WorkerEntry) (fragment fragment' : Option Fragment) :
    (e.setFragment fragment).setFragment fragment' = e.setFragment fragment' := by
  simp only [setFragment, IoConnection.setReassemblyBytes, Connection.setReassemblyBytes,
    WorkerEntry.mk.injEq, IoConnection.mk.injEq, Connection.mk.injEq, and_true, true_and]
  omega

/-- Fail the connection with a Close frame. -/
def fail (e : WorkerEntry) (code : Nat) (reason : String) (site : FlushSite) (now : Nat) :
    Handled :=
  ((e.setFragment none).queueCloseFrame code reason now).flushAndClose site now

def closeFragmentViolation (e : WorkerEntry) (reason : String) (site : FlushSite) (now : Nat) :
    Handled :=
  e.fail 1002 reason site now

def closeInvalidUtf8 (e : WorkerEntry) (site : FlushSite) (now : Nat) : Handled :=
  e.fail 1007 "invalid UTF-8 in a text message" site now

def closeFrameFlood (e : WorkerEntry) (site : FlushSite) (now : Nat) : Handled :=
  e.fail 4100 "Inbound frame rate limit exceeded" site now

def closeHandshakeReply (e : WorkerEntry) (payload : Bytes) (site : FlushSite) (now : Nat) :
    Handled :=
  (e.queueCloseFrame (Entry.echoCloseCode payload) "" now).flushAndClose site now

variable (cfg : WorkerConfig)

/-- A whole text message. The command itself acts on the session only. -/
def dispatchTextMessage (e : WorkerEntry) (payload : Bytes) (site : FlushSite) (now : Nat) :
    Handled :=
  if ¬ cfg.isUtf8 payload then e.closeInvalidUtf8 site now
  else if e.session then .keep e
  else .close e

/-- The body of the loop of `dispatch_frames`. -/
def dispatchFrame (e : WorkerEntry) (f : Frame) (site : FlushSite) (now : Nat) : Handled :=
  match f.opcode with
  | .text =>
    if e.fragment.isSome then
      e.closeFragmentViolation "data frame interleaved with a fragmented message" site now
    else if ¬ f.fin then
      .keep (e.setFragment (some (Turn.openTextFragment cfg.maxMessageBytes f.payload)))
    else e.dispatchTextMessage cfg f.payload site now
  | .binary =>
    match e.fragment with
    | some (.text _) | some .oversize =>
      e.closeFragmentViolation "data frame interleaved with a fragmented message" site now
    | some .binary => .keep e
    | none =>
      if f.fin then .keep e else .keep (e.setFragment (some .binary))
  | .continuation =>
    -- `take_fragment`: nothing is open unless it is put back
    let e' := e.setFragment none
    match e.fragment with
    | none =>
      e'.closeFragmentViolation "continuation frame without a fragmented message" site now
    | some (.text buf) =>
      if cfg.maxMessageBytes < buf.length + f.payload.length then
        if f.fin then .keep e' else .keep (e'.setFragment (some .oversize))
      else if f.fin then e'.dispatchTextMessage cfg (buf ++ f.payload) site now
      else .keep (e'.setFragment (some (.text (buf ++ f.payload))))
    | some ignored =>
      if f.fin then .keep e' else .keep (e'.setFragment (some ignored))
  | .ping => (e.queue (encode true .pong f.payload) now).flushAndArm site now
  | .pong => .keep e
  | .close => e.closeHandshakeReply f.payload site now

/-- The loop of `dispatch_frames`; each frame has a flush of its own. -/
def dispatchLoop (now : Nat) : List Frame → List FlushSite → WorkerEntry → Handled
  | [], _, e => .keep e
  | f :: rest, sites, e =>
    let r := e.dispatchFrame cfg f (sites.headD {}) now
    if r.action = .keep then dispatchLoop now rest sites.tail r.entry else r

/-- Queue what the mailbox holds, up to a Close; whether there was one. -/
def queueMail (now : Nat) : List Mail → WorkerEntry → WorkerEntry × Bool
  | [], e => (e, false)
  | .close code reason :: _, e => (e.queueCloseFrame code reason now, true)
  | .event text :: rest, e => queueMail now rest (e.queueText text now)

def drainSession (e : WorkerEntry) (mail : List Mail) (site : FlushSite) (now : Nat) : Handled :=
  if ¬ e.session ∨ mail = [] then .keep e
  else
    let (e, closeAfter) := e.queueMail now mail
    let r := e.flushAndArm site now
    if r.action = .close ∨ closeAfter then .close r.entry else .keep r.entry

/-- `echo_frames`; the flag is whether something was queued so far. -/
def echoFrames (site : FlushSite) (now : Nat) : List Frame → Bool → WorkerEntry → Handled
  | [], wrote, e => if wrote then e.flushAndArm site now else .keep e
  | f :: rest, wrote, e =>
    match f.opcode with
    | .text | .binary | .continuation =>
      echoFrames site now rest true (e.queue (encode f.fin f.opcode f.payload) now)
    | .ping => echoFrames site now rest true (e.queue (encode true .pong f.payload) now)
    | .pong => echoFrames site now rest wrote e
    | .close => .close e

end WorkerEntry

/-! ## Reading -/

/-- What the I/O of a connection does at one readiness event: the bytes it delivers
(plaintext of a TLS session), how the reads end, and each `write_tls` call that follows
while the session wants to write. -/
structure Incoming where
  bytes : Bytes := []
  ending : Ending := .blocked
  writes : List FlightWrite := []

/-- What a read yields: bytes, how it ended, and whether the session has ciphertext
left to write. -/
structure Received where
  bytes : Bytes := []
  ending : Ending := .blocked
  wantsWrite : Bool := false

/-- The calls of `write_tls` after the reads. A session that had ciphertext before makes
one at least, and a call without an answer blocks. -/
def Incoming.flight (i : Incoming) (c : IoConnection) : List FlightWrite :=
  if c.tls.wantsWrite ∧ i.writes = [] then [.wouldBlock] else i.writes

/-- The reads of `read_frames` and `drain_head_bytes`, and on a TLS session the
`write_tls` loop behind them: no plaintext is taken if it fails. -/
def Incoming.received (i : Incoming) (c : IoConnection) : Received :=
  if c.secure ∧ i.ending ≠ .failed then
    match writeFlight (i.flight c) with
    | none => { ending := .failed, wantsWrite := true }
    | some blocked => { bytes := i.bytes, ending := i.ending, wantsWrite := blocked }
  else { bytes := i.bytes, ending := i.ending, wantsWrite := c.tls.wantsWrite }

/-- `read_frames` on either backend. -/
def readFrames (r : Received) (maxPayload : Nat) (scratch : Bytes) :
    Except ConnError (List Frame) × Bytes :=
  match r.ending with
  | .failed => (.error .closed, scratch ++ r.bytes)
  | .eof => finishRead maxPayload true (scratch ++ r.bytes)
  | .blocked => finishRead maxPayload false (scratch ++ r.bytes)

/-- What the protocol makes of an upgraded connection. -/
inductive Upgrade where
  | establish (text : Bytes)
  | reject (reject : Reject)
  | park

/-- Everything a readiness event brings. `sites` are the flushes of the frames read,
`site` is the last flush of the handler. -/
structure Input where
  incoming : Incoming := {}
  upgrade : Upgrade := .park
  flooded : Bool := false
  mail : List Mail := []
  sites : List FlushSite := []
  site : FlushSite := {}

def Input.received (input : Input) (c : IoConnection) : Received := input.incoming.received c

namespace WorkerEntry

variable (cfg : WorkerConfig)

/-- Poll interest of a connection that has not finished its handshake. -/
def armHandshakeInterest (e : WorkerEntry) (site : FlushSite) (now : Nat) : Handled :=
  if e.conn.hasPendingWrites then e.flushAndArm site now
  else if e.conn.conn.writableArmed then e.rearm site.reregisters false
  else .keep e

/-- Mode `Dispatch` after the 101 is queued. -/
def establish (e : WorkerEntry) (upgrade : Upgrade) (gen : BitVec 64) (site : FlushSite)
    (now : Nat) : Handled :=
  match upgrade with
  | .establish text => { e.queueText text now with session := true }.flushAndArm site now
  | .reject reject => (e.queueReject reject now).flushAndClose site now
  | .park =>
    { { e with pendingEstablish := some gen }.flushAndArm site now with parked := true }

/-- A connection with what a readiness event delivered before the upgrade. -/
def drainHeadBytes (e : WorkerEntry) (input : Input) : Ending × WorkerEntry :=
  let read := input.received e.conn
  (read.ending, { e with
    conn := e.conn.setWantsWrite read.wantsWrite
    inbuf := e.inbuf ++ read.bytes })

def handleHandshake (e : WorkerEntry) (gen : BitVec 64) (input : Input) (now : Nat) : Handled :=
  match e.drainHeadBytes input with
  -- an end and an error are reported alike
  | (.eof, e) | (.failed, e) => .close e
  | (.blocked, e) =>
    match cfg.readHead e.inbuf with
    | .needMore => e.armHandshakeInterest input.site now
    | .wsUpgrade key _ =>
      let e := { e.queue (cfg.acceptResponse key) now with inbuf := [], state := .opened }
      if cfg.echo then e.flushAndArm input.site now
      else e.establish input.upgrade gen input.site now
    | .rest _ => if cfg.restHandoff then { entry := e, action := .handoff e.inbuf } else .close e
    | .tooManyHeaders =>
      (e.queue cfg.headerFieldsTooLargeResponse now).flushAndClose input.site now
    | .bad _ => .close e

def dispatchFrames (e : WorkerEntry) (frames : List Frame) (input : Input) (now : Nat) : Handled :=
  let r := dispatchLoop cfg now frames input.sites e
  if r.action = .keep then r.entry.drainSession input.mail input.site now else r

/-- An open connection with what a readiness event delivered, and the frames in it. -/
def readInto (e : WorkerEntry) (input : Input) : Except ConnError (List Frame) × WorkerEntry :=
  let read := input.received e.conn
  let (result, inbuf) := readFrames read cfg.maxPayload e.inbuf
  (result, { e with
    conn := (e.conn.setWantsWrite read.wantsWrite).setFrameBufferBytes inbuf.length
    inbuf })

def handleFrames (e : WorkerEntry) (input : Input) (now : Nat) : Handled :=
  match e.readInto cfg input with
  | (.error _, e) => .close e
  | (.ok frames, e) =>
    if frames ≠ [] ∧ input.flooded then e.closeFrameFlood input.site now
    else if cfg.echo then echoFrames input.site now frames false e
    else e.dispatchFrames cfg frames input now

def handleReadable (e : WorkerEntry) (gen : BitVec 64) (input : Input) (now : Nat) : Handled :=
  match e.state with
  | .handshaking => e.handleHandshake cfg gen input now
  | .opened => e.handleFrames cfg input now

def handleWritable (e : WorkerEntry) (gen : BitVec 64) (input : Input) (now : Nat) : Handled :=
  match e.state with
  | .handshaking => e.handleHandshake cfg gen input now
  | .opened => e.flushAndArm input.site now

end WorkerEntry

/-! ## The worker -/

structure Worker where
  conns : Hash Nat WorkerEntry := ∅
  inflightBytes : BitVec 64 := 0
  outboundBytes : BitVec 64 := 0
  nextGen : BitVec 64 := 0
  drainStarted : Bool := false
  stopped : Bool := false

namespace Worker

/-- Store what a handler left, and count a park. -/
def put (w : Worker) (key : Nat) (r : Handled) : Worker :=
  { w with
    conns := w.conns.hset key r.entry
    nextGen := if r.parked then w.nextGen + 1 else w.nextGen }

/-- `wrapping_add` of both deltas; they are taken from the connection. -/
def foldDelta (w : Worker) (key : Nat) : Worker :=
  match w.conns.hget key with
  | none => w
  | some e =>
    { w with
      conns := w.conns.hset key { e with conn := e.conn.takeDeltas }
      inflightBytes := w.inflightBytes + .ofInt 64 e.conn.conn.inflightDelta
      outboundBytes := w.outboundBytes + .ofInt 64 e.conn.conn.outboundDelta }

/-- Take an entry out of the slab and out of both totals. -/
def release (w : Worker) (key : Nat) : Worker :=
  match w.conns.hget key with
  | none => w
  | some e =>
    { w with
      conns := w.conns.hdel key
      inflightBytes :=
        w.inflightBytes + .ofInt 64 e.conn.conn.inflightDelta - .ofNat 64 e.conn.accountedBytes
      outboundBytes :=
        w.outboundBytes + .ofInt 64 e.conn.conn.outboundDelta - .ofNat 64 e.conn.outboundBytes }

def remove (w : Worker) (key : Nat) : Worker := w.release key

def handoffRest (w : Worker) (key : Nat) : Worker := w.release key

/-- Fold after a handler, and tear the connection down if it asked for that. -/
def settle (w : Worker) (key : Nat) (action : Fate) : Worker :=
  let w := w.foldDelta key
  match action with
  | .keep => w
  | .close => w.remove key
  | .handoff _ => w.handoffRest key

/-- Slab keys, in the order `conns.iter()` has them. -/
def keys (w : Worker) : List Nat := w.conns.hkeys.sort

/-! ## Readiness -/

variable (cfg : WorkerConfig)

/-- An accepted socket under a vacant key. -/
def accept (w : Worker) (key : Nat) : Worker :=
  if w.conns.hexists key then w
  else
    { w with conns := w.conns.hset key { conn := .new cfg.tls cfg.highWater cfg.codel } }

/-- A connection that goes is not folded first: `remove` takes its deltas itself. -/
def readable (w : Worker) (key : Nat) (input : Input) (now : Nat) : Worker :=
  match w.conns.hget key with
  | none => w
  | some e =>
    let r := e.handleReadable cfg w.nextGen input now
    let w := w.put key r
    match r.action with
    | .keep => w.foldDelta key
    | .close => w.remove key
    | .handoff _ => w.handoffRest key

def writable (w : Worker) (key : Nat) (input : Input) (now : Nat) : Worker :=
  match w.conns.hget key with
  | none => w
  | some e =>
    let r := e.handleWritable cfg w.nextGen input now
    (w.put key r).settle key r.action

/-- An event of the poll on one connection. A hangup or an error comes first. -/
structure Readiness where
  hangup : Bool := false
  readable : Option Input := none
  writable : Option Input := none

def handleEvent (w : Worker) (key : Nat) (ready : Readiness) (now : Nat) : Worker :=
  if ready.hangup then w.remove key
  else
    let w := match ready.readable with
      | some input => w.readable cfg key input now
      | none => w
    match ready.writable with
    | some input => w.writable cfg key input now
    | none => w

end Worker

/-! ## Broadcasts -/

/-- How full the worker's byte budget is. -/
inductive ShedBand where
  | normal
  | pressure
  | severe
  | saturated
  deriving DecidableEq, Repr

def shedBand (inflight budget : Nat) : ShedBand :=
  if budget = 0 then .normal
  else
    let scaled := saturatingMul inflight 100
    if scaled < saturatingMul budget 80 then .normal
    else if scaled < saturatingMul budget 95 then .pressure
    else if scaled < saturatingMul budget 100 then .severe
    else .saturated

theorem shedBand_saturated {inflight budget : Nat} (hbudget : budget ≠ 0)
    (hover : budget ≤ inflight) : shedBand inflight budget = .saturated := by
  unfold shedBand saturatingMul
  rw [if_neg hbudget]
  rw [if_neg (by omega), if_neg (by omega), if_neg (by omega)]

/-- Whether a frame is skipped for a subscriber as backed up as this. -/
def shouldSkip (band : ShedBand) (outBytes highWater : Nat) : Bool :=
  match band with
  | .normal => false
  | .pressure => decide (highWater < outBytes * 2)
  | .severe => decide (highWater < outBytes * 16)
  | .saturated => true

/-- What the delivery index says of one subscriber. -/
structure Subscriber where
  sid : Text
  token : Nat
  version : Nat

/-- A broadcast with the local subscribers of its channel, one frame per active
protocol version. -/
structure BroadcastMsg where
  frames : List (Nat × Bytes)
  except : Option Text
  subs : List Subscriber

/-- The frame for a version; an unknown version gets the first one. -/
def BroadcastMsg.frameFor (msg : BroadcastMsg) (version : Nat) : Option Bytes :=
  ((msg.frames.find? (·.1 = version)).or msg.frames.head?).map (·.2)

/-- What one pass over connections meets: the flush of each of them, and the order
in which a `HashSet` of tokens is walked. -/
structure Pass where
  now : Nat
  site : Nat → FlushSite := fun _ => {}
  walk : List Nat → List Nat := id

/-- A timer that is due, with the text of the event it sends. -/
inductive Due where
  | ping (key : Nat) (text : Bytes)
  | close4201 (key : Nat)
  | close4202 (key : Nat) (text : Bytes)
  | handshakeTimeout (key : Nat)

namespace Worker

/-- The open dispatch connection at `token`. -/
def openConn (w : Worker) (token : Nat) : Option WorkerEntry :=
  (w.conns.hget token).filter fun e => e.session && decide (e.state = .opened)

theorem session_of_openConn {w : Worker} {token : Nat} {e : WorkerEntry}
    (h : w.openConn token = some e) :
    w.conns.hget token = some e ∧ e.session = true ∧ e.state = .opened := by
  obtain ⟨hkey, hfilter⟩ := Option.filter_eq_some_iff.mp h
  rw [Bool.and_eq_true, decide_eq_true_eq] at hfilter
  exact ⟨hkey, hfilter.1, hfilter.2⟩

/-- The body of the subscriber loop, with the tokens queued onto so far. The
deltas are folded at once, so the band follows what is queued. -/
def deliver (budget now : Nat) (msg : BroadcastMsg) (s : Worker × List Nat) (sub : Subscriber) :
    Worker × List Nat :=
  let band := shedBand s.1.inflightBytes.toNat budget
  if band = .saturated ∨ msg.except = some sub.sid then s
  else
    match s.1.openConn sub.token, msg.frameFor sub.version with
    | some e, some frame =>
      if shouldSkip band e.conn.conn.outBytes e.conn.conn.highWater then s
      else
        ((s.1.put sub.token (.keep (e.queue frame now))).foldDelta sub.token,
          s.2.insert sub.token)
    | _, _ => s

def drainBroadcastInbox (w : Worker) (budget now : Nat) (msgs : List BroadcastMsg) :
    Worker × List Nat :=
  msgs.foldl (fun s msg => msg.subs.foldl (deliver budget now msg) s) (w, [])

/-- Flush one connection queued onto; one whose flush fails is closed later. -/
def flushTouched (pass : Pass) (s : Worker × List Nat) (token : Nat) : Worker × List Nat :=
  match s.1.conns.hget token with
  | none => s
  | some e =>
    let r := e.flushAndArm (pass.site token) pass.now
    ((s.1.put token r).foldDelta token, if r.action = .close then s.2.insert token else s.2)

def drainBroadcasts (w : Worker) (budget : Nat) (msgs : List BroadcastMsg) (pass : Pass) : Worker :=
  let (w, touched) := w.drainBroadcastInbox budget pass.now msgs
  let (w, toClose) := (pass.walk touched).foldl (flushTouched pass) (w, [])
  (pass.walk toClose).foldl remove w

/-! ## Mailboxes, resumed lookups, timers, shutdown -/

/-- One token of the dirty set. -/
def drainDirty (mail : Nat → List Mail) (pass : Pass) (w : Worker) (key : Nat) : Worker :=
  match w.openConn key with
  | none => w
  | some e =>
    let r := e.drainSession (mail key) (pass.site key) pass.now
    (w.put key r).settle key r.action

def drainDirtySessions (w : Worker) (dirty : List Nat) (mail : Nat → List Mail) (pass : Pass) :
    Worker :=
  (pass.walk dirty.dedup).foldl (drainDirty mail pass) w

/-- A finished lookup: `Except.ok` is a session with its first event. -/
def drainResolved (w : Worker) (token : Nat) (gen : BitVec 64) (outcome : Except Reject Bytes)
    (pass : Pass) : Worker :=
  match w.conns.hget token with
  | none => w
  | some e =>
    if e.pendingEstablish ≠ some gen then w
    else
      let e := { e with pendingEstablish := none }
      let r := match outcome with
        | .ok text =>
          { e.queueText text pass.now with session := true }.flushAndArm (pass.site token) pass.now
        | .error reject => (e.queueReject reject pass.now).flushAndClose (pass.site token) pass.now
      (w.put token r).settle token r.action

/-- A timed-out or aged connection: frames, a Close, and the end. -/
def closeDue (w : Worker) (key code : Nat) (reason : String) (text : Option Bytes) (pass : Pass) :
    Worker :=
  match w.conns.hget key with
  | none => w
  | some e =>
    let e := text.elim e fun text => e.queueText text pass.now
    let r := e.sendCloseReply code reason (pass.site key) pass.now
    (w.put key r).settle key .close

def fireDue (w : Worker) (due : Due) (pass : Pass) : Worker :=
  match due with
  | .ping key text =>
    match w.openConn key with
    | none => w
    | some e =>
      let r := (e.queueText text pass.now).flushAndArm (pass.site key) pass.now
      (w.put key r).settle key r.action
  | .close4201 key =>
    w.closeDue key 4201
      "Pong reply not received: ping was sent to the client, but no reply was received" none pass
  | .close4202 key text => w.closeDue key 4202 "Closed after inactivity" (some text) pass
  | .handshakeTimeout key =>
    match w.conns.hget key with
    | some e => if e.session then w else w.remove key
    | none => w

/-- Say goodbye to one connection: the error event, a Close, and what the flush
of the two decides. -/
def drainCloseConnection (text : Nat → Bytes) (pass : Pass) (w : Worker) (key : Nat) : Worker :=
  match w.conns.hget key with
  | none => w
  | some e =>
    let r := (e.queueText (text key) pass.now).sendCloseReply 4200
      "Server is shutting down; please reconnect" (pass.site key) pass.now
    (w.put key r).settle key r.action

/-- The shutdown block of an iteration: the drain starts once, and the worker stops
when nothing is owed or the grace time is over. -/
def shutdown (w : Worker) (text : Nat → Bytes) (expired : Bool) (pass : Pass) : Worker :=
  let w := if w.drainStarted then w
    else { w.keys.foldl (drainCloseConnection text pass) w with drainStarted := true }
  if w.outboundBytes = 0 ∨ expired then { w.keys.foldl remove w with stopped := true } else w

end Worker

/-! ## Steps -/

inductive WorkerAct where
  | shutdown (text : Nat → Bytes) (expired : Bool) (pass : Pass)
  | accept (keys : List Nat)
  | event (key : Nat) (ready : Worker.Readiness) (now : Nat)
  | broadcasts (budget : Nat) (msgs : List BroadcastMsg) (pass : Pass)
  | dirty (keys : List Nat) (mail : Nat → List Mail) (pass : Pass)
  | resolved (token : Nat) (gen : BitVec 64) (outcome : Except Reject Bytes) (pass : Pass)
  | due (due : Due) (pass : Pass)

def workerStep (cfg : WorkerConfig) (w : Worker) (a : WorkerAct) : Worker :=
  if w.stopped then w
  else
    match a with
    | .shutdown text expired pass => w.shutdown text expired pass
    | .accept keys => keys.foldl (Worker.accept cfg) w
    | .event key ready now => w.handleEvent cfg key ready now
    | .broadcasts budget msgs pass => w.drainBroadcasts budget msgs pass
    | .dirty keys mail pass => w.drainDirtySessions keys mail pass
    | .resolved token gen outcome pass => w.drainResolved token gen outcome pass
    | .due due pass => w.fireDue due pass

end Pylon.Transport
