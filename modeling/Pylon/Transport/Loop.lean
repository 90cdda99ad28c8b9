import Mathlib.Logic.Relation
import Pylon.Transport.Timer
import Pylon.Transport.Wire

/-!
# The worker loop with its timers and what it says

`run` of `transport/worker.rs` in dispatch mode: the slab of `Worker`, the timer
wheel next to it, and two records of the run itself: when each connection was
accepted and what has been queued on it since.

* **the loop** — every function is the worker's own one together with the calls it
  makes to the wheel and the items it queues (`Loop.advance`);
* **moves** — what a step can do to one connection: its entry before and after,
  the items, the calls (`Move`). Steps are runs of moves, and invariants of the
  loop are checked against moves only.
-/

namespace Pylon.Transport

open Pylon.Lib Pylon.Redis

/-! ## The loop -/

/-- `WorkerConfig` with what the timers are set from. -/
structure LoopConfig extends WorkerConfig where
  handshakeTimeoutMs : Nat
  maxConnLifetimeSecs : Nat

/-- `acceptedMs` and `wire` are records: the accept time of the connection last
under a key, and everything queued on it. -/
structure Loop where
  worker : Worker := {}
  wheel : TimerWheel
  acceptedMs : Nat → Nat := fun _ => 0
  wire : Nat → List Item := fun _ => []

/-- A loop that starts: an empty slab and an empty wheel. -/
def Loop.start (activityTimeoutSecs pongTimeoutSecs : Nat) : Loop :=
  { wheel := .withTimeouts activityTimeoutSecs pongTimeoutSecs }

/-- `now_ms` of a time in nanoseconds, which is a `u64`. -/
def nowMs (now : Nat) : Nat := now % 2 ^ 64 / 1000000

theorem nowMs_lt (now : Nat) : nowMs now < 2 ^ 64 - 1 := by
  have hmod : now % 2 ^ 64 < 2 ^ 64 := Nat.mod_lt _ (by decide)
  have hdiv : now % 2 ^ 64 / 1000000 ≤ (2 ^ 64 - 1) / 1000000 :=
    Nat.div_le_div_right (by omega)
  unfold nowMs
  omega

namespace Loop

variable (cfg : LoopConfig)

/-- One connection's step: the worker's, the items it queued, its timer calls. -/
def advance (l : Loop) (worker : Worker) (key : Nat) (items : List Item) (calls : List TimerCall) :
    Loop :=
  { l with
    worker
    wheel := run TimerWheel.call l.wheel calls
    wire := Function.update l.wire key (l.wire key ++ items) }

def remove (l : Loop) (key : Nat) : Loop := l.advance (l.worker.remove key) key [] [.remove key]

def acceptCalls (key now : Nat) : List TimerCall :=
  if ¬ cfg.echo ∧ 0 < cfg.handshakeTimeoutMs then
    [.armHandshake key (saturatingAdd (nowMs now) cfg.handshakeTimeoutMs)]
  else []

def accept (now : Nat) (l : Loop) (key : Nat) : Loop :=
  if l.worker.conns.hexists key then l
  else
    { worker := l.worker.accept cfg.toWorkerConfig key
      wheel := run TimerWheel.call l.wheel (acceptCalls cfg key now)
      acceptedMs := Function.update l.acceptedMs key (nowMs now)
      wire := Function.update l.wire key [] }

/-- `arm_lifetime`. -/
def lifetimeCalls (key now : Nat) : List TimerCall :=
  if 0 < cfg.maxConnLifetimeSecs then
    [.armLifetime key (saturatingAdd (nowMs now) (saturatingMul cfg.maxConnLifetimeSecs 1000))]
  else []

/-- What `handle_handshake` does to the wheel: nothing, unless it established. -/
def establishCalls (key now : Nat) (e : WorkerEntry) (r : Handled) : List TimerCall :=
  if e.session = false ∧ r.entry.session = true then
    .clearHandshake key :: lifetimeCalls cfg key now
  else []

/-- A connection that goes, on whatever path, is dropped from the wheel. -/
def fateCalls (key : Nat) : Fate → List TimerCall
  | .keep => []
  | .close | .handoff _ => [.remove key]

def touchCalls (key now : Nat) : List TimerCall :=
  if cfg.echo then [] else [.touch key (nowMs now)]

def readable (l : Loop) (key : Nat) (input : Input) (now : Nat) : Loop :=
  match l.worker.conns.hget key with
  | none => l
  | some e =>
    let r := e.handleReadable cfg.toWorkerConfig l.worker.nextGen input now
    l.advance (l.worker.readable cfg.toWorkerConfig key input now) key
      (e.readableItems cfg.toWorkerConfig input now)
      (touchCalls cfg key now ++ (establishCalls cfg key now e r ++ fateCalls key r.action))

/-- The writable path has no `touch`. -/
def writable (l : Loop) (key : Nat) (input : Input) (now : Nat) : Loop :=
  match l.worker.conns.hget key with
  | none => l
  | some e =>
    let r := e.handleWritable cfg.toWorkerConfig l.worker.nextGen input now
    l.advance (l.worker.writable cfg.toWorkerConfig key input now) key
      (e.writableItems cfg.toWorkerConfig input)
      (establishCalls cfg key now e r ++ fateCalls key r.action)

/-- The readable part of an event. -/
def readableEvent (l : Loop) (key : Nat) (ready : Worker.Readiness) (now : Nat) : Loop :=
  match ready.readable with
  | some input => l.readable cfg key input now
  | none => l

/-- A stale token is skipped. -/
def handleEvent (l : Loop) (key : Nat) (ready : Worker.Readiness) (now : Nat) : Loop :=
  if ¬ l.worker.conns.hexists key then l
  else if ready.hangup then l.remove key
  else
    let l := l.readableEvent cfg key ready now
    match ready.writable with
    | some input => l.writable cfg key input now
    | none => l

/-! ## Broadcasts, mailboxes, resumed lookups -/

/-- What `Worker.deliver` queues on the subscriber's connection. -/
def deliverItems (w : Worker) (budget : Nat) (msg : BroadcastMsg) (sub : Subscriber) :
    List Item :=
  let band := shedBand w.inflightBytes.toNat budget
  if band = .saturated ∨ msg.except = some sub.sid then []
  else
    match w.openConn sub.token, msg.frameFor sub.version with
    | some e, some frame =>
      if shouldSkip band e.conn.conn.outBytes e.conn.conn.highWater then [] else [.text frame]
    | _, _ => []

def deliver (budget now : Nat) (msg : BroadcastMsg) (s : Loop × List Nat) (sub : Subscriber) :
    Loop × List Nat :=
  let r := Worker.deliver budget now msg (s.1.worker, s.2) sub
  (s.1.advance r.1 sub.token (deliverItems s.1.worker budget msg sub) [], r.2)

def flushTouched (pass : Pass) (s : Loop × List Nat) (token : Nat) : Loop × List Nat :=
  let r := Worker.flushTouched pass (s.1.worker, s.2) token
  (s.1.advance r.1 token [] [], r.2)

def drainBroadcasts (l : Loop) (budget : Nat) (msgs : List BroadcastMsg) (pass : Pass) : Loop :=
  let (l, touched) :=
    msgs.foldl (fun s msg => msg.subs.foldl (deliver budget pass.now msg) s) (l, [])
  let (l, toClose) := (pass.walk touched).foldl (flushTouched pass) (l, [])
  (pass.walk toClose).foldl remove l

def drainDirty (mail : Nat → List Mail) (pass : Pass) (l : Loop) (key : Nat) : Loop :=
  match l.worker.openConn key with
  | none => l
  | some e =>
    let r := e.drainSession (mail key) (pass.site key) pass.now
    l.advance (l.worker.drainDirty mail pass key) key (e.sessionItems (mail key))
      (fateCalls key r.action)

def drainDirtySessions (l : Loop) (dirty : List Nat) (mail : Nat → List Mail) (pass : Pass) :
    Loop :=
  (pass.walk dirty.dedup).foldl (drainDirty mail pass) l

/-- A parked entry with the outcome of its lookup. -/
def resumed (e : WorkerEntry) (outcome : Except Reject Bytes) (site : FlushSite) (now : Nat) :
    Handled :=
  let e := { e with pendingEstablish := none }
  match outcome with
  | .ok text => { e.queueText text now with session := true }.flushAndArm site now
  | .error reject => (e.queueReject reject now).flushAndClose site now

def resumedItems : Except Reject Bytes → List Item
  | .ok text => [.event text]
  | .error reject => WorkerEntry.rejectItems reject

def drainResolved (l : Loop) (token : Nat) (gen : BitVec 64) (outcome : Except Reject Bytes)
    (pass : Pass) : Loop :=
  match l.worker.conns.hget token with
  | none => l
  | some e =>
    if e.pendingEstablish ≠ some gen then l
    else
      let calls := match (resumed e outcome (pass.site token) pass.now).action with
        | .keep => .touch token (nowMs pass.now) ::
            (lifetimeCalls cfg token pass.now ++ [.clearHandshake token])
        | .close | .handoff _ => [.remove token]
      l.advance (l.worker.drainResolved token gen outcome pass) token (resumedItems outcome) calls

/-! ## Timers and shutdown -/

/-- A timed-out or aged connection. `remove` is called even for a vacant key. -/
def closeDue (l : Loop) (key code : Nat) (reason : String) (text : Option Bytes) (pass : Pass) :
    Loop :=
  match l.worker.conns.hget key with
  | none => l.remove key
  | some _ =>
    l.advance (l.worker.closeDue key code reason text pass) key
      ((text.map Item.event).toList ++ [.closing code reason]) [.remove key]

/-- An idle connection is pinged; without a session its idle timer is dropped. -/
def pingDue (l : Loop) (key : Nat) (text : Bytes) (pass : Pass) : Loop :=
  match l.worker.openConn key with
  | none => l.advance l.worker key [] [.clearLiveness key]
  | some e =>
    let r := (e.queueText text pass.now).flushAndArm (pass.site key) pass.now
    l.advance (l.worker.fireDue (.ping key text) pass) key [.event text]
      (if r.action = .close then [.remove key] else [.markPingSent key (nowMs pass.now)])

def handshakeDue (l : Loop) (key : Nat) : Loop :=
  match l.worker.conns.hget key with
  | some e =>
    if e.session then l.advance l.worker key [] [.clearHandshake key] else l.remove key
  | none => l.advance l.worker key [] [.clearHandshake key]

/-- The body of the loop over what is due; `text` has the event of each key. -/
def fire (text : Nat → Bytes) (pass : Pass) (l : Loop) (due : Timer.Due) : Loop :=
  match due with
  | .ping key => l.pingDue key (text key) pass
  | .close4201 key =>
    l.closeDue key 4201
      "Pong reply not received: ping was sent to the client, but no reply was received" none pass
  | .close4202 key => l.closeDue key 4202 "Closed after inactivity" (some (text key)) pass
  | .handshakeTimeout key => l.handshakeDue key

def timers (l : Loop) (text : Nat → Bytes) (pass : Pass) : Loop :=
  if cfg.echo then l
  else
    let (dues, wheel) := l.wheel.due (nowMs pass.now)
    dues.foldl (fire text pass) { l with wheel }

def drainCloseConnection (text : Nat → Bytes) (pass : Pass) (l : Loop) (key : Nat) : Loop :=
  match l.worker.conns.hget key with
  | none => l
  | some e =>
    let r := (e.queueText (text key) pass.now).sendCloseReply 4200
      "Server is shutting down; please reconnect" (pass.site key) pass.now
    l.advance (l.worker.drainCloseConnection text pass key) key
      [.event (text key), .closing 4200 "Server is shutting down; please reconnect"]
      (fateCalls key r.action)

/-- The one-time part of the shutdown block. -/
def startDrain (l : Loop) (text : Nat → Bytes) (pass : Pass) : Loop :=
  let l := l.worker.keys.foldl (drainCloseConnection text pass) l
  { l with worker := { l.worker with drainStarted := true } }

def stop (l : Loop) : Loop :=
  let l := l.worker.keys.foldl remove l
  { l with worker := { l.worker with stopped := true } }

def shutdown (l : Loop) (text : Nat → Bytes) (expired : Bool) (pass : Pass) : Loop :=
  let l := if l.worker.drainStarted then l else l.startDrain text pass
  if l.worker.outboundBytes = 0 ∨ expired then l.stop else l

end Loop

inductive LoopAct where
  | shutdown (text : Nat → Bytes) (expired : Bool) (pass : Pass)
  | accept (keys : List Nat) (now : Nat)
  | event (key : Nat) (ready : Worker.Readiness) (now : Nat)
  | broadcasts (budget : Nat) (msgs : List BroadcastMsg) (pass : Pass)
  | dirty (keys : List Nat) (mail : Nat → List Mail) (pass : Pass)
  | resolved (token : Nat) (gen : BitVec 64) (outcome : Except Reject Bytes) (pass : Pass)
  | timers (text : Nat → Bytes) (pass : Pass)

/-- One step of the loop. The drain deregisters the listener first. -/
def loopStep (cfg : LoopConfig) (l : Loop) (a : LoopAct) : Loop :=
  if l.worker.stopped then l
  else
    match a with
    | .shutdown text expired pass => l.shutdown text expired pass
    | .accept keys now =>
      if l.worker.drainStarted then l else keys.foldl (Loop.accept cfg now) l
    | .event key ready now => l.handleEvent cfg key ready now
    | .broadcasts budget msgs pass => l.drainBroadcasts budget msgs pass
    | .dirty keys mail pass => l.drainDirtySessions keys mail pass
    | .resolved token gen outcome pass => l.drainResolved cfg token gen outcome pass
    | .timers text pass => l.timers cfg text pass

/-- A configuration to run the loop with: any head is an upgrade. -/
def LoopConfig.sample (tls : Bool) : LoopConfig where
  echo := false
  tls
  highWater := 1024
  codel := { targetNs := 5000000, intervalNs := 100000000 }
  maxPayload := 1024
  maxMessageBytes := 1024
  restHandoff := false
  readHead := fun head => if head.isEmpty then .needMore else .wsUpgrade "key" "/app/key"
  acceptResponse := fun _ => [72, 84, 84, 80]
  headerFieldsTooLargeResponse := []
  isUtf8 := fun _ => true
  handshakeTimeoutMs := 10000
  maxConnLifetimeSecs := 0

/-! ## One entry of the slab -/

/-- The entry a handler leaves in the slab, its deltas folded; none, if it goes. -/
def Handled.left (r : Handled) : Option WorkerEntry :=
  match r.action with
  | .keep => some { r.entry with conn := r.entry.conn.takeDeltas }
  | .close | .handoff _ => none

namespace Worker

/-- Only the entry under `key` changed. -/
structure Sets (w w' : Worker) (key : Nat) (entry : Option WorkerEntry) : Prop where
  entry : w'.conns.hget key = entry
  others : ∀ k, k ≠ key → w'.conns.hget k = w.conns.hget k
  drainStarted : w'.drainStarted = w.drainStarted
  stopped : w'.stopped = w.stopped

theorem Sets.self (w : Worker) (key : Nat) : w.Sets w key (w.conns.hget key) :=
  ⟨rfl, fun _ _ => rfl, rfl, rfl⟩

variable {e : WorkerEntry} {w : Worker} {key : Nat}

theorem Sets.trans {w' w'' : Worker} {entry entry' : Option WorkerEntry} (h : w.Sets w' key entry)
    (h' : w'.Sets w'' key entry') : w.Sets w'' key entry' :=
  ⟨h'.entry, fun k hk => (h'.others k hk).trans (h.others k hk),
    h'.drainStarted.trans h.drainStarted, h'.stopped.trans h.stopped⟩

theorem sets_put (w : Worker) (key : Nat) (r : Handled) :
    w.Sets (w.put key r) key (some r.entry) :=
  ⟨Hash.hget_hset_self .., fun _ hk => Hash.hget_hset_ne _ _ hk, rfl, rfl⟩

theorem sets_foldDelta (hkey : w.conns.hget key = some e) :
    w.Sets (w.foldDelta key) key (some { e with conn := e.conn.takeDeltas }) := by
  rw [foldDelta, hkey]
  exact ⟨Hash.hget_hset_self .., fun _ hk => Hash.hget_hset_ne _ _ hk, rfl, rfl⟩

theorem sets_release (w : Worker) (key : Nat) : w.Sets (w.release key) key none := by
  unfold release
  split
  · rename_i hkey
    exact ⟨hkey, fun _ _ => rfl, rfl, rfl⟩
  · exact ⟨Hash.hget_hdel_self .., fun _ hk => Hash.hget_hdel_ne _ hk, rfl, rfl⟩

theorem sets_settle (w : Worker) (key : Nat) (r : Handled) (action : Fate) :
    w.Sets ((w.put key r).settle key action) key { r with action }.left := by
  have hput := w.sets_put key r
  have hfold := hput.trans (sets_foldDelta hput.entry)
  cases action with
  | keep => exact hfold
  | close | handoff => exact hfold.trans (sets_release _ key)

theorem sets_readable (cfg : WorkerConfig) (hkey : w.conns.hget key = some e) (input : Input)
    (now : Nat) :
    w.Sets (w.readable cfg key input now) key
      (e.handleReadable cfg w.nextGen input now).left := by
  have hput := w.sets_put key (e.handleReadable cfg w.nextGen input now)
  rw [readable, hkey, Handled.left]
  dsimp only
  cases (e.handleReadable cfg w.nextGen input now).action with
  | keep => exact hput.trans (sets_foldDelta hput.entry)
  | close | handoff => exact hput.trans (sets_release _ key)

theorem sets_writable (cfg : WorkerConfig) (hkey : w.conns.hget key = some e) (input : Input)
    (now : Nat) :
    w.Sets (w.writable cfg key input now) key
      (e.handleWritable cfg w.nextGen input now).left := by
  rw [writable, hkey]
  exact w.sets_settle key _ _

theorem sets_closeDue (hkey : w.conns.hget key = some e) (code : Nat) (reason : String)
    (text : Option Bytes) (pass : Pass) :
    w.Sets (w.closeDue key code reason text pass) key none := by
  rw [closeDue, hkey]
  exact w.sets_settle key _ .close

end Worker

/-! ## The worker under it -/

namespace Loop

variable (cfg : LoopConfig) (l : Loop) (key : Nat)

theorem worker_closeDue (code : Nat) (reason : String) (text : Option Bytes) (pass : Pass) :
    (l.closeDue key code reason text pass).worker =
      l.worker.closeDue key code reason text pass := by
  unfold closeDue
  cases hkey : l.worker.conns.hget key with
  | none =>
    show l.worker.release key = _
    rw [Worker.release, Worker.closeDue, hkey]
  | some => rfl

end Loop

/-- The due timer with the text of its event. -/
def Due.ofTimer (text : Nat → Bytes) : Timer.Due → Due
  | .ping key => .ping key (text key)
  | .close4201 key => .close4201 key
  | .close4202 key => .close4202 key (text key)
  | .handshakeTimeout key => .handshakeTimeout key

namespace Loop

theorem worker_pingDue (l : Loop) (key : Nat) (text : Bytes) (pass : Pass) :
    (l.pingDue key text pass).worker = l.worker.fireDue (.ping key text) pass := by
  unfold pingDue
  cases hopen : l.worker.openConn key with
  | none =>
    show l.worker = _
    rw [Worker.fireDue, hopen]
  | some => rfl

theorem worker_handshakeDue (l : Loop) (key : Nat) (pass : Pass) :
    (l.handshakeDue key).worker = l.worker.fireDue (.handshakeTimeout key) pass := by
  unfold handshakeDue
  rw [Worker.fireDue]
  cases l.worker.conns.hget key with
  | none => rfl
  | some =>
    dsimp only
    split <;> rfl

theorem worker_fire (text : Nat → Bytes) (pass : Pass) (l : Loop) (due : Timer.Due) :
    (fire text pass l due).worker = l.worker.fireDue (.ofTimer text due) pass := by
  cases due with
  | ping => exact worker_pingDue ..
  | close4201 | close4202 => exact worker_closeDue ..
  | handshakeTimeout => exact worker_handshakeDue ..

end Loop

section

variable {e e' : WorkerEntry} {items : List Item} {r : Handled}

theorem Loop.sends_left (h : e.Sends e' items) :
    e.Sends { e' with conn := e'.conn.takeDeltas } items :=
  h.silent (WorkerEntry.sends_takeDeltas e')

theorem Loop.sends_of_left (h : e.Sends r.entry items) (he' : e' ∈ r.left) : e.Sends e' items := by
  unfold Handled.left at he'
  split at he'
  · cases he'
    exact sends_left h
  · cases he'
  · cases he'

theorem Loop.sets_ping {w : Worker} {key : Nat} (hopen : w.openConn key = some e) (text : Bytes)
    (pass : Pass) :
    w.Sets (w.fireDue (.ping key text) pass) key
      ((e.queueText text pass.now).flushAndArm (pass.site key) pass.now).left := by
  rw [Worker.fireDue, hopen]
  exact w.sets_settle key _ _

end

/-- One entry changed, and its session, if it is still there, did not. -/
def Worker.Spares (w w' : Worker) : Prop :=
  ∃ key entry, w.Sets w' key entry ∧
    ∀ e' ∈ entry, ∃ e, w.conns.hget key = some e ∧ e'.session = e.session

/-- A deadline touches one entry, and makes no session of it. -/
theorem Worker.spares_fireDue (w : Worker) (due : Due) (pass : Pass) :
    w.Spares (w.fireDue due pass) := by
  have hsame : w.Spares w := ⟨0, _, .self w 0, fun e' he' => ⟨e', he', rfl⟩⟩
  have hclose (key code : Nat) (reason : String) (text : Option Bytes) :
      w.Spares (w.closeDue key code reason text pass) := by
    cases hkey : w.conns.hget key with
    | none =>
      rw [closeDue, hkey]
      exact hsame
    | some => exact ⟨key, none, sets_closeDue hkey .., by rintro _ ⟨⟩⟩
  cases due with
  | ping key text =>
    cases hopen : w.openConn key with
    | none =>
      rw [fireDue, hopen]
      exact hsame
    | some e =>
      obtain ⟨hkey, -, -⟩ := session_of_openConn hopen
      have hsends := (WorkerEntry.converses_talk e (.event text) rfl (pass.site key) pass.now).sends
      exact ⟨key, _, Loop.sets_ping hopen text pass, fun e' he' =>
        ⟨e, hkey, (Loop.sends_of_left hsends he').session⟩⟩
  | close4201 | close4202 => exact hclose ..
  | handshakeTimeout key =>
    rw [fireDue]
    split
    · split
      · exact hsame
      · exact ⟨key, none, w.sets_release key, by rintro _ ⟨⟩⟩
    · exact hsame

theorem Worker.stopped_fireDue (w : Worker) (due : Due) (pass : Pass) :
    (w.fireDue due pass).stopped = w.stopped := by
  obtain ⟨_, _, hsets, -⟩ := w.spares_fireDue due pass
  exact hsets.stopped

end Pylon.Transport
