import Pylon.Lib.Trace
import Pylon.Transport.Conn
import Pylon.Ws.Dispatch

/-!
# Open sessions on their workers

The dispatch half of `transport/worker.rs`: what a worker does with the frames of
an open connection (`dispatch_frames`), with its mailbox (`drain_session`), with
its own delivery index (`reconcile_membership`) and at a connection's end
(`remove`).

A step is one frame, one drain, an establish, a close or an event another thread
sends. What other threads do falls between the frames of a batch, so a batch is not
one step but a run of them (`batch`).

Socket ids are never reused: `used` holds every id that was ever given out.
-/

namespace Pylon.Transport

open Pylon.Channel Pylon.Lib Pylon.Protocol Pylon.Redis Pylon.Ws

/-- The fragmented message in progress. -/
inductive Fragment where
  | text (buf : Bytes)
  | binary
  | oversize
  deriving DecidableEq, Repr

inductive Action where
  | keep
  | close
  deriving DecidableEq, Repr

/-- What the socket does at one flush, and whether the poll then re-registers it. -/
structure Sink where
  script : List WriteOutcome := []
  reregisters : Bool := true

/-- The world one call finds. -/
structure Moment (Value : Type) where
  now : Nat := 0
  sink : Sink := {}
  inputs : Inputs Value := {}

/-- A worker's slab entry with the session it holds; `worker` is the worker. -/
structure Entry (Value : Type) where
  worker : Nat
  token : Nat
  version : Nat
  conn : Connection
  fragment : Option Fragment := none
  ctx : ConnectionContext Value
  subs : Finset String := ∅

/-! ## The delivery index -/

/-- Subscribers of each channel, each with its slab token and protocol version. -/
abbrev LocalSubs := Hash Key (Hash Text (Nat × Nat))

namespace LocalSubs

def slot (ix : LocalSubs) (key : Key) (sid : Text) : Option (Nat × Nat) :=
  (ix.hget key).bind fun subs => subs.hget sid

def enter (ix : LocalSubs) (key : Key) (sid : Text) (slot : Nat × Nat) : LocalSubs :=
  ix.hset key (((ix.hget key).getD ∅).hset sid slot)

/-- Take a socket out; a channel left with none goes too. -/
def leave (ix : LocalSubs) (key : Key) (sid : Text) : LocalSubs :=
  match ix.hget key with
  | none => ix
  | some subs =>
    let subs := subs.hdel sid
    if subs.hlen = 0 then ix.hdel key else ix.hset key subs

end LocalSubs

namespace Entry

variable {Value : Type} (out : Outside Value)

/-! ## Frames out -/

/-- Install the fragmentation state and bill what it holds. -/
def setFragment (e : Entry Value) (fragment : Option Fragment) : Entry Value :=
  let held := match fragment with
    | some (.text buf) => buf.length
    | _ => 0
  { e with conn := e.conn.setReassemblyBytes held, fragment }

def queueFrame (e : Entry Value) (opcode : OpCode) (payload : Bytes) (now : Nat) : Entry Value :=
  { e with conn := (e.conn.queue (encode true opcode payload) now).1 }

def queueCloseFrame (e : Entry Value) (code : Nat) (reason : String) (now : Nat) : Entry Value :=
  e.queueFrame .close (toBeBytes 2 code ++ reason.toUTF8.toList) now

def flushAndArm (e : Entry Value) (sink : Sink) (now : Nat) : Entry Value × Action :=
  let r := flushPlain e.conn sink.script now
  let armed := match r.status with
    | .drained => some false
    | .wouldBlock => some true
    | .closed => none
  match armed with
  | none => ({ e with conn := r.conn }, .close)
  | some writable =>
    if sink.reregisters then ({ e with conn := { r.conn with writableArmed := writable } }, .keep)
    else ({ e with conn := r.conn }, .close)

/-- Fail the connection: a Close frame with `code` and `reason`, flushed. -/
def fail (e : Entry Value) (code : Nat) (reason : String) (m : Moment Value) : Entry Value :=
  (((e.setFragment none).queueCloseFrame code reason m.now).flushAndArm m.sink m.now).1

def closeFragmentViolation (e : Entry Value) (reason : String) (m : Moment Value) : Entry Value :=
  e.fail 1002 reason m

def closeInvalidUtf8 (e : Entry Value) (m : Moment Value) : Entry Value :=
  e.fail 1007 "invalid UTF-8 in a text message" m

/-- The code that answers a client's Close. -/
def echoCloseCode (payload : Bytes) : Nat :=
  let code := fromBeBytes (payload.take 2)
  if 2 ≤ payload.length ∧ 1000 ≤ code ∧ code ≤ 4999 ∧ code ≠ 1005 ∧ code ≠ 1006 ∧ code ≠ 1015 then
    code
  else 1000

def closeHandshakeReply (e : Entry Value) (payload : Bytes) (m : Moment Value) : Entry Value :=
  ((e.queueCloseFrame (echoCloseCode payload) "" m.now).flushAndArm m.sink m.now).1

/-! ## The mailbox -/

/-- A `subscription_error` came: the channel goes from the protocol state. -/
def forget (e : Entry Value) (channel : String) : Entry Value :=
  { e with ctx := { e.ctx with
    subscribed := e.ctx.subscribed.erase channel
    presenceMembership := e.ctx.presenceMembership.hdel channel } }

end Entry

/-- Where the loop of `drain_session` stands. -/
structure Drain (Value : Type) where
  entry : Entry Value
  wrote : Bool := false
  subsChanged : Bool := false
  closeAfter : Bool := false

variable {A Value : Type}

/-- The loop, over what the mailbox holds. -/
def drainEvents (out : Outside Value) (now : Nat) :
    List (ServerEvent Value) → Drain Value → Drain Value
  | [], d => d
  | ev :: rest, d =>
    let e := { d.entry with ctx := { d.entry.ctx with mailbox := d.entry.ctx.mailbox.pop } }
    match ev with
    | .close code reason =>
      { d with entry := e.queueCloseFrame code reason now, wrote := true, closeAfter := true }
    | ev =>
      let (e, changed) := match ev.refusedChannel with
        | some channel => (e.forget channel, decide (channel ∈ e.ctx.subscribed))
        | none => (e, false)
      drainEvents out now rest
        { d with
          entry := e.queueFrame .text (out.encode ev) now
          wrote := true
          subsChanged := d.subsChanged || changed }

/-- `DrainResult` and the entry left. -/
structure DrainResult (Value : Type) where
  entry : Entry Value
  action : Action
  wrote : Bool
  subsChanged : Bool

def drainSession (out : Outside Value) (e : Entry Value) (m : Moment Value) : DrainResult Value :=
  let d := drainEvents out m.now e.ctx.mailbox.events { entry := e }
  let (entry, flushed) := if d.wrote then d.entry.flushAndArm m.sink m.now else (d.entry, .keep)
  { entry
    action := if flushed = .close ∨ d.closeAfter then .close else .keep
    wrote := d.wrote
    subsChanged := d.subsChanged }

/-! ## Frames in -/

/-- What a worker works on for one connection. -/
structure Turn (A Value : Type) where
  entry : Entry Value
  adapter : A
  effects : List (Effect Value)

namespace Turn

variable (ad : Adapter A Value) (out : Outside Value) (maxMessageBytes : Nat)

/-- The protocol state, as the command handlers see it. -/
def scope (t : Turn A Value) : Scope A Value :=
  { ctx := t.entry.ctx, adapter := t.adapter, effects := t.effects }

def setScope (t : Turn A Value) (s : Scope A Value) : Turn A Value :=
  { entry := { t.entry with ctx := s.ctx }, adapter := s.adapter, effects := s.effects }

def openTextFragment (payload : Bytes) : Fragment :=
  if maxMessageBytes < payload.length then .oversize else .text payload

/-- A whole text message. One the codec cannot read is dropped. -/
def dispatchTextMessage (t : Turn A Value) (payload : Bytes) (m : Moment Value) :
    Turn A Value × Action :=
  match out.fromUtf8 payload with
  | none => ({ t with entry := t.entry.closeInvalidUtf8 m }, .close)
  | some text =>
    match out.decode text with
    | some cmd => (t.setScope (t.scope.dispatch ad out cmd m.inputs), .keep)
    | none => (t, .keep)

/-- The body of the loop of `dispatch_frames`. -/
def dispatchFrame (t : Turn A Value) (f : Frame) (m : Moment Value) : Turn A Value × Action :=
  let violation (reason : String) : Turn A Value × Action :=
    ({ t with entry := t.entry.closeFragmentViolation reason m }, .close)
  match f.opcode with
  | .text =>
    if t.entry.fragment.isSome then
      violation "data frame interleaved with a fragmented message"
    else if ¬ f.fin then
      let fragment := openTextFragment maxMessageBytes f.payload
      ({ t with entry := t.entry.setFragment (some fragment) }, .keep)
    else t.dispatchTextMessage ad out f.payload m
  | .binary =>
    match t.entry.fragment with
    | some (.text _) | some .oversize =>
      violation "data frame interleaved with a fragmented message"
    | some .binary => (t, .keep)
    | none =>
      if f.fin then (t, .keep)
      else ({ t with entry := t.entry.setFragment (some .binary) }, .keep)
  | .continuation =>
    -- the state is taken out first, so nothing is open unless it is put back
    let t' := { t with entry := t.entry.setFragment none }
    match t.entry.fragment with
    | none => violation "continuation frame without a fragmented message"
    | some (.text buf) =>
      if maxMessageBytes < buf.length + f.payload.length then
        if f.fin then (t', .keep)
        else ({ t' with entry := t'.entry.setFragment (some .oversize) }, .keep)
      else if f.fin then t'.dispatchTextMessage ad out (buf ++ f.payload) m
      else ({ t' with entry := t'.entry.setFragment (some (.text (buf ++ f.payload))) }, .keep)
    | some ignored =>
      if f.fin then (t', .keep)
      else ({ t' with entry := t'.entry.setFragment (some ignored) }, .keep)
  | .ping =>
    let r := (t.entry.queueFrame .pong f.payload m.now).flushAndArm m.sink m.now
    ({ t with entry := r.1 }, r.2)
  | .pong => (t, .keep)
  | .close => ({ t with entry := t.entry.closeHandshakeReply f.payload m }, .close)

end Turn

/-! ## The node -/

/-- Every worker's state that sessions touch. `busy` holds the connections whose
batch or drain is under way. -/
structure Node (A Value : Type) where
  adapter : A
  entries : Hash Text (Entry Value) := ∅
  indexes : Nat → LocalSubs := fun _ => ∅
  used : Finset Text := ∅
  busy : Finset Text := ∅
  effects : List (Effect Value) := []

/-- What a connection is established with. -/
structure Opening where
  worker : Nat
  token : Nat
  version : Nat
  highWater : Nat
  codel : CodelParams
  app : App
  mailboxCapacity : Nat
  limits : Limits
  clustered : Bool
  capabilities : Capabilities

def Opening.entry (o : Opening) (sid : Text) : Entry Value :=
  { worker := o.worker
    token := o.token
    version := o.version
    conn := .new o.highWater o.codel
    ctx :=
      { app := o.app
        socketId := sid
        mailbox := .new o.mailboxCapacity
        limits := o.limits
        clustered := o.clustered
        capabilities := o.capabilities } }

/-- A step of some worker, or of another thread sending into a mailbox. Only a
connection's own commands and the bridge send refusals, so `post` does not. -/
inductive Act (Value : Type) where
  | establish (sid : Text) (opening : Opening)
  | frame (sid : Text) (f : Frame) (m : Moment Value)
  | drain (sid : Text) (m : Moment Value)
  | dirty (sid : Text) (m : Moment Value)
  | post (sid : Text) (event : ServerEvent Value)
  | close (sid : Text)

/-- The worker's delivery index without a closing connection: what it last
recorded and what the protocol state says now. -/
def deindexConnection (e : Entry Value) (ix : LocalSubs) : LocalSubs :=
  (inOrder (e.ctx.subscribed ∪ e.subs)).foldl
    (fun ix channel => ix.leave (e.ctx.app.id, channel) e.ctx.socketId) ix

/-- `reconcile_membership` on the index. -/
def reconcileMembership (e : Entry Value) (ix : LocalSubs) : LocalSubs :=
  if e.subs = e.ctx.subscribed then ix
  else
    let ix := (inOrder (e.ctx.subscribed \ e.subs)).foldl
      (fun ix channel => ix.enter (e.ctx.app.id, channel) e.ctx.socketId (e.token, e.version)) ix
    (inOrder (e.subs \ e.ctx.subscribed)).foldl
      (fun ix channel => ix.leave (e.ctx.app.id, channel) e.ctx.socketId) ix

namespace Node

variable (ad : Adapter A Value) (out : Outside Value) (maxMessageBytes : Nat)

def turn (n : Node A Value) (e : Entry Value) : Turn A Value :=
  { entry := e, adapter := n.adapter, effects := n.effects }

/-- Put back what a worker worked on. -/
def settle (n : Node A Value) (sid : Text) (t : Turn A Value) : Node A Value :=
  { n with
    adapter := t.adapter
    entries := n.entries.hset sid t.entry
    busy := insert sid n.busy
    effects := t.effects }

/-- `remove`: the index first, then `on_close`. -/
def remove (n : Node A Value) (sid : Text) : Node A Value :=
  match n.entries.hget sid with
  | none => n
  | some e =>
    let s := (n.turn e).scope.onClose ad
    { n with
      adapter := s.adapter
      entries := n.entries.hdel sid
      indexes := Function.update n.indexes e.worker (deindexConnection e (n.indexes e.worker))
      busy := n.busy.erase sid
      effects := s.effects }

/-- The end of a batch, or of a drain that changed `subscribed`. -/
def reconcile (n : Node A Value) (sid : Text) : Node A Value :=
  match n.entries.hget sid with
  | none => n
  | some e =>
    { n with
      entries := n.entries.hset sid { e with subs := e.ctx.subscribed }
      indexes := Function.update n.indexes e.worker (reconcileMembership e (n.indexes e.worker))
      busy := n.busy.erase sid }

/-- Send into a connection's mailbox; a connection that is gone takes nothing. -/
def send (n : Node A Value) (sid : Text) (event : ServerEvent Value) : Node A Value :=
  match n.entries.hget sid with
  | none => n
  | some e =>
    let ctx := { e.ctx with mailbox := e.ctx.mailbox.trySend event }
    { n with entries := n.entries.hset sid { e with ctx } }

def step (n : Node A Value) : Act Value → Node A Value
  | .establish sid opening =>
    if sid ∈ n.used then n
    else
      { n with
        entries := n.entries.hset sid (opening.entry sid)
        used := insert sid n.used }
  | .frame sid f m =>
    match n.entries.hget sid with
    | none => n
    | some e =>
      let r := (n.turn e).dispatchFrame ad out maxMessageBytes f m
      match r.2 with
      | .keep => n.settle sid r.1
      | .close => (n.settle sid r.1).remove ad sid
  | .drain sid m =>
    match n.entries.hget sid with
    | none => n
    | some e =>
      let r := drainSession out e m
      let n := n.settle sid (n.turn r.entry)
      match r.action with
      | .keep => n.reconcile sid
      | .close => n.remove ad sid
  | .dirty sid m =>
    match n.entries.hget sid with
    | none => n
    | some e =>
      -- the worker is not in the middle of this connection's batch
      if sid ∈ n.busy then n
      else
        let r := drainSession out e m
        let n' := n.settle sid (n.turn r.entry)
        match r.action with
        | .keep => if r.subsChanged then n'.reconcile sid else { n' with busy := n.busy }
        | .close => n'.remove ad sid
  | .post sid event => if event.refusedChannel.isSome then n else n.send sid event
  | .close sid => n.remove ad sid

end Node

/-! ## A batch is a run of steps -/

namespace Node

variable (ad : Adapter A Value) (out : Outside Value) (maxMessageBytes : Nat)

/-- The steps of a readable event. -/
def batch (sid : Text) (frames : List (Frame × Moment Value)) (m : Moment Value) :
    List (Act Value) :=
  frames.map (fun p => .frame sid p.1 p.2) ++ [.drain sid m]

variable {sid : Text}

variable (n : Node A Value)

theorem remove_gone (sid : Text) : (n.remove ad sid).entries.hget sid = none := by
  unfold remove
  cases h : n.entries.hget sid with
  | none => exact h
  | some => exact Hash.hget_hdel_self _ _

theorem reconcile_adapter (sid : Text) : (n.reconcile sid).adapter = n.adapter := by
  unfold reconcile
  split <;> rfl

theorem reconcile_entries {n : Node A Value} {e : Entry Value} (h : n.entries.hget sid = some e) :
    (n.reconcile sid).entries = n.entries.hset sid { e with subs := e.ctx.subscribed } := by
  simp only [reconcile, h]

theorem reconcile_live {n : Node A Value} {e : Entry Value} (h : n.entries.hget sid = some e) :
    (n.reconcile sid).entries.hget sid = some { e with subs := e.ctx.subscribed } := by
  rw [reconcile_entries h, Hash.hget_hset_self]

end Node

/-! ## What a frame does to a session -/

namespace Entry

/-- Only the connection's output and the message in progress differ. -/
def SameSession (e e' : Entry Value) : Prop :=
  ∃ conn fragment, e' = { e with conn, fragment }

namespace SameSession

variable (e : Entry Value)

theorem refl : SameSession e e := ⟨e.conn, e.fragment, rfl⟩

theorem trans {e e' e'' : Entry Value} (h : SameSession e e') (h' : SameSession e' e'') :
    SameSession e e'' := by
  obtain ⟨conn, fragment, rfl⟩ := h
  obtain ⟨conn', fragment', rfl⟩ := h'
  exact ⟨conn', fragment', rfl⟩

theorem setFragment (fragment : Option Fragment) : SameSession e (e.setFragment fragment) :=
  ⟨_, _, rfl⟩

theorem queueFrame (opcode : OpCode) (payload : Bytes) (now : Nat) :
    SameSession e (e.queueFrame opcode payload now) :=
  ⟨_, _, rfl⟩

theorem flushAndArm (sink : Sink) (now : Nat) : SameSession e (e.flushAndArm sink now).1 := by
  unfold Entry.flushAndArm
  dsimp only
  split
  · exact ⟨_, _, rfl⟩
  · split <;> exact ⟨_, _, rfl⟩

theorem fail (code : Nat) (reason : String) (m : Moment Value) :
    SameSession e (e.fail code reason m) :=
  (setFragment e none).trans ((queueFrame _ _ _ _).trans (flushAndArm _ _ _))

end SameSession

end Entry

namespace Turn

variable (ad : Adapter A Value) (out : Outside Value) (maxMessageBytes : Nat)

/-- What a turn leaves when the protocol state goes to `s`. -/
def Reaches (t : Turn A Value) (s : Scope A Value) (t' : Turn A Value) : Prop :=
  ∃ entry, Entry.SameSession t.entry entry ∧ t' = { t with entry }.setScope s

theorem Reaches.io {t : Turn A Value} {entry : Entry Value}
    (h : Entry.SameSession t.entry entry) : t.Reaches t.scope { t with entry } := by
  obtain ⟨conn, fragment, rfl⟩ := h
  exact ⟨_, ⟨conn, fragment, rfl⟩, rfl⟩

/-- A text message is at most one command. -/
theorem dispatchTextMessage_spec (t : Turn A Value) (payload : Bytes) (m : Moment Value) :
    ∃ s, Dispatched ad t.scope s ∧
      t.Reaches s (t.dispatchTextMessage ad out payload m).1 := by
  unfold dispatchTextMessage
  split
  · exact ⟨t.scope, (Quiet.refl _).dispatched ad, .io (.fail _ _ _ _)⟩
  · split
    · exact ⟨_, dispatch_spec ad out t.scope _ _, t.entry, .refl _, rfl⟩
    · exact ⟨t.scope, (Quiet.refl _).dispatched ad, .io (.refl _)⟩

/-- A frame's effect on the session is at most one command. -/
theorem dispatchFrame_spec (t : Turn A Value) (f : Frame) (m : Moment Value) :
    ∃ s, Dispatched ad t.scope s ∧
      t.Reaches s (t.dispatchFrame ad out maxMessageBytes f m).1 := by
  -- most branches leave the protocol state alone
  have hio : ∀ {entry : Entry Value} (action : Action), Entry.SameSession t.entry entry →
      ∃ s, Dispatched ad t.scope s ∧ t.Reaches s (({ t with entry }, action) : _ × Action).1 :=
    fun _ h => ⟨t.scope, (Quiet.refl _).dispatched ad, .io h⟩
  unfold dispatchFrame
  dsimp only
  cases f.opcode with
  | text =>
    dsimp only
    split
    · exact hio _ (.fail _ _ _ _)
    split
    · exact hio _ (.setFragment _ _)
    · exact dispatchTextMessage_spec ad out t f.payload m
  | binary =>
    dsimp only
    split
    · exact hio _ (.fail _ _ _ _)
    · exact hio _ (.fail _ _ _ _)
    · exact hio _ (.refl _)
    · split
      · exact hio _ (.refl _)
      · exact hio _ (.setFragment _ _)
  | continuation =>
    dsimp only
    split
    · exact hio _ (.fail _ _ _ _)
    · split
      · split
        · exact hio _ (.setFragment _ _)
        · exact hio _ ((Entry.SameSession.setFragment _ _).trans (.setFragment _ _))
      split
      · -- the message is whole: its command runs after the state was taken out
        obtain ⟨s, hs, entry, hentry, heq⟩ := dispatchTextMessage_spec ad out
          { t with entry := t.entry.setFragment none } _ m
        exact ⟨s, hs, entry, (Entry.SameSession.setFragment _ _).trans hentry, heq⟩
      · exact hio _ ((Entry.SameSession.setFragment _ _).trans (.setFragment _ _))
    · split
      · exact hio _ (.setFragment _ _)
      · exact hio _ ((Entry.SameSession.setFragment _ _).trans (.setFragment _ _))
  | ping | close => exact hio _ ((Entry.SameSession.queueFrame _ _ _ _).trans (.flushAndArm _ _ _))
  | pong => exact hio _ (.refl _)

end Turn

/-! ## What a drain does to a session -/

/-- The channels whose refusals are waiting. -/
def refused (events : List (ServerEvent Value)) : List String :=
  events.filterMap ServerEvent.refusedChannel

/-- The channels a drain of these events takes off: those refused before a Close. -/
def refusals (events : List (ServerEvent Value)) : List String :=
  refused (events.takeWhile fun ev => !ev.isClose)

variable {ok : Node A Value → Entry Value → Prop} {ev : ServerEvent Value} {e e' : Entry Value}

theorem refusals_close (h : ev.isClose = true) (rest : List (ServerEvent Value)) :
    refusals (ev :: rest) = [] := by
  simp [refusals, refused, h]

theorem refusals_cons (h : ev.isClose = false) (rest : List (ServerEvent Value)) :
    refusals (ev :: rest) = ev.refusedChannel.toList ++ refusals rest := by
  cases hev : ev.refusedChannel <;> simp [refusals, refused, h, hev]

/-- `e'` is `e` with the channels gone from `subscribed`, as far as others see. -/
structure TakesOff (channels : List String) (e e' : Entry Value) : Prop where
  worker : e'.worker = e.worker
  slot : (e'.token, e'.version) = (e.token, e.version)
  subs : e'.subs = e.subs
  conn : SameConn e.ctx e'.ctx
  subscribed : e'.ctx.subscribed = e.ctx.subscribed.filter fun channel => channel ∉ channels

theorem TakesOff.trans {channels channels' : List String} {e'' : Entry Value}
    (h : TakesOff channels e e') (h' : TakesOff channels' e' e'') :
    TakesOff (channels ++ channels') e e'' := by
  refine ⟨h'.worker.trans h.worker, h'.slot.trans h.slot, h'.subs.trans h.subs,
    h.conn.trans h'.conn, ?_⟩
  rw [h'.subscribed, h.subscribed, Finset.filter_filter]
  congr 1
  ext channel
  simp

theorem TakesOff.of_ctx (hworker : e'.worker = e.worker)
    (hslot : (e'.token, e'.version) = (e.token, e.version)) (hsubs : e'.subs = e.subs)
    (hconn : SameConn e.ctx e'.ctx) (hsubscribed : e'.ctx.subscribed = e.ctx.subscribed) :
    TakesOff [] e e' :=
  ⟨hworker, hslot, hsubs, hconn, by simp [hsubscribed]⟩

theorem TakesOff.forget (e : Entry Value) (channel : String) :
    TakesOff [channel] e (e.forget channel) := by
  refine ⟨rfl, rfl, rfl, ⟨rfl, rfl, rfl⟩, ?_⟩
  ext c
  simp [Entry.forget, and_comm]

theorem drainEvents_cons (out : Outside Value) (now : Nat) (h : ev.isClose = false)
    (rest : List (ServerEvent Value)) (d : Drain Value) :
    ∃ d', drainEvents out now (ev :: rest) d = drainEvents out now rest d' ∧
      TakesOff ev.refusedChannel.toList d.entry d'.entry ∧
      d'.entry.ctx.mailbox = d.entry.ctx.mailbox.pop ∧
      (d'.subsChanged = false →
        d.subsChanged = false ∧ d'.entry.ctx.subscribed = d.entry.ctx.subscribed) := by
  cases ev with
  | close => cases h
  | subscriptionError channel =>
    refine ⟨_, rfl, ?_, rfl, ?_⟩
    · exact (TakesOff.of_ctx rfl rfl rfl ⟨rfl, rfl, rfl⟩ rfl).trans
        ((TakesOff.forget _ channel).trans (.of_ctx rfl rfl rfl ⟨rfl, rfl, rfl⟩ rfl))
    · intro hfalse
      obtain ⟨hbefore, hnow⟩ := Bool.or_eq_false_iff.mp hfalse
      exact ⟨hbefore, Finset.erase_eq_of_notMem (of_decide_eq_false hnow)⟩
  | _ =>
    refine ⟨_, rfl, .of_ctx rfl rfl rfl ⟨rfl, rfl, rfl⟩ rfl, rfl, ?_⟩
    intro hfalse
    exact ⟨(Bool.or_eq_false_iff.mp hfalse).1, rfl⟩

/-- The loop takes off what it finds refused, empties the mailbox unless it closes,
and reports a change of `subscribed`. -/
theorem drainEvents_spec (out : Outside Value) (now : Nat) (events : List (ServerEvent Value))
    (d : Drain Value) (hmail : d.entry.ctx.mailbox.events = events) :
    TakesOff (refusals events) d.entry (drainEvents out now events d).entry ∧
      refused events = refusals events ++
        refused (drainEvents out now events d).entry.ctx.mailbox.events ∧
      ((drainEvents out now events d).closeAfter = false →
        (drainEvents out now events d).entry.ctx.mailbox.events = []) ∧
      ((drainEvents out now events d).subsChanged = false → d.subsChanged = false ∧
        (drainEvents out now events d).entry.ctx.subscribed = d.entry.ctx.subscribed) := by
  induction events generalizing d with
  | nil =>
    refine ⟨.of_ctx rfl rfl rfl (.refl _) rfl, ?_, fun _ => hmail, fun h => ⟨h, rfl⟩⟩
    exact congrArg refused hmail.symm
  | cons ev rest ih =>
    cases hclose : ev.isClose with
    | true =>
      cases ev with
      | close =>
        rw [refusals_close hclose]
        refine ⟨.of_ctx rfl rfl rfl ⟨rfl, rfl, rfl⟩ rfl, ?_, nofun, fun h => ⟨h, rfl⟩⟩
        exact congrArg (fun events => refused events.tail) hmail.symm
      | _ => cases hclose
    | false =>
      obtain ⟨d', heq, htakes, hpop, hsame⟩ := drainEvents_cons out now hclose rest d
      have hrest : d'.entry.ctx.mailbox.events = rest := by
        rw [hpop]
        exact congrArg List.tail hmail
      obtain ⟨htakes', hrefused, hempty, hsame'⟩ := ih d' hrest
      rw [heq, refusals_cons hclose]
      refine ⟨htakes.trans htakes', ?_, hempty, fun hfalse => ?_⟩
      · rw [List.append_assoc, ← hrefused]
        cases hev : ev.refusedChannel <;> simp [refused, hev]
      obtain ⟨hmid, hsub'⟩ := hsame' hfalse
      obtain ⟨hstart, hsub⟩ := hsame hmid
      exact ⟨hstart, hsub'.trans hsub⟩

theorem Entry.SameSession.takesOff (h : SameSession e e') : TakesOff [] e e' := by
  obtain ⟨conn, fragment, rfl⟩ := h
  exact .of_ctx rfl rfl rfl (.refl _) rfl

/-- A drain is its loop and a flush. -/
theorem drainSession_spec (out : Outside Value) (e : Entry Value) (m : Moment Value) :
    TakesOff (refusals e.ctx.mailbox.events) e (drainSession out e m).entry ∧
      refused e.ctx.mailbox.events = refusals e.ctx.mailbox.events ++
        refused (drainSession out e m).entry.ctx.mailbox.events ∧
      ((drainSession out e m).action = .keep →
        (drainSession out e m).entry.ctx.mailbox.events = []) ∧
      ((drainSession out e m).subsChanged = false →
        (drainSession out e m).entry.ctx.subscribed = e.ctx.subscribed) := by
  obtain ⟨htakes, hrefused, hempty, hchanged⟩ :=
    drainEvents_spec out m.now e.ctx.mailbox.events { entry := e } rfl
  generalize hd : drainEvents out m.now e.ctx.mailbox.events { entry := e } = d at *
  have hflush : Entry.SameSession d.entry (drainSession out e m).entry := by
    unfold drainSession
    rw [hd]
    dsimp only
    split
    · exact .flushAndArm _ _ _
    · exact .refl _
  refine ⟨?_, ?_, ?_, ?_⟩
  · simpa using htakes.trans hflush.takesOff
  · obtain ⟨conn, fragment, heq⟩ := hflush
    rw [heq]
    exact hrefused
  · intro hkeep
    obtain ⟨conn, fragment, heq⟩ := hflush
    rw [heq]
    refine hempty ?_
    by_contra hclose
    have : d.closeAfter = true := by simpa using hclose
    simp [drainSession, hd, this] at hkeep
  · intro hfalse
    obtain ⟨conn, fragment, heq⟩ := hflush
    rw [heq]
    refine (hchanged ?_).2
    simpa [drainSession, hd] using hfalse

/-! ## The changes a step is made of -/

/-- The connection whose mailbox a step drains. -/
def Node.drained (n : Node A Value) : Act Value → Option (Entry Value)
  | .drain sid _ => n.entries.hget sid
  | .dirty sid _ => if sid ∈ n.busy then none else n.entries.hget sid
  | _ => none

/-- One elementary change of a node. `ok` is what is known of a connection about
to be drained. -/
inductive Change (ad : Adapter A Value) (ok : Node A Value → Entry Value → Prop)
    (n : Node A Value) : Node A Value → Prop
  | opened (sid : Text) (opening : Opening) (fresh : sid ∉ n.used) :
      Change ad ok n
        { n with
          entries := n.entries.hset sid (opening.entry sid)
          used := insert sid n.used }
  | command (sid : Text) (e : Entry Value) (s : Scope A Value) (t : Turn A Value)
      (live : n.entries.hget sid = some e) (dispatched : Dispatched ad (n.turn e).scope s)
      (reached : (n.turn e).Reaches s t) : Change ad ok n (n.settle sid t)
  | drained (sid : Text) (e e' : Entry Value) (live : n.entries.hget sid = some e)
      (known : ok n e) (takes : TakesOff (refusals e.ctx.mailbox.events) e e')
      (left : refused e.ctx.mailbox.events =
        refusals e.ctx.mailbox.events ++ refused e'.ctx.mailbox.events) :
      Change ad ok n (n.settle sid (n.turn e'))
  | steady (sid : Text) (e e' : Entry Value) (live : n.entries.hget sid = some e)
      (known : ok n e) (takes : TakesOff (refusals e.ctx.mailbox.events) e e')
      (left : refused e.ctx.mailbox.events =
        refusals e.ctx.mailbox.events ++ refused e'.ctx.mailbox.events)
      (same : e'.ctx.subscribed = e.ctx.subscribed) :
      Change ad ok n { n.settle sid (n.turn e') with busy := n.busy }
  | reconciled (sid : Text) : Change ad ok n (n.reconcile sid)
  | removed (sid : Text) : Change ad ok n (n.remove ad sid)
  | sent (sid : Text) (event : ServerEvent Value) (plain : event.refusedChannel = none) :
      Change ad ok n (n.send sid event)

/-- Any number of changes. -/
abbrev Changes (ad : Adapter A Value) (ok : Node A Value → Entry Value → Prop) :
    Node A Value → Node A Value → Prop :=
  Relation.ReflTransGen (Change ad ok)

/-- Every step is a sequence of changes, of which a drain is the first. -/
theorem Node.step_changes (ad : Adapter A Value) (out : Outside Value) (maxMessageBytes : Nat)
    (n : Node A Value) (a : Act Value) (hok : ∀ e, n.drained a = some e → ok n e) :
    Changes ad ok n (n.step ad out maxMessageBytes a) := by
  cases a with
  | establish sid opening =>
    unfold step
    dsimp only
    split
    · exact .refl
    next hfresh => exact .single (.opened sid opening hfresh)
  | frame sid f m =>
    unfold step
    dsimp only
    split
    · exact .refl
    next e hlive =>
      obtain ⟨s, hs, hreached⟩ := (n.turn e).dispatchFrame_spec ad out maxMessageBytes f m
      have hsettle : Changes ad ok n (n.settle sid _) :=
        .single (.command sid e s _ hlive hs hreached)
      split
      · exact hsettle
      · exact hsettle.tail (.removed sid)
  | drain sid m =>
    unfold step
    dsimp only
    split
    · exact .refl
    next e hlive =>
      obtain ⟨htakes, hleft, -, -⟩ := drainSession_spec out e m
      have hsettle : Changes ad ok n (n.settle sid _) :=
        .single (.drained sid e _ hlive (hok e hlive) htakes hleft)
      split
      · exact hsettle.tail (.reconciled sid)
      · exact hsettle.tail (.removed sid)
  | dirty sid m =>
    unfold step
    dsimp only
    split
    · exact .refl
    next e hlive =>
      obtain ⟨htakes, hleft, -, hsame⟩ := drainSession_spec out e m
      split
      · exact .refl
      next hidle =>
      have hknown : ok n e := hok e (by simpa [Node.drained, hidle] using hlive)
      have hsettle : Changes ad ok n (n.settle sid _) :=
        .single (.drained sid e _ hlive hknown htakes hleft)
      split
      · split
        · exact hsettle.tail (.reconciled sid)
        next hchanged =>
          exact .single (.steady sid e _ hlive hknown htakes hleft
            (hsame (by simpa using hchanged)))
      · exact hsettle.tail (.removed sid)
  | post sid event =>
    unfold step
    dsimp only
    split
    · exact .refl
    next hplain => exact .single (.sent sid event (by simpa using hplain))
  | close sid => exact .single (.removed sid)

variable {n : Node A Value}

/-- What every change keeps, every step keeps. -/
theorem Changes.invariant {ad : Adapter A Value} {P : Node A Value → Prop}
    (hP : ∀ n n', P n → Change ad ok n n' → P n') {n' : Node A Value} (h : Changes ad ok n n')
    (hn : P n) : P n' := by
  induction h with
  | refl => exact hn
  | tail _ hchange ih => exact hP _ _ ih hchange

/-! ## Every entry is under its own socket id -/

/-- Entries are filed under their socket ids, and those are used up. -/
def Node.Filed (n : Node A Value) : Prop :=
  ∀ sid e, n.entries.hget sid = some e → e.ctx.socketId = sid ∧ sid ∈ n.used

theorem Node.Filed.set {n' : Node A Value} (h : n.Filed) {sid : Text}
    (hlive : n.entries.hget sid = some e) (hentries : n'.entries = n.entries.hset sid e')
    (hsid : e'.ctx.socketId = e.ctx.socketId) (hused : n'.used = n.used) : n'.Filed := by
  intro sid' e'' hget
  rw [hentries, Hash.hget_hset] at hget
  rw [hused]
  split at hget
  next heq =>
    cases hget
    rw [heq, hsid]
    exact h sid e hlive
  next => exact h sid' e'' hget

theorem Node.Filed.send (h : n.Filed) (sid : Text) (event : ServerEvent Value) :
    (n.send sid event).Filed := by
  unfold Node.send
  split
  · exact h
  next e live => exact h.set live rfl rfl rfl

theorem Node.Filed.change {ad : Adapter A Value} (n n' : Node A Value) (h : n.Filed)
    (hchange : Change ad ok n n') : n'.Filed := by
  cases hchange with
  | opened =>
    intro sid' e' hget
    rw [Hash.hget_hset] at hget
    split at hget
    next heq =>
      cases hget
      exact ⟨heq.symm, heq ▸ Finset.mem_insert_self _ _⟩
    next => exact ⟨(h sid' e' hget).1, Finset.mem_insert_of_mem (h sid' e' hget).2⟩
  | command _ _ _ _ live dispatched reached =>
    obtain ⟨entry, ⟨conn, fragment, rfl⟩, rfl⟩ := reached
    exact h.set live rfl (dispatched.same).socketId rfl
  | drained sid e e' live known takes | steady sid e e' live known takes =>
    exact h.set live rfl takes.conn.socketId rfl
  | reconciled =>
    unfold reconcile
    split
    · exact h
    next e live => exact h.set live rfl rfl rfl
  | removed =>
    unfold remove
    split
    · exact h
    · intro sid' e' hget
      rw [Hash.hget_hdel] at hget
      split at hget
      · cases hget
      · exact h sid' e' hget
  | sent sid event => exact h.send sid event

theorem Node.Filed.step (ad : Adapter A Value) (out : Outside Value) (maxMessageBytes : Nat)
    (n : Node A Value) (a : Act Value) (h : n.Filed) : (n.step ad out maxMessageBytes a).Filed := by
  have hchanges : Changes ad (fun _ _ => True) n (n.step ad out maxMessageBytes a) :=
    n.step_changes ad out maxMessageBytes a fun _ _ => trivial
  exact hchanges.invariant Node.Filed.change h

end Pylon.Transport
