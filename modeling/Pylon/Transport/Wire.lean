import Pylon.Transport.Worker

/-!
# What a worker queues on a connection

Every byte a peer sees was queued by one of the handlers of `transport/worker.rs`:
an HTTP response, or a finished WebSocket frame.

* **`Emits`** — the connection a handler leaves is the one it got with what it says
  queued, flushed or not;
* **outcomes** — on an open connection a handler goes on talking and keeps it, or
  says at most a Close as its last word and gives it up; during the handshake it
  waits, upgrades with the one HTTP response, or gives up.
-/

namespace Pylon.Transport

open Pylon.Lib

/-! ## Items -/

/-- What is queued on a connection. -/
inductive Item where
  | http (response : Bytes)
  | text (frame : Bytes)
  | pong (frame : Bytes)
  | close (frame : Bytes)
  deriving DecidableEq, Repr

namespace Item

def bytes : Item → Bytes
  | .http b | .text b | .pong b | .close b => b

/-- A frame after which others may follow. -/
def isTalk : Item → Bool
  | .text _ | .pong _ => true
  | .http _ | .close _ => false

/-- An event as a text frame. -/
def event (text : Bytes) : Item := .text (encodeText text)

def closing (code : Nat) (reason : String) : Item :=
  .close (encode true .close (toBeBytes 2 code ++ reason.toUTF8.toList))

end Item

/-- WebSocket frames, of which only the last may be a Close. -/
def wireFrames : List Item → Bool
  | [] => true
  | .close _ :: rest => rest.isEmpty
  | .http _ :: _ => false
  | .text _ :: rest | .pong _ :: rest => wireFrames rest

/-- Nothing, or one HTTP response and then WebSocket frames. -/
def wireOrder : List Item → Bool
  | [] => true
  | .http _ :: rest => wireFrames rest
  | _ :: _ => false

theorem wireFrames_append {talk : List Item} (h : talk.all Item.isTalk = true) (rest : List Item) :
    wireFrames (talk ++ rest) = wireFrames rest := by
  induction talk with
  | nil => rfl
  | cons item _ ih =>
    rw [List.all_cons, Bool.and_eq_true] at h
    cases item with
    | http | close => cases h.1
    | text | pong => exact ih h.2

theorem wireFrames_of_talk {talk : List Item} (h : talk.all Item.isTalk = true) :
    wireFrames talk = true := by
  rw [← List.append_nil talk, wireFrames_append h]
  rfl

/-! ## Queueing -/

/-- The connection after `items` have been queued, in this order, whatever else
happened to it in between. -/
inductive IoConnection.Emits (c : IoConnection) : List Item → IoConnection → Prop
  | refl : Emits c [] c
  | queue {items : List Item} {c' : IoConnection} (h : Emits c items c') (item : Item) (now : Nat) :
      Emits c (items ++ [item]) (c'.queue item.bytes now)
  | flush {items : List Item} {c' : IoConnection} (h : Emits c items c') (socket : Socket)
      (now : Nat) : Emits c items (c'.flush socket now).2
  | setReassemblyBytes {items : List Item} {c' : IoConnection} (h : Emits c items c')
      (bytes : Nat) : Emits c items (c'.setReassemblyBytes bytes)
  | setFrameBufferBytes {items : List Item} {c' : IoConnection} (h : Emits c items c')
      (bytes : Nat) : Emits c items (c'.setFrameBufferBytes bytes)
  | setWantsWrite {items : List Item} {c' : IoConnection} (h : Emits c items c')
      (wantsWrite : Bool) : Emits c items (c'.setWantsWrite wantsWrite)
  | setWritableArmed {items : List Item} {c' : IoConnection} (h : Emits c items c')
      (armed : Bool) : Emits c items (c'.setWritableArmed armed)
  | takeDeltas {items : List Item} {c' : IoConnection} (h : Emits c items c') :
      Emits c items c'.takeDeltas

theorem IoConnection.Emits.trans {c c' c'' : IoConnection} {items items' : List Item}
    (h : c.Emits items c') (h' : c'.Emits items' c'') : c.Emits (items ++ items') c'' := by
  induction h' with
  | refl =>
    rw [List.append_nil]
    exact h
  | queue _ item now ih =>
    rw [← List.append_assoc]
    exact ih.queue item now
  | flush _ socket now ih => exact ih.flush socket now
  | setReassemblyBytes _ bytes ih => exact ih.setReassemblyBytes bytes
  | setFrameBufferBytes _ bytes ih => exact ih.setFrameBufferBytes bytes
  | setWantsWrite _ wantsWrite ih => exact ih.setWantsWrite wantsWrite
  | setWritableArmed _ armed ih => exact ih.setWritableArmed armed
  | takeDeltas _ ih => exact ih.takeDeltas

namespace WorkerEntry

/-! ## What each handler queues -/

variable (cfg : WorkerConfig)

def messageItems (payload : Bytes) : List Item :=
  if ¬ cfg.isUtf8 payload then [.closing 1007 "invalid UTF-8 in a text message"] else []

def frameItems (e : WorkerEntry) (f : Frame) : List Item :=
  match f.opcode with
  | .text =>
    if e.fragment.isSome then [.closing 1002 "data frame interleaved with a fragmented message"]
    else if ¬ f.fin then []
    else messageItems cfg f.payload
  | .binary =>
    match e.fragment with
    | some (.text _) | some .oversize =>
      [.closing 1002 "data frame interleaved with a fragmented message"]
    | some .binary | none => []
  | .continuation =>
    match e.fragment with
    | none => [.closing 1002 "continuation frame without a fragmented message"]
    | some (.text buf) =>
      if cfg.maxMessageBytes < buf.length + f.payload.length then []
      else if f.fin then messageItems cfg (buf ++ f.payload)
      else []
    | some _ => []
  | .ping => [.pong (encode true .pong f.payload)]
  | .pong => []
  | .close => [.closing (Entry.echoCloseCode f.payload) ""]

def loopItems (now : Nat) : List Frame → List FlushSite → WorkerEntry → List Item
  | [], _, _ => []
  | f :: rest, sites, e =>
    let r := e.dispatchFrame cfg f (sites.headD {}) now
    e.frameItems cfg f ++ if r.action = .keep then loopItems now rest sites.tail r.entry else []

def mailItems : List Mail → List Item
  | [] => []
  | .close code reason :: _ => [.closing code reason]
  | .event text :: rest => .event text :: mailItems rest

def sessionItems (e : WorkerEntry) (mail : List Mail) : List Item :=
  if e.session then mailItems mail else []

def dispatchItems (e : WorkerEntry) (frames : List Frame) (input : Input) (now : Nat) :
    List Item :=
  let r := dispatchLoop cfg now frames input.sites e
  loopItems cfg now frames input.sites e ++
    if r.action = .keep then r.entry.sessionItems input.mail else []

def openItems (e : WorkerEntry) (input : Input) (now : Nat) : List Item :=
  match e.readInto cfg input with
  | (.error _, _) => []
  | (.ok frames, e) =>
    if frames ≠ [] ∧ input.flooded then [.closing 4100 "Inbound frame rate limit exceeded"]
    else e.dispatchItems cfg frames input now

def rejectItems (reject : Reject) : List Item :=
  [.event reject.text, .closing reject.code reject.message]

def upgradeItems : Upgrade → List Item
  | .establish text => [.event text]
  | .reject reject => rejectItems reject
  | .park => []

def handshakeItems (e : WorkerEntry) (input : Input) : List Item :=
  match e.drainHeadBytes input with
  | (.eof, _) | (.failed, _) => []
  | (.blocked, e) =>
    match cfg.readHead e.inbuf with
    | .wsUpgrade key _ => .http (cfg.acceptResponse key) :: upgradeItems input.upgrade
    | .tooManyHeaders => [.http cfg.headerFieldsTooLargeResponse]
    | .needMore | .rest _ | .bad _ => []

def readableItems (e : WorkerEntry) (input : Input) (now : Nat) : List Item :=
  match e.state with
  | .handshaking => e.handshakeItems cfg input
  | .opened => e.openItems cfg input now

def writableItems (e : WorkerEntry) (input : Input) : List Item :=
  match e.state with
  | .handshaking => e.handshakeItems cfg input
  | .opened => []

/-! ## Sending -/

/-- The items are queued; where the entry is in its protocol is as before. -/
structure Sends (e e' : WorkerEntry) (items : List Item) : Prop where
  state : e'.state = e.state
  session : e'.session = e.session
  pending : e'.pendingEstablish = e.pendingEstablish
  emits : e.conn.Emits items e'.conn

theorem Sends.refl (e : WorkerEntry) : e.Sends e [] := ⟨rfl, rfl, rfl, .refl⟩

variable {e' : WorkerEntry} {items items' : List Item} {r : Handled}

theorem Sends.trans {e e'' : WorkerEntry} (h : e.Sends e' items) (h' : e'.Sends e'' items') :
    e.Sends e'' (items ++ items') :=
  ⟨h'.state.trans h.state, h'.session.trans h.session, h'.pending.trans h.pending,
    h.emits.trans h'.emits⟩

theorem Sends.silent {e e'' : WorkerEntry} (h : e.Sends e' items) (h' : e'.Sends e'' []) :
    e.Sends e'' items := by
  have hall := h.trans h'
  rwa [List.append_nil] at hall

theorem sends_queue (e : WorkerEntry) (item : Item) (now : Nat) :
    e.Sends (e.queue item.bytes now) [item] :=
  ⟨rfl, rfl, rfl, IoConnection.Emits.refl.queue item now⟩

theorem sends_setFragment (e : WorkerEntry) (fragment : Option Fragment) :
    e.Sends (e.setFragment fragment) [] :=
  ⟨rfl, rfl, rfl, IoConnection.Emits.refl.setReassemblyBytes _⟩

theorem sends_rearm (e : WorkerEntry) (reregisters writable : Bool) :
    e.Sends (e.rearm reregisters writable).entry [] := by
  rw [rearm]
  split
  · exact ⟨rfl, rfl, rfl, IoConnection.Emits.refl.setWritableArmed writable⟩
  · exact .refl e

theorem sends_takeDeltas (e : WorkerEntry) : e.Sends { e with conn := e.conn.takeDeltas } [] :=
  ⟨rfl, rfl, rfl, IoConnection.Emits.refl.takeDeltas⟩

/-! ## Open connections -/

/-- An open connection was kept talking, or given up after at most a Close. -/
structure Converses (e : WorkerEntry) (items : List Item) (r : Handled) : Prop where
  sends : e.Sends r.entry items
  parked : r.parked = false
  fate : r.action = .keep ∧ items.all Item.isTalk = true ∨
    r.action = .close ∧ wireFrames items = true

theorem Converses.next {e : WorkerEntry} {r' : Handled} (h : e.Converses items r)
    (hkeep : r.action = .keep) (h' : r.entry.Converses items' r') :
    e.Converses (items ++ items') r' := by
  have htalk : items.all Item.isTalk = true := by
    rcases h.fate with ⟨_, htalk⟩ | ⟨hclose, _⟩
    · exact htalk
    · rw [hkeep] at hclose
      cases hclose
  refine ⟨h.sends.trans h'.sends, h'.parked, ?_⟩
  rcases h'.fate with ⟨haction, htalk'⟩ | ⟨haction, hframes⟩
  · exact .inl ⟨haction, by rw [List.all_append, htalk, htalk']; rfl⟩
  · exact .inr ⟨haction, by rw [wireFrames_append htalk, hframes]⟩

theorem Converses.after {e : WorkerEntry} (h : e.Sends e' items)
    (htalk : items.all Item.isTalk = true) (h' : e'.Converses items' r) :
    e.Converses (items ++ items') r :=
  (show e.Converses items (.keep e') from ⟨h, rfl, .inl ⟨rfl, htalk⟩⟩).next rfl h'

theorem converses_keep (e : WorkerEntry) : e.Converses [] (.keep e) :=
  ⟨.refl e, rfl, .inl ⟨rfl, rfl⟩⟩

theorem converses_close (e : WorkerEntry) : e.Converses [] (.close e) :=
  ⟨.refl e, rfl, .inr ⟨rfl, rfl⟩⟩

theorem converses_rearm (e : WorkerEntry) (reregisters writable : Bool) :
    e.Converses [] (e.rearm reregisters writable) := by
  refine ⟨sends_rearm e reregisters writable, ?_, ?_⟩
  · rw [rearm]
    split <;> rfl
  · rw [rearm]
    split
    · exact .inl ⟨rfl, rfl⟩
    · exact .inr ⟨rfl, rfl⟩

theorem converses_flushAndArm (e : WorkerEntry) (site : FlushSite) (now : Nat) :
    e.Converses [] (e.flushAndArm site now) := by
  have hflush : e.Sends { e with conn := (e.conn.flush site.socket now).2 } [] :=
    ⟨rfl, rfl, rfl, IoConnection.Emits.refl.flush site.socket now⟩
  rw [flushAndArm]
  split
  · exact .after hflush rfl (converses_rearm _ _ _)
  · exact .after hflush rfl (converses_rearm _ _ _)
  · exact .after hflush rfl (converses_close _)

theorem sends_flushAndArm (e : WorkerEntry) (site : FlushSite) (now : Nat) :
    e.Sends (e.flushAndArm site now).entry [] :=
  (converses_flushAndArm e site now).sends

theorem flushAndArm_action (e : WorkerEntry) (site : FlushSite) (now : Nat) :
    (e.flushAndArm site now).action = .keep ∨ (e.flushAndArm site now).action = .close :=
  (converses_flushAndArm e site now).fate.imp And.left And.left

theorem converses_talk (e : WorkerEntry) (item : Item) (htalk : item.isTalk = true)
    (site : FlushSite) (now : Nat) :
    e.Converses [item] ((e.queue item.bytes now).flushAndArm site now) := by
  have htalks : [item].all Item.isTalk = true := by rw [List.all_cons, htalk]; rfl
  exact .after (sends_queue e item now) htalks (converses_flushAndArm _ site now)

theorem Sends.parting {e : WorkerEntry} (h : e.Sends e' items) (hframes : wireFrames items = true)
    (site : FlushSite) (now : Nat) : e.Converses items (e'.flushAndClose site now) :=
  ⟨h.silent (sends_flushAndArm e' site now), rfl, .inr ⟨rfl, hframes⟩⟩

theorem converses_fail (e : WorkerEntry) (code : Nat) (reason : String) (site : FlushSite)
    (now : Nat) : e.Converses [.closing code reason] (e.fail code reason site now) :=
  ((sends_setFragment e none).trans (sends_queue _ (.closing code reason) now)).parting rfl site now

theorem converses_queueReject (e : WorkerEntry) (reject : Reject) (site : FlushSite) (now : Nat) :
    e.Converses (rejectItems reject) ((e.queueReject reject now).flushAndClose site now) :=
  ((sends_queue e (.event reject.text) now).trans
    (sends_queue _ (.closing reject.code reject.message) now)).parting rfl site now

theorem converses_dispatchTextMessage (e : WorkerEntry) (payload : Bytes) (site : FlushSite)
    (now : Nat) :
    e.Converses (messageItems cfg payload) (e.dispatchTextMessage cfg payload site now) := by
  rw [dispatchTextMessage, messageItems]
  split
  · exact converses_fail e 1007 _ site now
  · split
    · exact converses_keep e
    · exact converses_close e

/-- What a frame can come to: the fragment changes, a message is whole, a fragment is out of
place, or the frame is a control frame. -/
theorem dispatchFrame_cases {motive : List Item → Handled → Prop} {e : WorkerEntry} {f : Frame}
    {site : FlushSite} {now : Nat} (keep : motive [] (.keep e))
    (put : ∀ fragment, motive [] (.keep (e.setFragment fragment)))
    (fail : ∀ reason, motive [.closing 1002 reason] (e.fail 1002 reason site now))
    (whole : ∀ payload, motive (messageItems cfg payload)
      (e.dispatchTextMessage cfg payload site now))
    (last : ∀ payload, motive (messageItems cfg payload)
      ((e.setFragment none).dispatchTextMessage cfg payload site now))
    (ping : f.opcode = .ping → motive [.pong (encode true .pong f.payload)]
      ((e.queue (encode true .pong f.payload) now).flushAndArm site now))
    (close : motive [.closing (Entry.echoCloseCode f.payload) ""]
      (e.closeHandshakeReply f.payload site now)) :
    motive (e.frameItems cfg f) (e.dispatchFrame cfg f site now) := by
  unfold dispatchFrame frameItems
  cases hop : f.opcode with
  | text =>
    dsimp only
    split
    · exact fail _
    · split
      · exact put _
      · exact whole _
  | binary =>
    cases e.fragment with
    | none =>
      dsimp only
      split
      · exact keep
      · exact put _
    | some fragment =>
      cases fragment with
      | text | oversize => exact fail _
      | binary => exact keep
  | continuation =>
    cases e.fragment with
    | none =>
      dsimp only
      rw [closeFragmentViolation, WorkerEntry.fail, setFragment_setFragment]
      exact fail _
    | some fragment =>
      cases fragment with
      | text =>
        dsimp only
        split
        · split
          · exact put none
          · rw [setFragment_setFragment]
            exact put _
        · split
          · exact last _
          · rw [setFragment_setFragment]
            exact put _
      | oversize | binary =>
        dsimp only
        split
        · exact put none
        · rw [setFragment_setFragment]
          exact put _
  | ping => exact ping hop
  | pong => exact keep
  | close => exact close

theorem converses_dispatchFrame (e : WorkerEntry) (f : Frame) (site : FlushSite) (now : Nat) :
    e.Converses (e.frameItems cfg f) (e.dispatchFrame cfg f site now) := by
  have hset (fragment : Option Fragment) := sends_setFragment e fragment
  refine dispatchFrame_cases cfg (converses_keep e) ?_ (converses_fail e 1002 · site now)
    (converses_dispatchTextMessage cfg e · site now) ?_ ?_ ?_
  · exact fun fragment => .after (hset fragment) rfl (converses_keep _)
  · exact fun payload => .after (hset none) rfl
      (converses_dispatchTextMessage cfg _ payload site now)
  · exact fun _ => converses_talk e (.pong (encode true .pong f.payload)) rfl site now
  · exact (sends_queue e (.closing (Entry.echoCloseCode f.payload) "") now).parting rfl site now

theorem converses_dispatchLoop (now : Nat) (frames : List Frame) (sites : List FlushSite)
    (e : WorkerEntry) :
    e.Converses (loopItems cfg now frames sites e) (dispatchLoop cfg now frames sites e) := by
  induction frames generalizing sites e with
  | nil => exact converses_keep e
  | cons f _ ih =>
    have hframe := converses_dispatchFrame cfg e f (sites.headD {}) now
    rw [loopItems, dispatchLoop]
    split
    · rename_i hkeep
      exact hframe.next hkeep (ih _ _)
    · rw [List.append_nil]
      exact hframe

/-- What a mailbox holds is queued; a Close comes last. -/
theorem sends_queueMail (now : Nat) (mail : List Mail) (e : WorkerEntry) :
    e.Sends (queueMail now mail e).1 (mailItems mail) ∧
      if (queueMail now mail e).2 then wireFrames (mailItems mail) = true
      else (mailItems mail).all Item.isTalk = true := by
  induction mail generalizing e with
  | nil => exact ⟨.refl e, rfl⟩
  | cons m _ ih =>
    cases m with
    | close code reason => exact ⟨sends_queue e (.closing code reason) now, rfl⟩
    | event text =>
      obtain ⟨hsends, htalk⟩ := ih (e.queueText text now)
      exact ⟨(sends_queue e (.event text) now).trans hsends, htalk⟩

theorem converses_drainSession (e : WorkerEntry) (mail : List Mail) (site : FlushSite)
    (now : Nat) : e.Converses (e.sessionItems mail) (e.drainSession mail site now) := by
  rw [drainSession, sessionItems]
  by_cases hnone : ¬ e.session ∨ mail = []
  · rw [if_pos hnone]
    have hitems : (if e.session then mailItems mail else []) = [] := by
      rcases hnone with hsession | rfl
      · rw [if_neg hsession]
      · split <;> rfl
    rw [hitems]
    exact converses_keep e
  · rw [if_neg hnone, if_pos (by tauto)]
    obtain ⟨hsends, htalk⟩ := sends_queueMail now mail e
    have hflush := converses_flushAndArm (queueMail now mail e).1 site now
    have hsent := hsends.silent hflush.sends
    dsimp only
    by_cases hclose : (queueMail now mail e).2 = true
    · rw [if_pos (.inr hclose)]
      rw [if_pos hclose] at htalk
      exact ⟨hsent, rfl, .inr ⟨rfl, htalk⟩⟩
    · rw [if_neg hclose] at htalk
      split
      · exact ⟨hsent, rfl, .inr ⟨rfl, wireFrames_of_talk htalk⟩⟩
      · exact ⟨hsent, rfl, .inl ⟨rfl, htalk⟩⟩

theorem converses_dispatchFrames (e : WorkerEntry) (frames : List Frame) (input : Input)
    (now : Nat) :
    e.Converses (e.dispatchItems cfg frames input now) (e.dispatchFrames cfg frames input now) := by
  have hloop := converses_dispatchLoop cfg now frames input.sites e
  rw [dispatchItems, dispatchFrames]
  split
  · rename_i hkeep
    exact hloop.next hkeep (converses_drainSession _ _ _ _)
  · rw [List.append_nil]
    exact hloop

theorem sends_readInto (e : WorkerEntry) (input : Input) :
    e.Sends (e.readInto cfg input).2 [] :=
  ⟨rfl, rfl, rfl, (IoConnection.Emits.refl.setWantsWrite _).setFrameBufferBytes _⟩

theorem converses_handleFrames {cfg : WorkerConfig} (hecho : cfg.echo = false) (e : WorkerEntry)
    (input : Input) (now : Nat) :
    e.Converses (e.openItems cfg input now) (e.handleFrames cfg input now) := by
  have hread := sends_readInto cfg e input
  rw [openItems, handleFrames]
  generalize e.readInto cfg input = r at hread ⊢
  obtain ⟨result, e'⟩ := r
  dsimp only at hread ⊢
  cases result with
  | error => exact .after hread rfl (converses_close _)
  | ok frames =>
    dsimp only
    split
    · exact .after hread rfl (converses_fail _ 4100 _ input.site now)
    · rw [if_neg (by rw [hecho]; exact Bool.false_ne_true)]
      have hdispatch := Converses.after hread rfl
        (converses_dispatchFrames cfg _ frames input now)
      rwa [List.nil_append] at hdispatch

/-! ## Handshakes -/

/-- The upgrade was answered, and the connection is open: with a session, or
parked until its lookup completes. -/
structure Upgrades (e : WorkerEntry) (items : List Item) (r : Handled) : Prop where
  action : r.action = .keep
  state : r.entry.state = .opened
  pending : r.entry.session = true → r.entry.pendingEstablish = e.pendingEstablish
  emits : e.conn.Emits items r.entry.conn
  order : ∃ response talk, items = .http response :: talk ∧ talk.all Item.isTalk = true

/-- What becomes of a connection in its handshake. -/
inductive Shakes (e : WorkerEntry) (items : List Item) (r : Handled) : Prop
  | waits (action : r.action = .keep) (sends : e.Sends r.entry items) (silent : items = [])
  | upgrades (upgraded : e.Upgrades items r)
  | ends (action : r.action ≠ .keep) (emits : e.conn.Emits items r.entry.conn)
      (order : wireOrder items = true)

theorem Converses.unanswered {e : WorkerEntry} (h : e'.Converses [] r) (hread : e.Sends e' []) :
    e.Shakes [] r := by
  have hsends := hread.trans h.sends
  rcases h.fate with ⟨haction, -⟩ | ⟨haction, -⟩
  · exact .waits haction hsends rfl
  · exact .ends (by rw [haction]; decide) hsends.emits rfl

/-- A handler of an open connection, run after the HTTP response was queued. -/
theorem shakes_answered {e : WorkerEntry} {said : List Item} {response : Bytes}
    (hsends : e'.Sends r.entry items)
    (hfate : r.action = .keep ∧ items.all Item.isTalk = true ∨
      r.action = .close ∧ wireFrames items = true)
    (hemits : e.conn.Emits (.http response :: said) e'.conn)
    (hsaid : said.all Item.isTalk = true) (hstate : e'.state = .opened)
    (hpending : e'.session = true → e'.pendingEstablish = e.pendingEstablish) :
    e.Shakes (.http response :: (said ++ items)) r := by
  have hall := hemits.trans hsends.emits
  rcases hfate with ⟨haction, htalk⟩ | ⟨haction, hframes⟩
  · refine .upgrades ⟨haction, hsends.state.trans hstate, fun hsession => ?_, hall,
      response, said ++ items, rfl, by rw [List.all_append, hsaid, htalk]; rfl⟩
    exact hsends.pending.trans (hpending (hsends.session.symm.trans hsession))
  · refine .ends (by rw [haction]; decide) hall ?_
    rw [wireOrder, wireFrames_append hsaid, hframes]

theorem converses_armHandshakeInterest (e : WorkerEntry) (site : FlushSite) (now : Nat) :
    e.Converses [] (e.armHandshakeInterest site now) := by
  rw [armHandshakeInterest]
  split
  · exact converses_flushAndArm e site now
  · split
    · exact converses_rearm e _ _
    · exact converses_keep e

/-- Mode `Dispatch` right after the 101 was queued. -/
theorem shakes_establish {e : WorkerEntry} {response : Bytes} (upgrade : Upgrade) (gen : BitVec 64)
    (site : FlushSite) (now : Nat) (hemits : e.conn.Emits [.http response] e'.conn)
    (hstate : e'.state = .opened) (hsession : e'.session = false)
    (hpending : e'.pendingEstablish = e.pendingEstablish) :
    e.Shakes (.http response :: upgradeItems upgrade) (e'.establish upgrade gen site now) := by
  cases upgrade with
  | establish text =>
    have hflush := converses_flushAndArm { e'.queueText text now with session := true } site now
    exact shakes_answered hflush.sends hflush.fate (hemits.queue (.event text) now) rfl hstate
      fun _ => hpending
  | reject reject =>
    have hreject := converses_queueReject e' reject site now
    exact shakes_answered hreject.sends hreject.fate hemits rfl hstate fun _ => hpending
  | park =>
    have hflush := converses_flushAndArm { e' with pendingEstablish := some gen } site now
    have hsends : Sends { e' with pendingEstablish := some gen }
        (e'.establish .park gen site now).entry [] := hflush.sends
    refine shakes_answered hsends hflush.fate hemits rfl hstate fun h => ?_
    rw [hsession] at h
    cases h

/-- What a read of the request head can come to, for the entry with what was read. -/
theorem handleHandshake_cases {motive : List Item → Handled → Prop} {e : WorkerEntry}
    {gen : BitVec 64} {input : Input} {now : Nat} (hread : (e.drainHeadBytes input).2 = e')
    (close : motive [] (.close e')) (wait : motive [] (e'.armHandshakeInterest input.site now))
    (handoff : ∀ head, motive [] { entry := e', action := .handoff head })
    (overlong : motive [.http cfg.headerFieldsTooLargeResponse]
      ((e'.queue cfg.headerFieldsTooLargeResponse now).flushAndClose input.site now))
    (upgrade : ∀ key,
      let opened := { e'.queue (cfg.acceptResponse key) now with inbuf := [], state := .opened }
      motive (.http (cfg.acceptResponse key) :: upgradeItems input.upgrade)
        (if cfg.echo then opened.flushAndArm input.site now
        else opened.establish input.upgrade gen input.site now)) :
    motive (e.handshakeItems cfg input) (e.handleHandshake cfg gen input now) := by
  unfold handleHandshake handshakeItems
  generalize e.drainHeadBytes input = r at hread
  obtain ⟨ending, head⟩ := r
  subst hread
  cases ending with
  | eof | failed => exact close
  | blocked =>
    dsimp only
    cases cfg.readHead head.inbuf with
    | needMore => exact wait
    | wsUpgrade key => exact upgrade key
    | rest =>
      dsimp only
      split
      · exact handoff _
      · exact close
    | tooManyHeaders => exact overlong
    | bad => exact close

/-- A handshake waits, or answers and upgrades, or ends. -/
theorem shakes_handleHandshake {cfg : WorkerConfig} (hecho : cfg.echo = false) {e : WorkerEntry}
    (gen : BitVec 64) (input : Input) (now : Nat) (hsession : e.session = false) :
    e.Shakes (e.handshakeItems cfg input) (e.handleHandshake cfg gen input now) := by
  have hread : e.Sends (e.drainHeadBytes input).2 [] :=
    ⟨rfl, rfl, rfl, IoConnection.Emits.refl.setWantsWrite _⟩
  generalize hhead : (e.drainHeadBytes input).2 = e' at hread
  refine handleHandshake_cases cfg hhead ((converses_close _).unanswered hread)
    ((converses_armHandshakeInterest _ _ _).unanswered hread)
    (fun _ => .ends (fun h => by cases h) hread.emits rfl) ?_ fun key => ?_
  · have hsent :=
      (hread.trans (sends_queue _ (.http cfg.headerFieldsTooLargeResponse) now)).silent
      (sends_flushAndArm _ input.site now)
    exact .ends (fun h => by cases h) hsent.emits rfl
  · dsimp only
    rw [if_neg (by rw [hecho]; exact Bool.false_ne_true)]
    exact shakes_establish input.upgrade gen input.site now
      (hread.emits.queue (.http (cfg.acceptResponse key)) now) rfl
      (hread.session.trans hsession) hread.pending

/-! ## Both -/

/-- What a handler may do with a connection, by where it is in its protocol. -/
def Outcome (e : WorkerEntry) (items : List Item) (r : Handled) : Prop :=
  match e.state with
  | .handshaking => e.Shakes items r
  | .opened => e.Converses items r

variable {cfg : WorkerConfig} (hecho : cfg.echo = false) {e : WorkerEntry}
  (hsession : e.session = true → e.state = .opened)

include hecho hsession

theorem outcome_handleReadable (gen : BitVec 64) (input : Input) (now : Nat) :
    e.Outcome (e.readableItems cfg input now) (e.handleReadable cfg gen input now) := by
  rw [Outcome, readableItems, handleReadable]
  cases hstate : e.state with
  | handshaking =>
    refine shakes_handleHandshake hecho gen input now (Bool.eq_false_iff.mpr fun h => ?_)
    rw [hsession h] at hstate
    cases hstate
  | opened => exact converses_handleFrames hecho e input now

theorem outcome_handleWritable (gen : BitVec 64) (input : Input) (now : Nat) :
    e.Outcome (e.writableItems cfg input) (e.handleWritable cfg gen input now) := by
  rw [Outcome, writableItems, handleWritable]
  cases hstate : e.state with
  | handshaking =>
    refine shakes_handleHandshake hecho gen input now (Bool.eq_false_iff.mpr fun h => ?_)
    rw [hsession h] at hstate
    cases hstate
  | opened => exact converses_flushAndArm e input.site now

end WorkerEntry

end Pylon.Transport
