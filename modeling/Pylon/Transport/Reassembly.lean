import Pylon.Lib.Reassembly
import Pylon.Transport.Billing
import Pylon.Transport.Delivery

/-!
# Messages of a session

`dispatch_frames` puts a fragmented text message together in `Entry::fragment`, which
is carried from batch to batch, and checks `max_message_bytes` at every fragment.

What a frame does to the fragment is a step of the bounded buffer of
`Pylon.Lib.Reassembly`, and what it hands to the codec is what the step delivers
(`Turn.Takes`). The frames of a connection come in any batches, with drains and the work
of all other threads in between.
-/

namespace Pylon.Transport

open Pylon.Channel Pylon.Lib Pylon.Protocol Pylon.Redis Pylon.Ws

variable {A Value : Type}

/-! ## What is billed -/

namespace Connection

theorem queue_reassemblyBytes (c : Connection) (frame : Bytes) (now : Nat) :
    (c.queue frame now).1.reassemblyBytes = c.reassemblyBytes := by
  obtain ⟨evicted, kept, -, heq⟩ := c.queue_spec frame now
  rw [heq]
  rfl

theorem Sheds.reassemblyBytes {c c' : Connection} (h : c.Sheds c') :
    c'.reassemblyBytes = c.reassemblyBytes := by
  obtain ⟨len, h⟩ := h
  exact h.reassemblyBytes

theorem gatherBatch_reassemblyBytes (c : Connection) (maxBytes now : Nat) :
    (c.gatherBatch maxBytes now).reassemblyBytes = c.reassemblyBytes :=
  Sheds.reassemblyBytes (c := { c with writevBatch := [] })
    (gatherLoop_sheds maxBytes c.outCursor now c.out.length 0 _)

end Connection

theorem flushCoalesced_reassemblyBytes (maxBytes now : Nat) (script : List WriteOutcome)
    (c : Connection) :
    (flushCoalesced maxBytes now script c).conn.reassemblyBytes = c.reassemblyBytes := by
  have hoffer (c : Connection) :
      ((c.vet now).gatherBatch maxBytes now).reassemblyBytes = c.reassemblyBytes :=
    ((c.vet now).gatherBatch_reassemblyBytes maxBytes now).trans (c.vet_sheds now).reassemblyBytes
  refine flushCoalesced_rule (motive := fun c r => r.conn.reassemblyBytes = c.reassemblyBytes)
    ?_ ?_ ?_ ?_ script c
  · intro c _
    exact (c.vet_sheds now).reassemblyBytes
  · intro c _ _ _
    exact hoffer c
  · intro c r _ ih
    exact ih.trans (hoffer c)
  · intro c n r _ g offered _ _ ih
    exact ih.trans ((g.applyWritten_sheds _ _).reassemblyBytes.trans (hoffer c))

/-- The fragment, as the library has it. -/
def Fragment.buffer : Option Fragment → Buffer UInt8
  | none => .idle
  | some (.text buf) => .text buf
  | some .oversize => .oversize
  | some .binary => .binary

namespace Entry

/-- The connection is billed what its fragment holds. -/
def Billed (e : Entry Value) : Prop :=
  e.conn.reassemblyBytes = (Fragment.buffer e.fragment).held.length

/-- The fragment and its billing are as they were. -/
structure Rests (e e' : Entry Value) : Prop where
  fragment : e'.fragment = e.fragment
  billing : e'.conn.reassemblyBytes = e.conn.reassemblyBytes

variable (e : Entry Value)

theorem Rests.refl : e.Rests e := ⟨rfl, rfl⟩

theorem Rests.trans {e e' e'' : Entry Value} (h : e.Rests e') (h' : e'.Rests e'') : e.Rests e'' :=
  ⟨h'.fragment.trans h.fragment, h'.billing.trans h.billing⟩

theorem rests_queueFrame (opcode : OpCode) (payload : Bytes) (now : Nat) :
    e.Rests (e.queueFrame opcode payload now) :=
  ⟨rfl, e.conn.queue_reassemblyBytes _ now⟩

theorem rests_flushAndArm (sink : Sink) (now : Nat) : e.Rests (e.flushAndArm sink now).1 := by
  have hflush : (flushPlain e.conn sink.script now).conn.reassemblyBytes = e.conn.reassemblyBytes :=
    flushCoalesced_reassemblyBytes _ now sink.script e.conn
  unfold flushAndArm
  dsimp only
  split
  · exact ⟨rfl, hflush⟩
  · split
    · exact ⟨rfl, hflush⟩
    · exact ⟨rfl, hflush⟩

theorem billed_setFragment (fragment : Option Fragment) : (e.setFragment fragment).Billed := by
  show (e.setFragment fragment).conn.reassemblyBytes = (Fragment.buffer fragment).held.length
  cases fragment with
  | none => rfl
  | some fragment => cases fragment <;> rfl

end Entry

/-! ## One frame -/

/-- What a frame is to the messages of its connection. -/
def Frame.piece (f : Frame) : Piece UInt8 :=
  match f.opcode with
  | .text => .text f.fin f.payload
  | .binary => .binary f.fin
  | .continuation => .continuation f.fin f.payload
  | .ping | .pong => .control
  | .close => .close

namespace Turn

variable (ad : Adapter A Value) (out : Outside Value) (maxMessageBytes : Nat)

def isUtf8 (payload : Bytes) : Bool := (out.fromUtf8 payload).isSome

/-- The text that `dispatch_frames` hands to the codec for one frame. -/
def handed (fragment : Option Fragment) (f : Frame) : Option String :=
  match f.opcode, fragment with
  | .text, none => if f.fin then out.fromUtf8 f.payload else none
  | .continuation, some (.text buf) =>
    if maxMessageBytes < buf.length + f.payload.length then none
    else if f.fin then out.fromUtf8 (buf ++ f.payload)
    else none
  | _, _ => none

/-- What the codec makes of a text, if it gets one. -/
def obey (t : Turn A Value) (text : Option String) (m : Moment Value) : Scope A Value :=
  match text.bind out.decode with
  | some cmd => t.scope.dispatch ad out cmd m.inputs
  | none => t.scope

/-- The frame that left `r` handed `text` to the codec, and its verdict on the message in
progress is `verdict`. A connection that goes on is lost only if `lost`. -/
structure Takes (t : Turn A Value) (m : Moment Value) (lost : Prop) (text : Option String)
    (verdict : Option (Buffer UInt8 × Option Bytes)) (r : Turn A Value × Action) : Prop where
  scope : r.1.scope = t.obey ad out text m
  handed : text = (verdict.bind (·.2)).bind out.fromUtf8
  fails : verdict = none → r.2 = .close
  goesOn : ∀ v, verdict = some v → Fragment.buffer r.1.entry.fragment = v.1 ∧
    (t.entry.Billed → r.1.entry.Billed) ∧ (r.2 = .close → lost)

variable {ad out} {t : Turn A Value} {m : Moment Value} {lost : Prop} {e : Entry Value}

theorem Takes.failed (h : Entry.SameSession t.entry e) :
    Takes ad out t m lost none none ({ t with entry := e }, .close) := by
  obtain ⟨conn, fragment, rfl⟩ := h
  exact ⟨rfl, rfl, fun _ => rfl, fun _ hv => (by cases hv)⟩

/-- The message in progress may change, but nothing is handed over. -/
theorem Takes.silent {action : Action} (h : Entry.SameSession t.entry e)
    (hbilled : t.entry.Billed → e.Billed) (hlost : action = .close → lost) :
    Takes ad out t m lost none (some (Fragment.buffer e.fragment, none))
      ({ t with entry := e }, action) := by
  obtain ⟨conn, fragment, rfl⟩ := h
  refine ⟨rfl, rfl, fun hv => (by cases hv), fun v hv => ?_⟩
  cases hv
  exact ⟨rfl, hbilled, hlost⟩

theorem Takes.setFragment (fragment : Option Fragment) :
    Takes ad out t m lost none (some (Fragment.buffer fragment, none))
      ({ t with entry := t.entry.setFragment fragment }, .keep) :=
  .silent (.setFragment _ _) (fun _ => Entry.billed_setFragment _ _) fun h => by cases h

/-- A whole text message, with none in progress any more. -/
theorem Takes.message (h : Entry.SameSession t.entry e) (hidle : e.fragment = none)
    (hbilled : t.entry.Billed → e.Billed) (payload : Bytes) :
    Takes ad out t m lost (out.fromUtf8 payload) (deliver (isUtf8 out) .idle payload)
      ({ t with entry := e }.dispatchTextMessage ad out payload m) := by
  unfold dispatchTextMessage deliver isUtf8
  cases hutf8 : out.fromUtf8 payload with
  | none => exact .failed (h.trans (.fail _ _ _ _))
  | some text =>
    have hscope : ({ t with entry := e } : Turn A Value).scope = t.scope := by
      obtain ⟨conn, fragment, rfl⟩ := h
      rfl
    dsimp only
    cases hcmd : out.decode text with
    | none =>
      refine ⟨?_, hutf8.symm, fun hv => (by cases hv), fun v hv => ?_⟩
      · rw [obey, Option.bind_some, hcmd]
        exact hscope
      · cases hv
        exact ⟨congrArg _ hidle, hbilled, fun hclose => (by cases hclose)⟩
    | some =>
      refine ⟨?_, hutf8.symm, fun hv => (by cases hv), fun v hv => ?_⟩
      · rw [obey, Option.bind_some, hcmd, ← hscope]
        rfl
      · cases hv
        exact ⟨congrArg _ hidle, hbilled, fun hclose => (by cases hclose)⟩

theorem buffer_openTextFragment (payload : Bytes) :
    Fragment.buffer (some (openTextFragment maxMessageBytes payload)) =
      .hold maxMessageBytes payload := by
  unfold openTextFragment
  split
  next hlong => exact (Buffer.hold_of_lt _ hlong).symm
  next hshort => exact (Buffer.hold_of_le _ (Nat.not_lt.mp hshort)).symm

/-- The answer to a Ping could not be flushed. -/
def PongLost (e : Entry Value) (f : Frame) (m : Moment Value) : Prop :=
  f.opcode = .ping ∧ ((e.queueFrame .pong f.payload m.now).flushAndArm m.sink m.now).2 = .close

theorem Takes.violation (reason : String) :
    Takes ad out t m lost none none
      ({ t with entry := t.entry.closeFragmentViolation reason m }, .close) :=
  .failed (.fail _ _ _ _)

theorem Takes.same :
    Takes ad out t m lost none (some (Fragment.buffer t.entry.fragment, none)) (t, .keep) :=
  .silent (.refl _) id fun h => by cases h

/-- A fragmented message goes on in the entry it was taken out of. -/
theorem Takes.put (fragment : Option Fragment) :
    Takes ad out t m lost none (some (Fragment.buffer fragment, none))
      ({ t with entry := (t.entry.setFragment none).setFragment fragment }, .keep) :=
  .silent ((Entry.SameSession.setFragment _ _).trans (.setFragment _ _))
    (fun _ => Entry.billed_setFragment _ _) fun h => by cases h

section

variable (ad out t m lost)

/-- The frame is one step of the bounded buffer. -/
def Steps (f : Frame) : Prop :=
  Takes ad out t m lost (handed out maxMessageBytes t.entry.fragment f)
    ((Fragment.buffer t.entry.fragment).step maxMessageBytes (isUtf8 out) f.piece)
    (t.dispatchFrame ad out maxMessageBytes f m)

end

variable {f : Frame}

theorem steps_text (hop : f.opcode = .text) : Steps ad out maxMessageBytes t m lost f := by
  simp only [Steps, dispatchFrame, handed, Frame.piece, hop]
  cases hfragment : t.entry.fragment with
  | none =>
    cases f.fin with
    | true => exact .message (.refl t.entry) hfragment id f.payload
    | false =>
      have hopened : Takes ad out t m lost none
          (some (Fragment.buffer (some (openTextFragment maxMessageBytes f.payload)), none)) _ :=
        .setFragment _
      rw [buffer_openTextFragment] at hopened
      exact hopened
  | some fragment =>
    cases fragment with
    | text | oversize | binary => exact .violation _

theorem steps_binary (hop : f.opcode = .binary) : Steps ad out maxMessageBytes t m lost f := by
  have hsame : Takes ad out t m lost none _ _ := .same
  simp only [Steps, dispatchFrame, handed, Frame.piece, hop]
  cases hfragment : t.entry.fragment with
  | none =>
    cases f.fin with
    | true =>
      rw [hfragment] at hsame
      exact hsame
    | false => exact .setFragment (some .binary)
  | some fragment =>
    cases fragment with
    | text | oversize => exact .violation _
    | binary =>
      rw [hfragment] at hsame
      exact hsame

/-- The bound is checked before a fragment is appended. -/
theorem steps_append {buf : Bytes} (hop : f.opcode = .continuation)
    (hfragment : t.entry.fragment = some (.text buf)) :
    Steps ad out maxMessageBytes t m lost f := by
  simp only [Steps, dispatchFrame, handed, Frame.piece, hop, hfragment, Fragment.buffer]
  by_cases hlong : maxMessageBytes < buf.length + f.payload.length
  · have hlength : maxMessageBytes < (buf ++ f.payload).length := by
      rw [List.length_append]
      exact hlong
    rw [if_pos hlong, if_pos hlong]
    cases f.fin with
    | true =>
      rw [Buffer.step, if_pos hlong]
      exact .setFragment none
    | false =>
      rw [Buffer.step, Buffer.hold_of_lt _ hlength]
      exact .put (some .oversize)
  · have hlength : (buf ++ f.payload).length ≤ maxMessageBytes := by
      rw [List.length_append]
      exact Nat.not_lt.mp hlong
    rw [if_neg hlong, if_neg hlong]
    cases f.fin with
    | true =>
      rw [Buffer.step, if_neg hlong]
      exact .message (.setFragment _ _) rfl (fun _ => Entry.billed_setFragment _ _) _
    | false =>
      rw [Buffer.step, Buffer.hold_of_le _ hlength]
      exact .put (some (.text (buf ++ f.payload)))

theorem steps_continuation (hop : f.opcode = .continuation) :
    Steps ad out maxMessageBytes t m lost f := by
  cases hfragment : t.entry.fragment with
  | none =>
    simp only [Steps, dispatchFrame, handed, Frame.piece, hop, hfragment]
    exact .violation _
  | some fragment =>
    cases fragment with
    | text => exact steps_append maxMessageBytes hop hfragment
    | oversize =>
      simp only [Steps, dispatchFrame, handed, Frame.piece, hop, hfragment]
      cases f.fin with
      | true => exact .setFragment none
      | false => exact .put (some .oversize)
    | binary =>
      simp only [Steps, dispatchFrame, handed, Frame.piece, hop, hfragment]
      cases f.fin with
      | true => exact .setFragment none
      | false => exact .put (some .binary)

theorem steps_ping (hop : f.opcode = .ping) :
    Steps ad out maxMessageBytes t m (PongLost t.entry f m) f := by
  have hrests := (t.entry.rests_queueFrame .pong f.payload m.now).trans
    (Entry.rests_flushAndArm _ m.sink m.now)
  simp only [Steps, dispatchFrame, handed, Frame.piece, hop]
  rw [Buffer.step_control, ← hrests.fragment]
  refine .silent ((Entry.SameSession.queueFrame _ _ _ _).trans (.flushAndArm _ _ _))
    (fun hbilled => ?_) fun hclose => ⟨hop, hclose⟩
  rw [Entry.Billed, hrests.fragment, hrests.billing]
  exact hbilled

/-- One frame is one step of the bounded buffer. -/
theorem dispatchFrame_takes (t : Turn A Value) (f : Frame) (m : Moment Value) :
    Takes ad out t m (PongLost t.entry f m) (handed out maxMessageBytes t.entry.fragment f)
      ((Fragment.buffer t.entry.fragment).step maxMessageBytes (isUtf8 out) f.piece)
      (t.dispatchFrame ad out maxMessageBytes f m) := by
  cases hop : f.opcode with
  | text => exact steps_text maxMessageBytes hop
  | binary => exact steps_binary maxMessageBytes hop
  | continuation => exact steps_continuation maxMessageBytes hop
  | ping => exact steps_ping maxMessageBytes hop
  | pong =>
    simp only [dispatchFrame, handed, Frame.piece, hop]
    rw [Buffer.step_control]
    exact .same
  | close =>
    simp only [dispatchFrame, handed, Frame.piece, hop]
    rw [Buffer.step_close]
    exact .failed ((Entry.SameSession.queueFrame _ _ _ _).trans (.flushAndArm _ _ _))

end Turn

/-! ## Every run -/

theorem drainEvents_rests (out : Outside Value) (now : Nat) (events : List (ServerEvent Value))
    (d : Drain Value) : d.entry.Rests (drainEvents out now events d).entry := by
  induction events generalizing d with
  | nil => exact .refl _
  | cons ev _ ih =>
    cases ev with
    | close => exact ⟨rfl, Connection.queue_reassemblyBytes _ _ _⟩
    | _ =>
      refine Entry.Rests.trans ?_ (ih _)
      exact ⟨rfl, Connection.queue_reassemblyBytes _ _ _⟩

theorem drainSession_rests (out : Outside Value) (e : Entry Value) (m : Moment Value) :
    e.Rests (drainSession out e m).entry := by
  have hevents := drainEvents_rests out m.now e.ctx.mailbox.events { entry := e }
  unfold drainSession
  dsimp only
  split
  · exact hevents.trans (Entry.rests_flushAndArm _ _ _)
  · exact hevents

namespace Node

variable (ad : Adapter A Value) (out : Outside Value) (maxMessageBytes : Nat)

/-- The frames a connection gets: a frame after the end is not for it. -/
def taken (sid : Text) (n : Node A Value) : NodeAct A Value → List Frame
  | .own (.frame sid' f _) => if sid' = sid ∧ n.entries.hexists sid then [f] else []
  | _ => []

/-- What a step hands to the codec of a connection. -/
def handed (sid : Text) (n : Node A Value) : NodeAct A Value → List String
  | .own (.frame sid' f _) =>
    if sid' = sid then
      ((n.entries.hget sid).bind fun e => Turn.handed out maxMessageBytes e.fragment f).toList
    else []
  | _ => []

variable {ad out maxMessageBytes}

/-- Whatever the connection's entry is after a change of it that leaves its fragment alone. -/
def Rests (n n' : Node A Value) (sid : Text) : Prop :=
  ∀ e', n'.entries.hget sid = some e' → ∃ e, n.entries.hget sid = some e ∧ e.Rests e'

theorem Rests.refl (n : Node A Value) (sid : Text) : n.Rests n sid :=
  fun e' hlive => ⟨e', hlive, .refl e'⟩

theorem Rests.trans {n n' n'' : Node A Value} {sid : Text} (h : n.Rests n' sid)
    (h' : n'.Rests n'' sid) : n.Rests n'' sid := by
  intro e'' hlive
  obtain ⟨e', hlive', hrests'⟩ := h' e'' hlive
  obtain ⟨e, hlive, hrests⟩ := h e' hlive'
  exact ⟨e, hlive, hrests.trans hrests'⟩

theorem rests_settle {n : Node A Value} {sid : Text} {e : Entry Value} {t : Turn A Value}
    (hlive : n.entries.hget sid = some e) (h : e.Rests t.entry) : n.Rests (n.settle sid t) sid := by
  intro e' hlive'
  rw [hget_settle, if_pos rfl] at hlive'
  cases hlive'
  exact ⟨e, hlive, h⟩

theorem rests_remove (n : Node A Value) (sid : Text) : n.Rests (n.remove ad sid) sid := by
  intro e' hlive
  rw [hget_remove, if_pos rfl] at hlive
  cases hlive

theorem rests_reconcile (n : Node A Value) (sid : Text) : n.Rests (n.reconcile sid) sid := by
  intro e' hlive
  rw [hget_reconcile, if_pos rfl] at hlive
  obtain ⟨e, hbefore, rfl⟩ := Option.map_eq_some_iff.mp hlive
  exact ⟨e, hbefore, rfl, rfl⟩

theorem rests_send (n : Node A Value) (sid : Text) (event : ServerEvent Value) :
    n.Rests (n.send sid event) sid := by
  intro e' hlive
  rw [hget_send, if_pos rfl] at hlive
  obtain ⟨e, hbefore, rfl⟩ := Option.map_eq_some_iff.mp hlive
  exact ⟨e, hbefore, rfl, rfl⟩

variable (ad out maxMessageBytes)

/-- A step other than a frame of the connection leaves its fragment alone, or opens the
connection. -/
theorem rests_nodeStep (n : Node A Value) (sid : Text) (a : NodeAct A Value)
    (hother : ∀ f m, a ≠ .own (.frame sid f m)) :
    n.Rests (n.nodeStep ad out maxMessageBytes a) sid ∨
      sid ∉ n.used ∧ ∃ opening : Opening, (n.nodeStep ad out maxMessageBytes a).entries.hget sid =
        some (opening.entry sid) := by
  by_cases htarget : a.target = some sid
  · cases a with
    | adapter => cases htarget
    | send _ event =>
      cases htarget
      exact .inl (n.rests_send sid event)
    | own a =>
      unfold nodeStep step
      cases a with
      | establish _ opening =>
        cases htarget
        dsimp only
        split
        · exact .inl (.refl n sid)
        next hfresh => exact .inr ⟨hfresh, opening, Hash.hget_hset_self _ _ _⟩
      | frame _ f m =>
        cases htarget
        exact absurd rfl (hother f m)
      | drain _ m =>
        cases htarget
        dsimp only
        split
        · exact .inl (.refl n sid)
        next e hlive =>
          have hsettle := rests_settle (t := n.turn (drainSession out e m).entry) hlive
            (drainSession_rests out e m)
          split
          · exact .inl (hsettle.trans (rests_reconcile _ _))
          · exact .inl (hsettle.trans (rests_remove _ _))
      | dirty _ m =>
        cases htarget
        dsimp only
        split
        · exact .inl (.refl n sid)
        next e hlive =>
          have hsettle := rests_settle (t := n.turn (drainSession out e m).entry) hlive
            (drainSession_rests out e m)
          split
          · exact .inl (.refl n sid)
          · split
            · split
              · exact .inl (hsettle.trans (rests_reconcile _ _))
              · exact .inl hsettle
            · exact .inl (hsettle.trans (rests_remove _ _))
      | post _ event =>
        cases htarget
        dsimp only
        split
        · exact .inl (.refl n sid)
        · exact .inl (n.rests_send sid event)
      | close =>
        cases htarget
        exact .inl (n.rests_remove sid)
  · refine .inl fun e' hlive => ⟨e', ?_, .refl e'⟩
    rwa [hget_nodeStep_ne ad out maxMessageBytes n htarget] at hlive

/-- The connection's fragment is what the reference has in progress, as far as it fits;
before the connection opens there is nothing in progress. -/
structure Assembles (maxMessageBytes : Nat) (n : Node A Value) (sid : Text)
    (s : Assembly UInt8) : Prop where
  fragment : ∀ e, n.entries.hget sid = some e →
    Fragment.buffer e.fragment = s.bounded maxMessageBytes
  billed : ∀ e, n.entries.hget sid = some e → e.Billed
  unopened : sid ∉ n.used → s = .idle

/-- Only a frame of the connection goes on with its message. -/
theorem Assembles.other {n : Node A Value} {sid : Text} {s : Assembly UInt8}
    (h : n.Assembles maxMessageBytes sid s) {a : NodeAct A Value}
    (hother : ∀ f m, a ≠ .own (.frame sid f m)) :
    (n.nodeStep ad out maxMessageBytes a).Assembles maxMessageBytes sid s := by
  rcases n.rests_nodeStep ad out maxMessageBytes sid a hother with
    hrests | ⟨hfresh, opening, hopened⟩
  · refine ⟨fun e' hlive => ?_, fun e' hlive => ?_, fun hfresh => h.unopened fun hin => ?_⟩
    · obtain ⟨e, hbefore, hsame⟩ := hrests e' hlive
      rw [hsame.fragment]
      exact h.fragment e hbefore
    · obtain ⟨e, hbefore, hsame⟩ := hrests e' hlive
      rw [Entry.Billed, hsame.fragment, hsame.billing]
      exact h.billed e hbefore
    · exact hfresh (n.used_nodeStep ad out maxMessageBytes hin a)
  · obtain rfl := h.unopened hfresh
    refine ⟨fun e' hlive => ?_, fun e' hlive => ?_, fun _ => rfl⟩
    · rw [hopened] at hlive
      cases hlive
      rfl
    · rw [hopened] at hlive
      cases hlive
      rfl

variable {n : Node A Value} {sid : Text} {s : Assembly UInt8} {e : Entry Value} {f : Frame}

theorem step_frame_keep (hlive : n.entries.hget sid = some e) {m : Moment Value}
    (h : ((n.turn e).dispatchFrame ad out maxMessageBytes f m).2 = .keep) :
    n.step ad out maxMessageBytes (.frame sid f m) =
      n.settle sid ((n.turn e).dispatchFrame ad out maxMessageBytes f m).1 := by
  simp only [step, hlive, h]

theorem step_frame_close (hlive : n.entries.hget sid = some e) {m : Moment Value}
    (h : ((n.turn e).dispatchFrame ad out maxMessageBytes f m).2 = .close) :
    (n.step ad out maxMessageBytes (.frame sid f m)).entries.hget sid = none := by
  simp only [step, hlive, h]
  exact (hget_remove ad _ sid sid).trans (if_pos rfl)

/-- One frame of an open connection is one step of the reference. -/
theorem Assembles.takes (h : n.Assembles maxMessageBytes sid s)
    (hlive : n.entries.hget sid = some e)
    (f : Frame) (m : Moment Value) :
    Turn.Takes ad out (n.turn e) m (Turn.PongLost e f m)
      (Turn.handed out maxMessageBytes e.fragment f)
      ((s.step maxMessageBytes (Turn.isUtf8 out) f.piece).map
        fun r => (r.1.bounded maxMessageBytes, r.2))
      ((n.turn e).dispatchFrame ad out maxMessageBytes f m) := by
  have htakes : Turn.Takes ad out (n.turn e) m _ _ _ _ :=
    Turn.dispatchFrame_takes maxMessageBytes (n.turn e) f m
  rw [show (n.turn e).entry = e from rfl, h.fragment e hlive, Buffer.step_bounded] at htakes
  exact htakes

theorem Assembles.frame_fails (h : n.Assembles maxMessageBytes sid s)
    (hlive : n.entries.hget sid = some e) (m : Moment Value)
    (hstep : s.step maxMessageBytes (Turn.isUtf8 out) f.piece = none) :
    (n.step ad out maxMessageBytes (.frame sid f m)).entries.hget sid = none ∧
      Turn.handed out maxMessageBytes e.fragment f = none := by
  have htakes := h.takes ad out maxMessageBytes hlive f m
  rw [hstep] at htakes
  exact ⟨step_frame_close ad out maxMessageBytes hlive (htakes.fails rfl), htakes.handed⟩

/-- A piece the assembly takes is kept, or completes the message handed on. -/
theorem Assembles.frame_goesOn (h : n.Assembles maxMessageBytes sid s)
    (hlive : n.entries.hget sid = some e) (hused : sid ∈ n.used) (m : Moment Value)
    {s' : Assembly UInt8} {message : Option Bytes}
    (hstep : s.step maxMessageBytes (Turn.isUtf8 out) f.piece = some (s', message)) :
    (n.step ad out maxMessageBytes (.frame sid f m)).Assembles maxMessageBytes sid s' ∧
      Turn.handed out maxMessageBytes e.fragment f = message.bind out.fromUtf8 ∧
      ((n.step ad out maxMessageBytes (.frame sid f m)).entries.hget sid ≠ none ∨
        Turn.PongLost e f m) := by
  have htakes := h.takes ad out maxMessageBytes hlive f m
  rw [hstep] at htakes
  obtain ⟨hfragment, hbilled, hlost⟩ := htakes.goesOn _ rfl
  have hopened : sid ∉ (n.step ad out maxMessageBytes (.frame sid f m)).used → s' = .idle :=
    fun hfresh => absurd (n.used_nodeStep ad out maxMessageBytes hused (.own (.frame sid f m)))
      hfresh
  refine ⟨?_, htakes.handed, ?_⟩
  · cases haction : ((n.turn e).dispatchFrame ad out maxMessageBytes f m).2 with
    | keep =>
      have hentry : (n.step ad out maxMessageBytes (.frame sid f m)).entries.hget sid =
          some ((n.turn e).dispatchFrame ad out maxMessageBytes f m).1.entry := by
        rw [step_frame_keep ad out maxMessageBytes hlive haction, hget_settle, if_pos rfl]
      refine ⟨fun e' hlive' => ?_, fun e' hlive' => ?_, hopened⟩
      · rw [hentry] at hlive'
        cases hlive'
        exact hfragment
      · rw [hentry] at hlive'
        cases hlive'
        exact hbilled (h.billed e hlive)
    | close =>
      have hgone := step_frame_close ad out maxMessageBytes hlive haction
      refine ⟨fun e' hlive' => ?_, fun e' hlive' => ?_, hopened⟩
      · rw [hgone] at hlive'
        cases hlive'
      · rw [hgone] at hlive'
        cases hlive'
  · cases haction : ((n.turn e).dispatchFrame ad out maxMessageBytes f m).2 with
    | keep =>
      rw [step_frame_keep ad out maxMessageBytes hlive haction, hget_settle, if_pos rfl]
      exact .inl (Option.some_ne_none _)
    | close => exact .inr (hlost haction)

theorem taken_other {a : NodeAct A Value} (hother : ∀ f m, a ≠ .own (.frame sid f m)) :
    taken sid n a = [] ∧ handed out maxMessageBytes sid n a = [] := by
  unfold taken handed
  split
  next sid' f m =>
    have hne : sid' ≠ sid := by
      rintro rfl
      exact hother f m rfl
    rw [if_neg fun h => hne h.1, if_neg hne]
    exact ⟨rfl, rfl⟩
  next => exact ⟨rfl, rfl⟩

theorem Filed.nodeStep (h : n.Filed) (a : NodeAct A Value) :
    (n.nodeStep ad out maxMessageBytes a).Filed := by
  cases a with
  | own a => exact h.step ad out maxMessageBytes n a
  | send sid event => exact h.send sid event
  | adapter => exact h

theorem gone_taken (hgone : n.entries.hget sid = none) (a : NodeAct A Value) :
    taken sid n a = [] ∧ handed out maxMessageBytes sid n a = [] := by
  unfold taken handed
  split
  · simp [hgone]
  · exact ⟨rfl, rfl⟩

/-- Nothing is taken from a connection that is gone. -/
theorem gone_run (hused : sid ∈ n.used) (hgone : n.entries.hget sid = none)
    (as : List (NodeAct A Value)) :
    (run (nodeStep ad out maxMessageBytes) n as).entries.hget sid = none ∧
      outputs (nodeStep ad out maxMessageBytes) (taken sid) n as = [] ∧
      outputs (nodeStep ad out maxMessageBytes) (handed out maxMessageBytes sid) n as = [] := by
  induction as generalizing n with
  | nil => exact ⟨hgone, rfl, rfl⟩
  | cons a _ ih =>
    obtain ⟨htaken, hhanded⟩ := gone_taken out maxMessageBytes hgone a
    obtain ⟨hend, hframes, htexts⟩ := ih (n.used_nodeStep ad out maxMessageBytes hused a)
      (gone_nodeStep ad out maxMessageBytes hused hgone a)
    rw [outputs, outputs, htaken, hhanded, hframes, htexts]
    exact ⟨hend, rfl, rfl⟩

/-- Along a run, what is handed over is what the reference makes of the frames taken. -/
theorem Assembles.run (hfiled : n.Filed) (h : n.Assembles maxMessageBytes sid s)
    (as : List (NodeAct A Value)) :
    outputs (nodeStep ad out maxMessageBytes) (handed out maxMessageBytes sid) n as =
        (s.messages maxMessageBytes (Turn.isUtf8 out)
          ((outputs (nodeStep ad out maxMessageBytes) (taken sid) n as).map Frame.piece)).filterMap
            out.fromUtf8 ∧
      ∀ e, (Lib.run (nodeStep ad out maxMessageBytes) n as).entries.hget sid = some e →
        ∃ s', s.after maxMessageBytes (Turn.isUtf8 out)
            ((outputs (nodeStep ad out maxMessageBytes) (taken sid) n as).map Frame.piece) =
              some s' ∧
          (Lib.run (nodeStep ad out maxMessageBytes) n as).Assembles maxMessageBytes sid s' := by
  induction as generalizing n s with
  | nil => exact ⟨rfl, fun e hlive => ⟨s, rfl, h⟩⟩
  | cons a as ih =>
    have hfiled' := hfiled.nodeStep ad out maxMessageBytes a
    by_cases hown : ∃ f m, a = .own (.frame sid f m)
    · obtain ⟨f, m, rfl⟩ := hown
      rw [outputs, outputs, run_cons]
      cases hlive : n.entries.hget sid with
      | none =>
        have hsame : n.nodeStep ad out maxMessageBytes (.own (.frame sid f m)) = n := by
          simp [nodeStep, step, hlive]
        have htaken : taken sid n (.own (.frame sid f m)) = [] := by simp [taken, hlive]
        have hhanded : handed out maxMessageBytes sid n (.own (.frame sid f m)) = [] := by
          simp [handed, hlive]
        rw [hsame, htaken, hhanded]
        exact ih hfiled h
      | some e =>
        have hused : sid ∈ n.used := (hfiled sid e hlive).2
        have htaken : taken sid n (.own (.frame sid f m)) = [f] := by simp [taken, hlive]
        have hhanded : handed out maxMessageBytes sid n (.own (.frame sid f m)) =
            (Turn.handed out maxMessageBytes e.fragment f).toList := by simp [handed, hlive]
        rw [htaken, hhanded, List.singleton_append, List.map_cons, Assembly.messages,
          Assembly.after]
        cases hstep : s.step maxMessageBytes (Turn.isUtf8 out) f.piece with
        | none =>
          obtain ⟨hgone, hnothing⟩ := h.frame_fails ad out maxMessageBytes hlive m hstep
          obtain ⟨hend, -, htexts⟩ := gone_run ad out maxMessageBytes
            (n.used_nodeStep ad out maxMessageBytes hused (.own (.frame sid f m))) hgone as
          refine ⟨?_, fun e' hlive' => ?_⟩
          · rw [hnothing, htexts]
            rfl
          · rw [hend] at hlive'
            cases hlive'
        | some r =>
          obtain ⟨s', message⟩ := r
          obtain ⟨hnext, hmessage, -⟩ := h.frame_goesOn ad out maxMessageBytes hlive hused m hstep
          obtain ⟨htexts, hafter⟩ := ih hfiled' hnext
          refine ⟨?_, hafter⟩
          rw [hmessage, htexts, List.filterMap_append]
          cases message with
          | none => rfl
          | some payload =>
            cases hutf8 : out.fromUtf8 payload <;> simp [hutf8]
    · have hother : ∀ f m, a ≠ .own (.frame sid f m) := fun f m ha => hown ⟨f, m, ha⟩
      obtain ⟨htaken, hhanded⟩ := taken_other (n := n) out maxMessageBytes hother
      rw [outputs, outputs, htaken, hhanded]
      exact ih hfiled' (h.other ad out maxMessageBytes hother)

end Node

/-- Over every run, whatever the batches and whatever happens in between, the codec of a
connection is handed the messages the reference makes of its frames. While the
connection is open the reference has not failed, the bytes held for reassembly are
billed and within the bound, and the next frame ends the connection if and only if the
reference fails at it, or the answer to a Ping cannot be written. -/
theorem reassembly_exact (ad : Adapter A Value) (out : Outside Value) (maxMessageBytes : Nat)
    (adapter : A) (as : List (NodeAct A Value)) (sid : Text) :
    let n := run (Node.nodeStep ad out maxMessageBytes) { adapter } as
    let frames := outputs (Node.nodeStep ad out maxMessageBytes) (Node.taken sid) { adapter } as
    outputs (Node.nodeStep ad out maxMessageBytes) (Node.handed out maxMessageBytes sid)
        { adapter } as =
      (Assembly.idle.messages maxMessageBytes (Turn.isUtf8 out) (frames.map Frame.piece)).filterMap
        out.fromUtf8 ∧
    ∀ e, n.entries.hget sid = some e →
      e.conn.reassemblyBytes = (Fragment.buffer e.fragment).held.length ∧
      e.conn.reassemblyBytes ≤ maxMessageBytes ∧
      ∃ s, Assembly.idle.after maxMessageBytes (Turn.isUtf8 out) (frames.map Frame.piece) = some s ∧
        ∀ f m,
          let r := (n.turn e).dispatchFrame ad out maxMessageBytes f m
          let n' := n.step ad out maxMessageBytes (.frame sid f m)
          r.1.scope = (n.turn e).obey ad out (Turn.handed out maxMessageBytes e.fragment f) m ∧
          (f.opcode = .ping →
            r = ({ n.turn e with
                entry := ((e.queueFrame .pong f.payload m.now).flushAndArm m.sink m.now).1 },
              ((e.queueFrame .pong f.payload m.now).flushAndArm m.sink m.now).2)) ∧
          (s.step maxMessageBytes (Turn.isUtf8 out) f.piece = none →
            n'.entries.hget sid = none) ∧
          (s.step maxMessageBytes (Turn.isUtf8 out) f.piece ≠ none →
            n'.entries.hget sid ≠ none ∨ Turn.PongLost e f m) := by
  intro n frames
  have hfiled : ({ adapter } : Node A Value).Filed := by
    intro sid e hlive
    cases hlive
  have hstart : ({ adapter } : Node A Value).Assembles maxMessageBytes sid .idle :=
    ⟨fun e hlive => (by cases hlive), fun e hlive => (by cases hlive), fun _ => rfl⟩
  obtain ⟨htexts, hafter⟩ := hstart.run ad out maxMessageBytes hfiled as
  refine ⟨htexts, fun e hlive => ?_⟩
  obtain ⟨s, hs, h⟩ := hafter e hlive
  have hfiled' : n.Filed :=
    run_invariant (fun n a (h : n.Filed) => h.nodeStep ad out maxMessageBytes a) hfiled as
  refine ⟨h.billed e hlive, ?_, s, hs, fun f m => ⟨?_, ?_, ?_, ?_⟩⟩
  · rw [h.billed e hlive, h.fragment e hlive]
    exact Buffer.held_bounded maxMessageBytes s
  · exact (h.takes ad out maxMessageBytes hlive f m).scope
  · intro hping
    simp only [Turn.dispatchFrame, hping]
    rfl
  · exact fun hfails => (h.frame_fails ad out maxMessageBytes hlive m hfails).1
  · intro hgoes
    obtain ⟨⟨s', message⟩, hstep⟩ := Option.ne_none_iff_exists'.mp hgoes
    exact (h.frame_goesOn ad out maxMessageBytes hlive (hfiled' sid e hlive).2 m hstep).2.2

end Pylon.Transport
