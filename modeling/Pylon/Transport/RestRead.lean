import Pylon.Transport.RestWrite
import Pylon.Transport.TlsRead

/-!
# Reads of a TLS connection that serves REST

`TlsRestStream::poll_read` of `transport/rest.rs`, with `drain_tls_records` and
`take_in_pt`. Plaintext reaches the HTTP server from three places in turn: the head
the worker read before it handed the connection over, a stash of what one socket
read decrypted, and the session itself.

* **in order** — what was delivered and what is still to come, put together, is the
  prefix and the decrypted stream, however the records are cut and whatever sizes
  the caller reads in;
* **the end** — a session that has seen `close_notify` and has nothing left answers
  `Ok(0)`, which `poll_read` takes for "nothing yet" at its entry: it goes on to wait
  for the socket.
-/

namespace Pylon.Transport

open Lib

/-! ## Cursors -/

/-- A buffer and how far it has been read. -/
structure Cursor where
  bytes : Bytes := []
  pos : Nat := 0
  pos_le : pos ≤ bytes.length := by simp
  deriving DecidableEq, Repr

namespace Cursor

def left (c : Cursor) : Bytes := c.bytes.drop c.pos

/-- Hand out at most `cap` bytes; a buffer that is read to its end is dropped. -/
def take (cap : ℕ+) (c : Cursor) : Bytes × Cursor :=
  let out := c.left.take cap
  if h : c.bytes.length ≤ c.pos + out.length then (out, {})
  else (out, { c with pos := c.pos + out.length, pos_le := by omega })

def extend (c : Cursor) (more : Bytes) : Cursor where
  bytes := c.bytes ++ more
  pos := c.pos
  pos_le := by
    have := c.pos_le
    simp
    omega

@[simp] theorem left_extend (c : Cursor) (more : Bytes) : (c.extend more).left = c.left ++ more :=
  List.drop_append_of_le_length c.pos_le

theorem take_fst (cap : ℕ+) (c : Cursor) : (c.take cap).1 = c.left.take cap := by
  unfold take
  dsimp only
  split <;> rfl

theorem take_left (cap : ℕ+) (c : Cursor) : (c.take cap).1 ++ (c.take cap).2.left = c.left := by
  have hrest : (c.take cap).2.left = c.left.drop (c.left.take cap).length := by
    unfold take
    dsimp only
    split
    · next hend =>
      have hall : c.left.length ≤ (c.left.take cap).length := by
        rw [left, List.length_drop, ← left]
        omega
      rw [List.drop_eq_nil_of_le hall]
      rfl
    · exact List.drop_drop.symm
  rw [take_fst, hrest]
  exact (List.prefix_iff_eq_append.mp (List.take_prefix _ _))

end Cursor

/-! ## The session -/

/-- A session that may have failed; then it processes no more records. -/
structure Session extends Tls where
  fault : Bool := false
  deriving DecidableEq, Repr

/-- Decrypt the records up to the first one that fails. -/
def absorb : List Record → Tls → Tls × Bool
  | [], t => (t, true)
  | record :: records, t =>
    match t.decrypt record with
    | some t => absorb records t
    | none => (t, false)

namespace Session

/-- `process_new_packets` after `n` more bytes were read. -/
def processNewPackets (s : Session) (n : Nat) : Session × Bool :=
  if s.fault then ({ s with buffered := s.buffered + n }, false)
  else
    let d := deframe (s.buffered + n) s.records
    let r := absorb d.1 { s.toTls with records := d.2.1, buffered := d.2.2 }
    ({ toTls := r.1, fault := !r.2 }, r.2)

/-- `reader().read` into a chunk: bytes, none at the end, or `WouldBlock`. -/
def read (s : Session) : Option Bytes × Session :=
  if s.plaintext = [] then (if s.closeNotify then some [] else none, s)
  else (some (s.plaintext.take chunkSize), { s with plaintext := s.plaintext.drop chunkSize })

/-- `drain_tls_records`, for a socket read that `read_tls` takes in these moves. -/
def drainTlsRecords : List Move → Session → Bytes → Except IoErr Unit × Session × Bytes
  | [], s, plaintext => (.ok (), s, plaintext)
  | n :: moves, s, plaintext =>
    if plaintextLimit ≤ s.plaintext.length then (.error .plaintextFull, s, plaintext)
    -- `read_tls` answers `Ok(0)`
    else if s.closeNotify then (.ok (), s, plaintext)
    else
      match s.processNewPackets n.1 with
      | (s, false) => (.error .invalidData, s, plaintext)
      | (s, true) =>
        let (t, plaintext) := s.toTls.takePlaintext s.plaintext.length plaintext
        if t.closeNotify then (.ok (), { s with toTls := t }, plaintext)
        else drainTlsRecords moves { s with toTls := t } plaintext

end Session

/-! ## What a session still decrypts -/

/-- The plaintext of a stream of records, up to its end or to one that fails. -/
def decrypted : List Record → Bytes
  | [] => []
  | record :: records =>
    match record.content with
    | .app bytes => bytes ++ decrypted records
    | .closeNotify | .corrupt => []

theorem absorb_closed {t : Tls} (h : t.closeNotify = true) (records : List Record) :
    absorb records t = (t, true) := by
  induction records with
  | nil => rfl
  | cons _ _ ih => simp [absorb, Tls.decrypt, h, ih]

/-- Records are decrypted in order, and the first that ends the stream ends it. -/
theorem absorb_plaintext {t : Tls} (h : t.closeNotify = false) (records rest : List Record) :
    let r := absorb records t
    r.1.records = t.records ∧
      r.1.plaintext ++ (if r.1.closeNotify || !r.2 then [] else decrypted rest) =
        t.plaintext ++ decrypted (records ++ rest) := by
  induction records generalizing t with
  | nil => simp [absorb, h]
  | cons record _ ih =>
    cases hcontent : record.content with
    | app bytes =>
      have hdecrypt : t.decrypt record = some { t with plaintext := t.plaintext ++ bytes } := by
        simp [Tls.decrypt, h, hcontent]
      obtain ⟨hrecords, hplain⟩ := ih (t := { t with plaintext := t.plaintext ++ bytes }) h
      simp only [absorb, hdecrypt]
      refine ⟨hrecords, hplain.trans ?_⟩
      simp [decrypted, hcontent]
    | closeNotify =>
      have hdecrypt : t.decrypt record = some { t with closeNotify := true } := by
        simp [Tls.decrypt, h, hcontent]
      simp only [absorb, hdecrypt, absorb_closed]
      exact ⟨trivial, by simp [decrypted, hcontent]⟩
    | corrupt =>
      have hdecrypt : t.decrypt record = none := by simp [Tls.decrypt, h, hcontent]
      simp only [absorb, hdecrypt]
      exact ⟨trivial, by simp [decrypted, hcontent]⟩

namespace Session

/-- The plaintext that a session has decrypted or is yet to decrypt. -/
def remaining (s : Session) : Bytes :=
  s.plaintext ++ if s.closeNotify || s.fault then [] else decrypted s.records

theorem remaining_processNewPackets {s : Session} (h : s.closeNotify = false) (n : Nat) :
    (s.processNewPackets n).1.remaining = s.remaining := by
  unfold processNewPackets
  split
  · next hfault => simp [remaining, hfault]
  · next hsound =>
    have hopen : (s.closeNotify || s.fault) = false := by simp [h, hsound]
    obtain ⟨hrecords, hplain⟩ := absorb_plaintext
      (t := { s.toTls with
        records := (deframe (s.buffered + n) s.records).2.1
        buffered := (deframe (s.buffered + n) s.records).2.2 }) h
      (deframe (s.buffered + n) s.records).1 (deframe (s.buffered + n) s.records).2.1
    rw [deframe_append] at hplain
    rw [remaining, remaining, hopen]
    rw [hrecords, hplain]
    rfl

theorem remaining_read (s : Session) :
    (s.read.1.getD []) ++ s.read.2.remaining = s.remaining := by
  unfold read
  split
  · split <;> simp
  · simp [remaining, ← List.append_assoc]

/-- A round of `drain_tls_records` moves plaintext, and loses none. -/
theorem remaining_drain (moves : List Move) (s : Session) (plaintext : Bytes) :
    let r := drainTlsRecords moves s plaintext
    r.2.2 ++ r.2.1.remaining = plaintext ++ s.remaining := by
  induction moves generalizing s plaintext with
  | nil => rfl
  | cons n _ ih =>
    simp only [drainTlsRecords]
    split
    · rfl
    · split
      · rfl
      · next hopen =>
        have hkeep := remaining_processNewPackets (by simpa using hopen) n.1 (s := s)
        split
        · next heq =>
          rw [heq] at hkeep
          rw [hkeep]
        · next s' heq =>
          rw [heq] at hkeep
          rw [Tls.takePlaintext_eq _ _ (Nat.le_refl _), ← hkeep]
          split
          · simp [remaining]
          · rw [ih]
            simp [remaining]

end Session

/-! ## The stream -/

/-- `TlsRestStream`. -/
structure TlsRestStream (κ : Type) where
  tls : Session
  /-- What the worker read before the hand-off. -/
  pfx : Cursor
  inPt : Cursor := {}
  out : SendHalf κ

/-- `poll_read_ready`. -/
inductive Readiness where
  | ready
  | pending
  | failed
  deriving DecidableEq, Repr

/-- The bytes of one socket read, by the moves in which `read_tls` takes them in. -/
abbrev Gulp := { moves : List Move // moves ≠ [] ∧ (moves.map Subtype.val).sum ≤ chunkSize }

/-- A call of `poll_read` and what it finds. -/
structure ReadCall where
  /-- The room in the caller's buffer. -/
  cap : ℕ+
  ready : Readiness
  read : SockRead Gulp
  /-- The socket when it is asked for the second time. -/
  again : Readiness := .pending
  /-- What the session queues on its own while it processes records. -/
  control : Bytes := []
  turns : List FlushTurn := []

/-- Wait for the socket; one that is ready again wakes the task. -/
def ReadCall.wait (c : ReadCall) : Poll (Except IoErr Bytes) :=
  match c.again with
  | .pending | .ready => .pending
  | .failed => .ready (.error .socket)

namespace TlsRestStream

variable {κ : Type}

/-- `take_in_pt`. -/
def takeInPt (cap : ℕ+) (s : TlsRestStream κ) : Bytes × TlsRestStream κ :=
  let r := s.inPt.take cap
  (r.1, { s with inPt := r.2 })

/-- Put what the reader returned into the stash and hand out of it. -/
def deliver (cap : ℕ+) (bytes : Bytes) (tls : Session) (s : TlsRestStream κ) :
    Poll (Except IoErr Bytes) × TlsRestStream κ :=
  let r := { s with tls, inPt := s.inPt.extend bytes }.takeInPt cap
  (.ready (.ok r.1), r.2)

/-- After the records of a socket read are processed: flush, and hand out the
plaintext, the end, or nothing yet. -/
def answer (c : ReadCall) (s : TlsRestStream κ) : Poll (Except IoErr Bytes) × TlsRestStream κ :=
  let s := { s with out := (SendHalf.pollFlushCt c.turns s.out).2 }
  let r := s.takeInPt c.cap
  if r.1 ≠ [] then (.ready (.ok r.1), r.2)
  else
    match r.2.tls.read with
    | (some [], _) => (.ready (.ok []), r.2)
    | (some bytes, tls) => r.2.deliver c.cap bytes tls
    | (none, _) => (c.wait, r.2)

/-- Feed the bytes of a socket read to the session. -/
def receive (c : ReadCall) (gulp : Gulp) (s : TlsRestStream κ) :
    Poll (Except IoErr Bytes) × TlsRestStream κ :=
  let r := s.tls.drainTlsRecords gulp.1 []
  let s := { s with
    tls := r.2.1
    inPt := s.inPt.extend r.2.2
    out := { s.out with sendable := s.out.sendable ++ c.control } }
  match r.1 with
  | .error e => (.ready (.error e), s)
  | .ok () => s.answer c

/-- Read ciphertext off the socket, once it is readable. -/
def readSocket (c : ReadCall) (s : TlsRestStream κ) :
    Poll (Except IoErr Bytes) × TlsRestStream κ :=
  match c.ready with
  | .pending => (.pending, s)
  | .failed => (.ready (.error .socket), s)
  | .ready =>
    match c.read with
    | .data gulp => s.receive c gulp
    -- the TCP stream is closed
    | .eof => (.ready (.ok []), s)
    | .wouldBlock => (c.wait, s)
    | .interrupted | .error => (.ready (.error .socket), s)

/-- `poll_read`: `Ready(Ok)` with the bytes it put into the caller's buffer, none of
them at the end. -/
def pollRead (c : ReadCall) (s : TlsRestStream κ) : Poll (Except IoErr Bytes) × TlsRestStream κ :=
  if s.pfx.pos < s.pfx.bytes.length then
    let r := s.pfx.take c.cap
    (.ready (.ok r.1), { s with pfx := r.2 })
  else
    let r := s.takeInPt c.cap
    if r.1 ≠ [] then (.ready (.ok r.1), r.2)
    else
      match r.2.tls.read with
      -- nothing in the session, be it for now or for good
      | (some [], _) | (none, _) => r.2.readSocket c
      | (some bytes, tls) => r.2.deliver c.cap bytes tls

/-! ## In order -/

/-- What is still to be delivered. -/
def toCome (s : TlsRestStream κ) : Bytes := s.pfx.left ++ (s.inPt.left ++ s.tls.remaining)

/-- The bytes a call delivers. -/
def delivered : Poll (Except IoErr Bytes) → Bytes
  | .ready (.ok bytes) => bytes
  | .ready (.error _) | .pending => []

variable {s : TlsRestStream κ} (c : ReadCall)

@[simp] theorem delivered_wait : delivered c.wait = [] := by
  unfold ReadCall.wait
  split <;> rfl

/-- The call delivers the next bytes, past the prefix. -/
def InOrder (s : TlsRestStream κ) (r : Poll (Except IoErr Bytes) × TlsRestStream κ) : Prop :=
  delivered r.1 ++ (r.2.inPt.left ++ r.2.tls.remaining) = s.inPt.left ++ s.tls.remaining ∧
    r.2.pfx = s.pfx

theorem takeInPt_left (cap : ℕ+) (s : TlsRestStream κ) :
    (s.takeInPt cap).1 ++ (s.takeInPt cap).2.inPt.left = s.inPt.left :=
  s.inPt.take_left cap

theorem inOrder_deliver {bytes : Bytes} {tls : Session} (cap : ℕ+)
    (h : bytes ++ tls.remaining = s.tls.remaining) : InOrder s (s.deliver cap bytes tls) := by
  refine ⟨?_, rfl⟩
  have hleft := takeInPt_left cap { s with tls, inPt := s.inPt.extend bytes }
  rw [Cursor.left_extend] at hleft
  show ({ s with tls, inPt := s.inPt.extend bytes }.takeInPt cap).1 ++
    (({ s with tls, inPt := s.inPt.extend bytes }.takeInPt cap).2.inPt.left ++ tls.remaining) = _
  rw [← List.append_assoc, hleft, List.append_assoc, h]

/-- A call that delivers nothing and leaves the plaintext alone. -/
theorem inOrder_still {result : Poll (Except IoErr Bytes)} (h : delivered result = [])
    (s : TlsRestStream κ) : InOrder s (result, s) :=
  ⟨by rw [h, List.nil_append], rfl⟩

theorem inOrder_takeInPt (cap : ℕ+) (s : TlsRestStream κ) :
    InOrder s (.ready (.ok (s.takeInPt cap).1), (s.takeInPt cap).2) := by
  refine ⟨?_, rfl⟩
  show (s.takeInPt cap).1 ++ ((s.takeInPt cap).2.inPt.left ++ s.tls.remaining) = _
  rw [← List.append_assoc, takeInPt_left]

theorem InOrder.of_eq {s' : TlsRestStream κ} {r : Poll (Except IoErr Bytes) × TlsRestStream κ}
    (h : InOrder s' r) (hpfx : s'.pfx = s.pfx)
    (heq : s'.inPt.left ++ s'.tls.remaining = s.inPt.left ++ s.tls.remaining) : InOrder s r :=
  ⟨h.1.trans heq, h.2.trans hpfx⟩

theorem InOrder.of_takeInPt {cap : ℕ+} {r : Poll (Except IoErr Bytes) × TlsRestStream κ}
    (hnone : (s.takeInPt cap).1 = []) (h : InOrder (s.takeInPt cap).2 r) : InOrder s r := by
  refine h.of_eq rfl ?_
  have hleft := takeInPt_left cap s
  rw [hnone, List.nil_append] at hleft
  rw [hleft]
  rfl

theorem inOrder_answer (s : TlsRestStream κ) : InOrder s (s.answer c) := by
  have hflush : InOrder { s with out := (SendHalf.pollFlushCt c.turns s.out).2 } (s.answer c) := by
    unfold answer
    dsimp only
    split
    · exact inOrder_takeInPt _ _
    · next hnone =>
      refine InOrder.of_takeInPt (not_not.mp hnone) ?_
      have hread := Session.remaining_read s.tls
      split
      · exact inOrder_still rfl _
      · next heq =>
        rw [show s.tls.read = _ from heq] at hread
        exact inOrder_deliver _ hread
      · exact inOrder_still (delivered_wait c) _
  exact hflush.of_eq rfl rfl

theorem inOrder_receive (gulp : Gulp) (s : TlsRestStream κ) : InOrder s (s.receive c gulp) := by
  have hdrain := Session.remaining_drain gulp.1 s.tls []
  rw [List.nil_append] at hdrain
  have hkept : InOrder
      { s with
        tls := (s.tls.drainTlsRecords gulp.1 []).2.1
        inPt := s.inPt.extend (s.tls.drainTlsRecords gulp.1 []).2.2
        out := { s.out with sendable := s.out.sendable ++ c.control } } (s.receive c gulp) := by
    unfold receive
    dsimp only
    split
    · exact inOrder_still rfl _
    · exact inOrder_answer c _
  refine hkept.of_eq rfl ?_
  show (s.inPt.extend (s.tls.drainTlsRecords gulp.1 []).2.2).left ++
    (s.tls.drainTlsRecords gulp.1 []).2.1.remaining = _
  rw [Cursor.left_extend, List.append_assoc, hdrain]

theorem inOrder_readSocket (s : TlsRestStream κ) : InOrder s (s.readSocket c) := by
  unfold readSocket
  split
  · exact inOrder_still rfl s
  · exact inOrder_still rfl s
  · split
    · exact inOrder_receive c _ s
    · exact inOrder_still rfl s
    · exact inOrder_still (delivered_wait c) s
    · exact inOrder_still rfl s
    · exact inOrder_still rfl s

/-- Past the prefix, a call delivers the next bytes. -/
theorem inOrder_pollRead (hpast : ¬ s.pfx.pos < s.pfx.bytes.length) (c : ReadCall) :
    InOrder s (s.pollRead c) := by
  rw [pollRead, if_neg hpast]
  dsimp only
  split
  · exact inOrder_takeInPt _ _
  · next hnone =>
    refine InOrder.of_takeInPt (not_not.mp hnone) ?_
    have hread := Session.remaining_read s.tls
    split
    · exact inOrder_readSocket c _
    · exact inOrder_readSocket c _
    · next heq =>
      rw [show s.tls.read = _ from heq] at hread
      exact inOrder_deliver _ hread

/-- A call delivers the next bytes of all that is to come. -/
theorem toCome_pollRead (s : TlsRestStream κ) :
    delivered (s.pollRead c).1 ++ (s.pollRead c).2.toCome = s.toCome := by
  by_cases hpfx : s.pfx.pos < s.pfx.bytes.length
  · rw [pollRead, if_pos hpfx]
    show (s.pfx.take c.cap).1 ++ ((s.pfx.take c.cap).2.left ++ _) = _
    rw [← List.append_assoc, Cursor.take_left]
    rfl
  · obtain ⟨hbytes, hsame⟩ := inOrder_pollRead hpfx c
    have hread : s.pfx.left = [] := List.drop_eq_nil_of_le (not_lt.mp hpfx)
    rw [toCome, toCome, hsame, hread]
    exact hbytes

/-! ## The end -/

/-- `close_notify` has been processed and all plaintext delivered. -/
structure Finished (s : TlsRestStream κ) : Prop where
  pfx : s.pfx.left = []
  inPt : s.inPt.left = []
  plaintext : s.tls.plaintext = []
  closeNotify : s.tls.closeNotify = true

instance (s : TlsRestStream κ) : Decidable s.Finished :=
  decidable_of_iff (s.pfx.left = [] ∧ s.inPt.left = [] ∧ s.tls.plaintext = [] ∧
      s.tls.closeNotify = true)
    ⟨fun ⟨h₁, h₂, h₃, h₄⟩ => ⟨h₁, h₂, h₃, h₄⟩, fun ⟨h₁, h₂, h₃, h₄⟩ => ⟨h₁, h₂, h₃, h₄⟩⟩

end TlsRestStream

/-- The socket has bytes or its end to read. -/
def ReadCall.Readable (c : ReadCall) : Prop :=
  c.ready = .ready ∧
    match c.read with
    | .data _ | .eof => True
    | .wouldBlock | .interrupted | .error => False

instance (c : ReadCall) : Decidable c.Readable :=
  match h : c.read with
  | .data _ | .eof => decidable_of_iff (c.ready = .ready) (by simp [ReadCall.Readable, h])
  | .wouldBlock | .interrupted | .error => isFalse (by simp [ReadCall.Readable, h])

/-- After `close_notify` the rest of a socket read is ignored. -/
theorem Session.drain_closed {s : Session} (hplain : s.plaintext = [])
    (hclosed : s.closeNotify = true) (moves : List Move) (plaintext : Bytes) :
    s.drainTlsRecords moves plaintext = (.ok (), s, plaintext) := by
  cases moves with
  | nil => rfl
  | cons => simp [drainTlsRecords, hplain, hclosed, plaintextLimit]

theorem Session.read_closed {s : Session} (hplain : s.plaintext = [])
    (hclosed : s.closeNotify = true) : s.read = (some [], s) := by
  simp [read, hplain, hclosed]

namespace TlsRestStream

variable {κ : Type} {s : TlsRestStream κ}

theorem Finished.takeInPt (h : s.Finished) (cap : ℕ+) :
    (s.takeInPt cap).1 = [] ∧ (s.takeInPt cap).2.Finished := by
  have hleft := takeInPt_left cap s
  rw [h.inPt, List.append_eq_nil_iff] at hleft
  exact ⟨hleft.1, h.pfx, hleft.2, h.plaintext, h.closeNotify⟩

/-- After a socket read that brings nothing, the end is reported. -/
theorem Finished.answer (h : s.Finished) (c : ReadCall) : (s.answer c).1 = .ready (.ok []) := by
  have hflushed : Finished { s with out := (SendHalf.pollFlushCt c.turns s.out).2 } :=
    ⟨h.pfx, h.inPt, h.plaintext, h.closeNotify⟩
  obtain ⟨hnone, hrest⟩ := hflushed.takeInPt c.cap
  unfold TlsRestStream.answer
  rw [if_neg (not_not.mpr hnone), Session.read_closed hrest.plaintext hrest.closeNotify]

theorem Finished.receive (h : s.Finished) (c : ReadCall) (gulp : Gulp) :
    (s.receive c gulp).1 = .ready (.ok []) := by
  unfold TlsRestStream.receive
  rw [Session.drain_closed h.plaintext h.closeNotify]
  have hinPt : (s.inPt.extend []).left = [] := by simpa using h.inPt
  exact Finished.answer (s := { s with
    inPt := s.inPt.extend []
    out := { s.out with sendable := s.out.sendable ++ c.control } })
    ⟨h.pfx, hinPt, h.plaintext, h.closeNotify⟩ c

/-- At its entry the end is not told from "nothing yet": it is reported exactly when
the socket is readable. -/
theorem Finished.pollRead_iff (h : s.Finished) (c : ReadCall) :
    (s.pollRead c).1 = .ready (.ok []) ↔ c.Readable := by
  obtain ⟨hnone, hrest⟩ := h.takeInPt c.cap
  have hpast : ¬ s.pfx.pos < s.pfx.bytes.length := not_lt.mpr (List.drop_eq_nil_iff.mp h.pfx)
  have hsocket : s.pollRead c = (s.takeInPt c.cap).2.readSocket c := by
    rw [pollRead, if_neg hpast]
    rw [if_neg (not_not.mpr hnone), Session.read_closed hrest.plaintext hrest.closeNotify]
  have hwait : c.wait ≠ .ready (.ok []) := by
    unfold ReadCall.wait
    split <;> simp
  rw [hsocket, readSocket, ReadCall.Readable]
  cases c.ready with
  | pending | failed => simp
  | ready =>
    cases c.read with
    | data gulp => simpa using hrest.receive c gulp
    | eof | interrupted | error => simp
    | wouldBlock => simpa using hwait

/-! ## Runs -/

def step (s : TlsRestStream κ) (c : ReadCall) : TlsRestStream κ := (s.pollRead c).2

def output (s : TlsRestStream κ) (c : ReadCall) : Bytes := delivered (s.pollRead c).1

/-- What was read and what is to come are what there was. -/
theorem toCome_run (s : TlsRestStream κ) (cs : List ReadCall) :
    outputs step output s cs ++ (run step s cs).toCome = s.toCome := by
  induction cs generalizing s with
  | nil => rfl
  | cons c _ ih =>
    rw [outputs, run_cons, List.append_assoc, ih]
    exact toCome_pollRead c s

/-- A finished stream reports its end. -/
def Ends (s : TlsRestStream κ) (c : ReadCall) : Prop :=
  s.Finished → (s.pollRead c).1 = .ready (.ok [])

/-- A finished stream is read only while the socket is readable. -/
def ReadableAtEnd (s : TlsRestStream κ) (c : ReadCall) : Prop := s.Finished → c.Readable

instance (s : TlsRestStream κ) (c : ReadCall) : Decidable (s.ReadableAtEnd c) :=
  inferInstanceAs (Decidable (_ → _))

/-- The stream as it is handed over: what the worker read, and its session. -/
def handOff (head : Bytes) (tls : Tls) (out : SendHalf κ) : TlsRestStream κ :=
  { tls := { toTls := tls }, pfx := { bytes := head }, out }

/-- However the records are cut, whatever the sizes read in and the readiness of the
socket: what has been delivered is a beginning of the prefix and the decrypted
stream, and what is to come is the rest. The end is reported to the first call after
all of it exactly as long as such calls find the socket readable. -/
theorem tls_rest_reads_kept (head : Bytes) (tls : Tls) (out : SendHalf κ) (cs : List ReadCall) :
    let s := handOff head tls out
    let stream := head ++ Session.remaining { toTls := tls }
    outputs step output s cs <+: stream ∧
    outputs step output s cs ++ (run step s cs).toCome = stream ∧
    (Along step Ends s cs ↔ Along step ReadableAtEnd s cs) := by
  intro s stream
  have hall : outputs step output s cs ++ (run step s cs).toCome = stream := toCome_run s cs
  refine ⟨⟨_, hall⟩, hall, ?_⟩
  have halong : Along step (fun _ _ => True) s cs := Along.of_forall (fun _ _ => trivial) s cs
  exact halong.congr fun s c _ => forall_congr' fun h => h.pollRead_iff c

/-- A byte of plaintext and `close_notify`, in one socket read. -/
def lastWords : Tls :=
  { records := [⟨4, .app [7]⟩, ⟨⟨2, by decide⟩, .closeNotify⟩] }

def lastRead : ReadCall :=
  { cap := 16, ready := .ready, read := .data ⟨[⟨6, by decide⟩], by decide⟩ }

def idle : SendHalf Unit := { key := () }

theorem tls_rest_reads_kept_closed :
    outputs step output (handOff [1, 2] lastWords idle)
        [lastRead, lastRead, { lastRead with read := .eof }] = [1, 2, 7] ∧
      Along step Ends (handOff [1, 2] lastWords idle)
        [lastRead, lastRead, { lastRead with read := .eof }] :=
  ⟨by decide, (tls_rest_reads_kept [1, 2] lastWords idle
    [lastRead, lastRead, { lastRead with read := .eof }]).2.2.mpr (by decide)⟩

/-- The peer has said goodbye and everything is delivered, but it keeps the socket
open: the next call waits. -/
theorem end_waits_for_socket :
    let s := run step (handOff [] lastWords idle) [lastRead]
    s.Finished ∧ (s.pollRead { lastRead with ready := .pending }).1 ≠ .ready (.ok []) := by
  decide

end TlsRestStream

end Pylon.Transport
