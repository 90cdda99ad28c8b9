import Pylon.Lib.Trace
import Pylon.Transport.Frame

/-!
# Writes of a TLS connection that serves REST

The sending half of `TlsRestStream` in `transport/rest.rs`: `poll_flush_ct`,
`poll_write` and `poll_flush`. Plaintext goes to the session, which seals it into a
bounded buffer of ciphertext; `write_tls` moves ciphertext from there into
`out_ct`, and the socket takes it from there.

* **the socket** — a poll makes a number of turns at it (`FlushTurn`); once they
  are used up the socket is not ready;
* **the two buffers** — what is sent and what is not, put together, is the sealed
  plaintext in order, whatever the socket does;
* **back-pressure** — `poll_write` hands the plaintext over before it flushes, so a
  full session buffer makes it report zero bytes instead of `Pending`.
-/

namespace Pylon.Transport

open Lib

/-! ## Polls -/

inductive Poll (α : Type) where
  | pending
  | ready (a : α)
  deriving DecidableEq, Repr

/-- The I/O errors of the stream. -/
inductive IoErr where
  /-- `WriteZero`, "tls rest: socket closed". -/
  | writeZero
  /-- An error of the socket. -/
  | socket
  /-- `InvalidData`: the session could not process a record. -/
  | invalidData
  /-- The session's plaintext buffer is full. -/
  | plaintextFull
  deriving DecidableEq, Repr

/-- What `poll_write_ready` and `try_write` do. -/
inductive SockWrite where
  | notReady
  | readyFailed
  | wrote (n : Nat)
  | wouldBlock
  | interrupted
  | failed
  deriving DecidableEq, Repr

/-- One turn of the flush loop: how much `write_tls` moves if it is called, and what
the socket does. -/
structure FlushTurn where
  pull : Nat
  answer : SockWrite
  deriving DecidableEq, Repr

/-- The socket is ready or not, and takes all or a part. -/
def FlushTurn.Calm (a : FlushTurn) : Prop :=
  a.answer ≠ .readyFailed ∧ a.answer ≠ .failed ∧ a.answer ≠ .wrote 0

instance : DecidablePred FlushTurn.Calm := fun _ => inferInstanceAs (Decidable (_ ∧ _ ∧ _))

/-! ## The sending half -/

/-- The sending half of the session, and the ciphertext on its way to the socket. -/
structure SendHalf (κ : Type) where
  /-- What the next record is sealed with. -/
  key : κ
  /-- The ciphertext in the session. -/
  sendable : Bytes := []
  outCt : Bytes := []
  outPos : Nat := 0
  /-- What the socket has taken. -/
  sent : Bytes := []
  deriving DecidableEq, Repr

namespace SendHalf

variable {κ : Type}

/-- `out_ct` holds bytes that the socket has not taken. -/
def Waiting (s : SendHalf κ) : Prop := s.outPos < s.outCt.length

instance (s : SendHalf κ) : Decidable s.Waiting := inferInstanceAs (Decidable (_ < _))

/-- Once all of `out_ct` is written: reset it and let `write_tls` append what it
moves, at least a byte if the session has any. -/
def refill (pull : Nat) (s : SendHalf κ) : SendHalf κ :=
  if s.Waiting then s
  else
    { s with
      outCt := s.sendable.take (max 1 pull)
      outPos := 0
      sendable := s.sendable.drop (max 1 pull) }

/-- The socket takes `n` bytes. -/
def advance (n : Nat) (s : SendHalf κ) : SendHalf κ :=
  { s with outPos := s.outPos + n, sent := s.sent ++ (s.outCt.drop s.outPos).take n }

/-- `poll_flush_ct`. -/
def pollFlushCt : List FlushTurn → SendHalf κ → Poll (Except IoErr Unit) × SendHalf κ
  | [], s =>
    let s := s.refill s.sendable.length
    if s.Waiting then (.pending, s) else (.ready (.ok ()), s)
  | a :: turns, s =>
    let s := s.refill a.pull
    if s.Waiting then
      match a.answer with
      | .notReady => (.pending, s)
      | .readyFailed | .failed => (.ready (.error .socket), s)
      | .wrote 0 => (.ready (.error .writeZero), s)
      | .wrote (n + 1) =>
        pollFlushCt turns (s.advance (min (n + 1) (s.outCt.length - s.outPos)))
      | .wouldBlock | .interrupted => pollFlushCt turns s
    else (.ready (.ok ()), s)

/-- `poll_flush`; flushing the socket itself does nothing. -/
def pollFlush (turns : List FlushTurn) (s : SendHalf κ) : Poll (Except IoErr Unit) × SendHalf κ :=
  pollFlushCt turns s

variable (enc : κ → Bytes → Bytes × κ) (limit : Nat)

/-- How much of `buf` the session takes: no more than it is willing to (`room`), and
no more than is free in its buffer. -/
def taken (room : Nat) (buf : Bytes) (s : SendHalf κ) : Nat :=
  min room (min buf.length (limit - s.sendable.length))

/-- `writer().write`. -/
def write (room : Nat) (buf : Bytes) (s : SendHalf κ) : SendHalf κ :=
  let n := s.taken limit room buf
  if n = 0 then s
  else
    let sealed := enc s.key (buf.take n)
    { s with key := sealed.2, sendable := s.sendable ++ sealed.1 }

/-- `poll_write`. -/
def pollWrite (room : Nat) (turns : List FlushTurn) (buf : Bytes) (s : SendHalf κ) :
    Poll (Except IoErr Nat) × SendHalf κ :=
  let n := s.taken limit room buf
  match pollFlushCt turns (s.write enc limit room buf) with
  | (.ready (.error e), s) => (.ready (.error e), s)
  | (_, s) => (.ready (.ok n), s)

/-! ## Nothing is lost -/

/-- The ciphertext that the socket has not taken. -/
def unsent (s : SendHalf κ) : Bytes := s.outCt.drop s.outPos ++ s.sendable

/-- All the ciphertext of the session so far. -/
def total (s : SendHalf κ) : Bytes := s.sent ++ s.unsent

theorem refill_parts (pull : Nat) (s : SendHalf κ) :
    (s.refill pull).sent = s.sent ∧ (s.refill pull).unsent = s.unsent := by
  unfold refill
  split
  · exact ⟨rfl, rfl⟩
  · next hdrained =>
    have hout : s.outCt.drop s.outPos = [] := List.drop_eq_nil_of_le (not_lt.mp hdrained)
    exact ⟨rfl, by simp [unsent, hout]⟩

theorem advance_total (n : Nat) (s : SendHalf κ) : (s.advance n).total = s.total := by
  simp only [total, unsent, advance, List.append_assoc, List.append_cancel_left_eq]
  rw [← List.append_assoc, ← List.drop_drop, List.take_append_drop]

variable {s : SendHalf κ}

/-- After a refill there is nothing to write only if nothing is unsent. -/
theorem unsent_eq_nil {pull : Nat} (h : ¬ (s.refill pull).Waiting) :
    (s.refill pull).unsent = [] := by
  unfold refill at h ⊢
  split at h
  · next hwaiting => exact absurd hwaiting h
  · next hdrained =>
    rw [if_neg hdrained]
    have hempty : s.sendable = [] := by
      simpa [Waiting] using h
    simp [unsent, hempty]

theorem refill_total (pull : Nat) (s : SendHalf κ) : (s.refill pull).total = s.total := by
  obtain ⟨hsent, hunsent⟩ := refill_parts pull s
  rw [total, total, hsent, hunsent]

theorem refill_key (pull : Nat) (s : SendHalf κ) : (s.refill pull).key = s.key := by
  unfold refill
  split <;> rfl

/-- What a flush does: it only moves ciphertext along, and it is done when none is
left. -/
structure Flushed (s : SendHalf κ) (r : Poll (Except IoErr Unit) × SendHalf κ) : Prop where
  total : r.2.total = s.total
  key : r.2.key = s.key
  done : r.1 = .ready (.ok ()) → r.2.unsent = []

theorem Flushed.trans {s' : SendHalf κ} {r : Poll (Except IoErr Unit) × SendHalf κ}
    (h : Flushed s' r) (htotal : s'.total = s.total) (hkey : s'.key = s.key) : Flushed s r :=
  ⟨h.total.trans htotal, h.key.trans hkey, h.done⟩

/-- A flush that stops with something to write. -/
theorem Flushed.stopped {result : Poll (Except IoErr Unit)} (hresult : result ≠ .ready (.ok ())) :
    Flushed s (result, s) :=
  ⟨rfl, rfl, fun h => absurd h hresult⟩

theorem flushed (turns : List FlushTurn) (s : SendHalf κ) : Flushed s (pollFlushCt turns s) := by
  induction turns generalizing s with
  | nil =>
    refine Flushed.trans ?_ (refill_total s.sendable.length s) (refill_key s.sendable.length s)
    simp only [pollFlushCt]
    split
    · exact .stopped (by simp)
    · next hdone => exact ⟨rfl, rfl, fun _ => unsent_eq_nil hdone⟩
  | cons a _ ih =>
    refine Flushed.trans ?_ (refill_total a.pull s) (refill_key a.pull s)
    simp only [pollFlushCt]
    split
    · split
      · exact .stopped (by simp)
      · exact .stopped (by simp)
      · exact .stopped (by simp)
      · exact .stopped (by simp)
      · exact (ih _).trans (advance_total _ _) rfl
      · exact ih _
      · exact ih _
    · next hdone => exact ⟨rfl, rfl, fun _ => unsent_eq_nil hdone⟩

/-- A socket that is only ever ready or not makes no flush fail. -/
theorem pollFlushCt_calm {turns : List FlushTurn} (hcalm : ∀ a ∈ turns, a.Calm) (s : SendHalf κ)
    (e : IoErr) : (pollFlushCt turns s).1 ≠ .ready (.error e) := by
  induction turns generalizing s with
  | nil =>
    simp only [pollFlushCt]
    split <;> simp
  | cons _ _ ih =>
    obtain ⟨ha, hrest⟩ := List.forall_mem_cons.mp hcalm
    simp only [pollFlushCt]
    split
    · split
      · simp
      · next hanswer => exact absurd hanswer ha.1
      · next hanswer => exact absurd hanswer ha.2.1
      · next hanswer => exact absurd hanswer ha.2.2
      · exact ih hrest _
      · exact ih hrest _
      · exact ih hrest _
    · simp

/-! ## Calls -/

/-- A call of the HTTP server on the stream. -/
inductive Call where
  | write (room : Nat) (turns : List FlushTurn) (buf : Bytes)
  | flush (turns : List FlushTurn)
  deriving DecidableEq, Repr

/-- Nothing but readiness and short writes. -/
def Call.Calm : Call → Prop
  | .write _ turns _ | .flush turns => ∀ a ∈ turns, a.Calm

instance : DecidablePred Call.Calm
  | .write _ turns _ => inferInstanceAs (Decidable (∀ a ∈ turns, a.Calm))
  | .flush turns => inferInstanceAs (Decidable (∀ a ∈ turns, a.Calm))

def step (s : SendHalf κ) : Call → SendHalf κ
  | .write room turns buf => (s.pollWrite enc limit room turns buf).2
  | .flush turns => (s.pollFlush turns).2

/-- The plaintext a call reports as accepted. -/
def accepted (s : SendHalf κ) : Call → List Bytes
  | .write room turns buf =>
    match (s.pollWrite enc limit room turns buf).1 with
    | .ready (.ok n) => if n = 0 then [] else [buf.take n]
    | _ => []
  | .flush _ => []

/-- The ciphertext of a sequence of writes, and the key after it. -/
def sealAll : κ → List Bytes → Bytes × κ
  | key, [] => ([], key)
  | key, chunk :: chunks =>
    let sealed := enc key chunk
    let rest := sealAll sealed.2 chunks
    (sealed.1 ++ rest.1, rest.2)

theorem sealAll_append (key : κ) (cs ds : List Bytes) :
    sealAll enc key (cs ++ ds) =
      ((sealAll enc key cs).1 ++ (sealAll enc (sealAll enc key cs).2 ds).1,
        (sealAll enc (sealAll enc key cs).2 ds).2) := by
  induction cs generalizing key with
  | nil => simp [sealAll]
  | cons _ _ ih => simp [sealAll, ih]

theorem total_write (room : Nat) (buf : Bytes) (s : SendHalf κ) :
    let chunks := if s.taken limit room buf = 0 then [] else [buf.take (s.taken limit room buf)]
    (s.write enc limit room buf).total = s.total ++ (sealAll enc s.key chunks).1 ∧
      (s.write enc limit room buf).key = (sealAll enc s.key chunks).2 := by
  unfold write
  dsimp only
  split
  · exact ⟨by simp [sealAll], rfl⟩
  · exact ⟨by simp [total, unsent, sealAll], rfl⟩

variable {enc limit}

theorem pollWrite_eq {turns : List FlushTurn} (hcalm : ∀ a ∈ turns, a.Calm) (room : Nat)
    (buf : Bytes) (s : SendHalf κ) :
    s.pollWrite enc limit room turns buf =
      (.ready (.ok (s.taken limit room buf)),
        (pollFlushCt turns (s.write enc limit room buf)).2) := by
  have herr := pollFlushCt_calm hcalm (s.write enc limit room buf)
  unfold pollWrite
  split
  · next e s' heq => exact absurd (congrArg Prod.fst heq) (herr e)
  · next heq => rw [heq]

/-- A call seals the bytes it accepts, once. -/
theorem total_step {c : Call} (hcalm : c.Calm) (s : SendHalf κ) :
    (s.step enc limit c).total = s.total ++ (sealAll enc s.key (s.accepted enc limit c)).1 ∧
      (s.step enc limit c).key = (sealAll enc s.key (s.accepted enc limit c)).2 := by
  cases c with
  | write room turns buf =>
    obtain ⟨htotal, hkey⟩ := total_write enc limit room buf s
    have hflush := flushed turns (s.write enc limit room buf)
    simp only [step, accepted, pollWrite_eq hcalm]
    exact ⟨hflush.total.trans htotal, hflush.key.trans hkey⟩
  | flush turns =>
    have hflush := flushed turns s
    refine ⟨?_, hflush.key⟩
    rw [accepted, sealAll, List.append_nil]
    exact hflush.total

/-- A run adds the ciphertext of what its calls report, in order. -/
theorem total_run {cs : List Call} (hcalm : ∀ c ∈ cs, c.Calm) (s : SendHalf κ) :
    (run (step enc limit) s cs).total =
        s.total ++ (sealAll enc s.key (outputs (step enc limit) (accepted enc limit) s cs)).1 ∧
      (run (step enc limit) s cs).key =
        (sealAll enc s.key (outputs (step enc limit) (accepted enc limit) s cs)).2 := by
  induction cs generalizing s with
  | nil => exact ⟨by simp [outputs, sealAll], rfl⟩
  | cons c _ ih =>
    obtain ⟨hc, hrest⟩ := List.forall_mem_cons.mp hcalm
    obtain ⟨htotal, hkey⟩ := total_step hc s
    obtain ⟨htotal', hkey'⟩ := ih hrest (s.step enc limit c)
    rw [run_cons, htotal', hkey', outputs, sealAll_append, hkey, htotal]
    exact ⟨List.append_assoc _ _ _, rfl⟩

/-! ## Back-pressure -/

variable (enc limit)

/-- A write of something does not report zero bytes. -/
def NeverZero (s : SendHalf κ) : Call → Prop
  | .write room turns buf =>
    buf ≠ [] → (s.pollWrite enc limit room turns buf).1 ≠ .ready (.ok 0)
  | .flush _ => True

/-- There is room in the session for a byte of what is written. -/
def HasRoom (s : SendHalf κ) : Call → Prop
  | .write room _ buf => buf ≠ [] → 0 < room ∧ s.sendable.length < limit
  | .flush _ => True

instance (s : SendHalf κ) : DecidablePred (s.HasRoom limit)
  | .write _ _ _ => inferInstanceAs (Decidable (_ → _))
  | .flush _ => isTrue trivial

variable {enc limit}

/-- Exactly a session without room makes a write report zero bytes. -/
theorem neverZero_iff {c : Call} (hcalm : c.Calm) (s : SendHalf κ) :
    s.NeverZero enc limit c ↔ s.HasRoom limit c := by
  cases c with
  | write _ _ buf =>
    simp only [NeverZero, HasRoom, pollWrite_eq hcalm, taken, ne_eq, Poll.ready.injEq,
      Except.ok.injEq]
    refine imp_congr_right fun hbuf => ?_
    have hlen : 0 < buf.length := List.length_pos_iff.mpr hbuf
    omega
  | flush => exact Iff.rfl

/-- The stream as it is handed over, with what the session had to send then. -/
def handOff (key : κ) (queued : Bytes) : SendHalf κ := { key, sendable := queued }

variable (enc limit)

/-- Whatever the socket's readiness and however short its writes: what is sent is a
beginning of the ciphertext of the reported plaintext and the rest of it is kept, a
flush is done when all of it is sent, and writes report zero bytes exactly when the
session has no room left. -/
theorem tls_writes_kept (key : κ) (queued : Bytes) {cs : List Call} (hcalm : ∀ c ∈ cs, c.Calm) :
    let s := run (step enc limit) (handOff key queued) cs
    let reported := outputs (step enc limit) (accepted enc limit) (handOff key queued) cs
    let ciphertext := queued ++ (sealAll enc key reported).1
    s.sent <+: ciphertext ∧ s.sent ++ s.unsent = ciphertext ∧
    (∀ turns, (s.pollFlush turns).1 = .ready (.ok ()) → (s.pollFlush turns).2.sent = ciphertext) ∧
    (Along (step enc limit) (NeverZero enc limit) (handOff key queued) cs ↔
      Along (step enc limit) (HasRoom limit) (handOff key queued) cs) := by
  intro s reported ciphertext
  have htotal : s.sent ++ s.unsent = ciphertext := (total_run hcalm (handOff key queued)).1
  refine ⟨⟨s.unsent, htotal⟩, htotal, fun turns hdone => ?_, ?_⟩
  · obtain ⟨hall, -, hnone⟩ := flushed turns s
    rw [total, hnone hdone, List.append_nil] at hall
    exact hall.trans htotal
  · have halong : Along (step enc limit) (fun _ c => c.Calm) (handOff key queued) cs :=
      Along.of_mem hcalm _
    exact halong.congr fun s c hc => neverZero_iff hc s

/-- A short write, a full socket, and a flush. -/
def shortWrites : List Call :=
  [.write 4 [⟨2, .wrote 1⟩, ⟨0, .notReady⟩] [1, 2, 3], .write 4 [⟨0, .wouldBlock⟩] [4],
    .flush [⟨1, .wrote 5⟩, ⟨3, .interrupted⟩, ⟨3, .wrote 2⟩, ⟨1, .wrote 1⟩]]

/-- Sealed with a counter in front. -/
def numbered (n : UInt8) (bytes : Bytes) : Bytes × UInt8 := (n :: bytes, n + 1)

theorem tls_writes_kept_short :
    (∀ c ∈ shortWrites, c.Calm) ∧
      (run (step numbered 8) (handOff 0 []) shortWrites).sent <+:
        (sealAll numbered 0
          (outputs (step numbered 8) (accepted numbered 8) (handOff 0 []) shortWrites)).1 ∧
      Along (step numbered 8) (NeverZero numbered 8) (handOff 0 []) shortWrites := by
  have hcalm : ∀ c ∈ shortWrites, c.Calm := by decide
  obtain ⟨hsent, -, -, hroom⟩ := tls_writes_kept numbered 8 0 [] hcalm
  exact ⟨hcalm, hsent, hroom.mpr (by decide)⟩

/-! ## A socket that takes nothing -/

/-- The limit of the session's buffer, 64 KiB. -/
def sendLimit : Nat := 64 * 1024

def page : Bytes := List.replicate sendLimit 0

/-- A write of a page while the socket is not ready. -/
def stalledWrite : Call := .write sendLimit [] page

theorem pollFlushCt_nil (s : SendHalf κ) : (pollFlushCt [] s).2 = s.refill s.sendable.length := by
  simp only [pollFlushCt]
  split <;> rfl

theorem length_page : page.length = sendLimit := List.length_replicate

-- tried before `List.length_cons`: with `page.length + 1` the kernel counts the page
@[simp high] theorem length_cons_page (n : UInt8) : (n :: page).length = sendLimit + 1 := by
  rw [List.length_cons, length_page]

/-- A session with an empty buffer takes a full page, and the socket nothing of it. -/
theorem step_write_stalled {s : SendHalf UInt8} {limit : Nat} {buf : List UInt8}
    (h : s.sendable = []) (hbuf : buf.length = limit) (hlimit : limit ≠ 0) :
    s.step numbered limit (.write limit [] buf) =
      { s with key := s.key + 1, sendable := s.key :: buf }.refill (limit + 1) := by
  have htaken : s.taken limit limit buf = limit := by simp [taken, h, hbuf]
  have hwrite : s.write numbered limit limit buf =
      { s with key := s.key + 1, sendable := s.key :: buf } := by
    rw [write, htaken, if_neg hlimit, List.take_of_length_le hbuf.le, h]
    rfl
  show (s.pollWrite numbered limit limit [] buf).2 = _
  rw [pollWrite_eq (by simp), pollFlushCt_nil, hwrite]
  simp [hbuf]

theorem step_stalledWrite {s : SendHalf UInt8} (h : s.sendable = []) :
    s.step numbered sendLimit stalledWrite =
      { s with key := s.key + 1, sendable := s.key :: page }.refill (sendLimit + 1) :=
  step_write_stalled h length_page (by decide)

/-- Two pages fill both buffers. -/
theorem run_stalledWrite :
    run (step numbered sendLimit) (handOff 0 []) [stalledWrite, stalledWrite] =
      { key := 2, outCt := 0 :: page, sendable := 1 :: page } := by
  have hall (n : UInt8) : (n :: page).length ≤ max 1 (sendLimit + 1) := by simp
  have hfirst : (handOff 0 []).step numbered sendLimit stalledWrite =
      { key := 1, outCt := 0 :: page } := by
    rw [step_stalledWrite rfl, refill, if_neg (by simp [Waiting, handOff])]
    rw [List.take_of_length_le (hall _), List.drop_eq_nil_of_le (hall _)]
    rfl
  rw [run_cons, hfirst, run_cons, step_stalledWrite rfl, refill, if_pos (by simp [Waiting])]
  rfl

/-- With the socket never ready, the third page is reported as written in zero
bytes. -/
theorem stalled_write_reports_zero :
    (∀ c ∈ [stalledWrite, stalledWrite, stalledWrite], c.Calm) ∧ page ≠ [] ∧
      ((run (step numbered sendLimit) (handOff 0 []) [stalledWrite, stalledWrite]).pollWrite
        numbered sendLimit sendLimit [] page).1 = .ready (.ok 0) := by
  have hpage : page ≠ [] := List.ne_nil_of_length_pos (length_page ▸ by decide)
  refine ⟨by decide, hpage, ?_⟩
  rw [pollWrite_eq (by simp), run_stalledWrite]
  simp [taken, length_page]

end SendHalf

end Pylon.Transport
