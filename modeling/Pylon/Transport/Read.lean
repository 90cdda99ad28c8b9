import Mathlib.Data.PNat.Basic
import Pylon.Transport.Frame

/-!
# The read paths of a connection

`drain_head_bytes` and `read_frames` of `transport/conn.rs`, on a plain socket
and on a TLS session.

* **the socket** — what each read call returns, in order (`SockRead`); once the
  script is over, reads block;
* **the TLS session** — rustls as far as these paths see it: records become
  plaintext once all their bytes have been read, plaintext waits in a bounded
  buffer, and `read_tls` fails while that buffer is full.
-/

namespace Pylon.Transport

/-- What one read call on a socket returns. -/
inductive SockRead (α : Type) where
  | data (a : α)
  | eof
  | wouldBlock
  | interrupted
  | error
  deriving DecidableEq, Repr

/-- How a read loop ended. -/
inductive Ending where
  | blocked
  | eof
  | failed
  deriving DecidableEq, Repr

/-! ## Plain -/

/-- The size of the stack buffer a read fills. -/
def chunkSize : Nat := 16 * 1024

/-- The bytes one `read` returned. -/
abbrev Chunk := { bytes : Bytes // bytes ≠ [] ∧ bytes.length ≤ chunkSize }

/-- Read until the socket blocks, ends or fails. -/
def readPlain : List (SockRead Chunk) → Bytes → Bytes × Ending
  | [], buf | .wouldBlock :: _, buf => (buf, .blocked)
  | .data chunk :: reads, buf => readPlain reads (buf ++ chunk.1)
  | .interrupted :: reads, buf => readPlain reads buf
  | .eof :: _, buf => (buf, .eof)
  | .error :: _, buf => (buf, .failed)

/-! ## TLS records -/

/-- What a record carries. -/
inductive Content where
  | app (plaintext : Bytes)
  | closeNotify
  | corrupt
  deriving DecidableEq, Repr

/-- A record on the wire: its length in ciphertext bytes, and its content. -/
structure Record where
  wire : ℕ+
  content : Content
  deriving DecidableEq, Repr

/-- The records complete within the first `n` bytes of a stream, the rest of the
stream, and how much of it has been read. -/
def deframe : Nat → List Record → List Record × List Record × Nat
  | n, [] => ([], [], n)
  | n, record :: records =>
    if record.wire ≤ n then
      let d := deframe (n - record.wire) records
      (record :: d.1, d.2)
    else ([], record :: records, n)

/-- `received_plaintext` holding this much makes `read_tls` fail. -/
def plaintextLimit : Nat := 16 * 1024

/-- The most one `read_tls` call moves. -/
def readTlsMax : Nat := 4 * 1024

/-- The ciphertext bytes one `read_tls` call moved. -/
abbrev Move := { n : Nat // 0 < n ∧ n ≤ readTlsMax }

/-- The ciphertext of a session that has not become plaintext yet: the records the
peer sends, and how many bytes of them have been read. -/
structure Link where
  records : List Record
  buffered : Nat := 0
  deriving DecidableEq, Repr

/-- The receiving half of a TLS session. -/
structure Tls extends Link where
  plaintext : Bytes := []
  closeNotify : Bool := false
  deriving DecidableEq, Repr

namespace Tls

/-- Decrypt one complete record; `none` is an error of the session. Nothing is
read after a `close_notify`. -/
def decrypt (t : Tls) (record : Record) : Option Tls :=
  if t.closeNotify then some t
  else
    match record.content with
    | .app bytes => some { t with plaintext := t.plaintext ++ bytes }
    | .closeNotify => some { t with closeNotify := true }
    | .corrupt => none

/-- `process_new_packets` after `n` more bytes were read. -/
def processNewPackets (t : Tls) (n : Nat) : Option Tls :=
  let d := deframe (t.buffered + n) t.records
  d.1.foldlM decrypt { t with records := d.2.1, buffered := d.2.2 }

/-- The loop around `read_tls` and `process_new_packets`. -/
def readTls (reads : List (SockRead Move)) (t : Tls) : Tls × Ending :=
  if plaintextLimit ≤ t.plaintext.length then (t, .failed)
  else if t.closeNotify then (t, .eof)
  else
    match reads with
    | [] | .wouldBlock :: _ => (t, .blocked)
    | .data n :: reads =>
      match t.processNewPackets n.1 with
      | some t => readTls reads t
      | none => (t, .failed)
    | .interrupted :: reads => readTls reads t
    | .eof :: _ => (t, .eof)
    | .error :: _ => (t, .failed)

/-- The loop over `reader().read`, a chunk at a time until nothing is left. The
first argument bounds the iterations. -/
def takePlaintext : Nat → Tls → Bytes → Tls × Bytes
  | 0, t, buf => (t, buf)
  | fuel + 1, t, buf =>
    if t.plaintext = [] then (t, buf)
    else
      takePlaintext fuel { t with plaintext := t.plaintext.drop chunkSize }
        (buf ++ t.plaintext.take chunkSize)

end Tls

/-- What one `write_tls` call does while the session wants to write. -/
inductive FlightWrite where
  | wrote
  | wouldBlock
  | interrupted
  | error
  deriving DecidableEq, Repr

/-- Write what the session wants to write: whether the socket blocked, or `none`
when the connection is to be closed. -/
def writeFlight : List FlightWrite → Option Bool
  | [] => some false
  | .wrote :: writes => writeFlight writes
  | .wouldBlock :: _ => some true
  | .interrupted :: _ | .error :: _ => none

/-! ## `drain_head_bytes` -/

inductive DrainStatus where
  | ok
  | needsWrite
  | closed
  deriving DecidableEq, Repr

def drainHeadPlain (reads : List (SockRead Chunk)) (buf : Bytes) : DrainStatus × Bytes :=
  match readPlain reads buf with
  | (buf, .blocked) => (.ok, buf)
  | (buf, .eof) | (buf, .failed) => (.closed, buf)

def drainHeadTls (reads : List (SockRead Move)) (flight : List FlightWrite) (t : Tls)
    (buf : Bytes) : DrainStatus × Tls × Bytes :=
  match t.readTls reads with
  | (t, .eof) | (t, .failed) => (.closed, t, buf)
  | (t, .blocked) =>
    match writeFlight flight with
    | none => (.closed, t, buf)
    | some flightBlocked =>
      (if flightBlocked then .needsWrite else .ok, t.takePlaintext t.plaintext.length buf)

/-! ## `read_frames` -/

/-- The second half of `read_frames`, common to both backends. -/
def finishRead (maxPayload : Nat) (hitEof : Bool) (scratch : Bytes) :
    Except ConnError (List Frame) × Bytes :=
  match parseFrames maxPayload scratch.length scratch with
  | (.ok frames, scratch) =>
    if hitEof ∧ frames = [] then (.error .closed, scratch) else (.ok frames, scratch)
  | (.error e, scratch) => (.error e, scratch)

def readFramesPlain (reads : List (SockRead Chunk)) (maxPayload : Nat) (scratch : Bytes) :
    Except ConnError (List Frame) × Bytes :=
  match readPlain reads scratch with
  | (scratch, .failed) => (.error .closed, scratch)
  | (scratch, .eof) => finishRead maxPayload true scratch
  | (scratch, .blocked) => finishRead maxPayload false scratch

def readFramesTls (reads : List (SockRead Move)) (flight : List FlightWrite) (maxPayload : Nat)
    (t : Tls) (scratch : Bytes) : Except ConnError (List Frame) × Tls × Bytes :=
  match t.readTls reads with
  | (t, .failed) => (.error .closed, t, scratch)
  | (t, ending) =>
    match writeFlight flight with
    | none => (.error .closed, t, scratch)
    | some _ =>
      let (t, scratch) := t.takePlaintext t.plaintext.length scratch
      let (result, scratch) := finishRead maxPayload (ending = .eof) scratch
      (result, t, scratch)

/-! ## What the loops read -/

/-- The bytes read before the socket blocks, ends or fails. -/
def available : List (SockRead Chunk) → Bytes
  | .data chunk :: reads => chunk.1 ++ available reads
  | .interrupted :: reads => available reads
  | _ => []

/-- How the reads end. -/
def ending : List (SockRead Chunk) → Ending
  | [] | .wouldBlock :: _ => .blocked
  | .data _ :: reads | .interrupted :: reads => ending reads
  | .eof :: _ => .eof
  | .error :: _ => .failed

theorem readPlain_eq (reads : List (SockRead Chunk)) (buf : Bytes) :
    readPlain reads buf = (buf ++ available reads, ending reads) := by
  induction reads generalizing buf with
  | nil => simp [readPlain, available, ending]
  | cons r _ ih => cases r <;> simp [readPlain, available, ending, ih]

/-- The bytes of a script of reads. -/
def chunkBytes : List (SockRead Chunk) → Bytes
  | [] => []
  | .data chunk :: reads => chunk.1 ++ chunkBytes reads
  | _ :: reads => chunkBytes reads

/-- Reads that only deliver data or are interrupted. -/
def Calm {α : Type} (reads : List (SockRead α)) : Prop :=
  ∀ r ∈ reads, r = .interrupted ∨ ∃ a, r = .data a

/-- However its bytes are cut into reads, a socket that stays open is read to the
last byte. -/
theorem readPlain_calm {reads : List (SockRead Chunk)} (h : Calm reads) (buf : Bytes) :
    readPlain reads buf = (buf ++ chunkBytes reads, .blocked) := by
  induction reads generalizing buf with
  | nil => simp [readPlain, chunkBytes]
  | cons r reads ih =>
    have htail : Calm reads := fun r' hr => h r' (List.mem_cons_of_mem r hr)
    rcases h r List.mem_cons_self with rfl | ⟨chunk, rfl⟩
    · rw [readPlain, ih htail, chunkBytes]
      exact nofun
    · rw [readPlain, ih htail, chunkBytes, List.append_assoc]

/-- The reader loop takes all the plaintext. -/
theorem Tls.takePlaintext_eq (t : Tls) (buf : Bytes) {fuel : Nat}
    (hfuel : t.plaintext.length ≤ fuel) :
    t.takePlaintext fuel buf = ({ t with plaintext := [] }, buf ++ t.plaintext) := by
  induction fuel generalizing t buf with
  | zero =>
    have hempty : t.plaintext = [] := List.eq_nil_of_length_eq_zero (Nat.le_zero.mp hfuel)
    have hclear : ({ t with plaintext := [] } : Tls) = t := by rw [← hempty]
    rw [takePlaintext, hclear, hempty, List.append_nil]
  | succ fuel ih =>
    rw [takePlaintext]
    by_cases hempty : t.plaintext = []
    · have hclear : ({ t with plaintext := [] } : Tls) = t := by rw [← hempty]
      rw [if_pos hempty, hclear, hempty, List.append_nil]
    · have hpos : 0 < t.plaintext.length := List.length_pos_of_ne_nil hempty
      have hless : (t.plaintext.drop chunkSize).length ≤ fuel := by
        rw [List.length_drop, chunkSize]
        omega
      rw [if_neg hempty, ih { t with plaintext := t.plaintext.drop chunkSize } _ hless,
        List.append_assoc, List.take_append_drop]

/-- Splitting a stream into records does not depend on how it arrives. -/
theorem deframe_add (m n : Nat) (records : List Record) :
    deframe (m + n) records =
      ((deframe m records).1 ++ (deframe ((deframe m records).2.2 + n) (deframe m records).2.1).1,
        (deframe ((deframe m records).2.2 + n) (deframe m records).2.1).2) := by
  induction records generalizing m with
  | nil => simp [deframe]
  | cons record _ ih =>
    by_cases hdone : record.wire ≤ m
    · have hdone' : (record.wire : Nat) ≤ m + n := Nat.le_add_right_of_le hdone
      have hsub : m + n - record.wire = m - record.wire + n := by omega
      rw [deframe, if_pos hdone', hsub, ih, deframe, if_pos hdone]
      rfl
    · rw [deframe.eq_2 m, if_neg hdone]
      rfl

end Pylon.Transport
