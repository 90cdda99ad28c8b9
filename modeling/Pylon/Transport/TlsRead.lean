import Pylon.Lib.Trace
import Pylon.Transport.Read

/-!
# TLS reads against plain reads

A peer sends a stream of plaintext, once over TLS in records of any size and once
in the clear; whenever ciphertext arrives, the plain connection is given the
plaintext of the records that are complete with it. The two connections are asked
for their head bytes or their frames in the same order.

* **what fits** — the plaintext completed by one arrival stays below the limit of
  the session's plaintext buffer, and no write of the session fails;
* **agreement** — the two connections yield the same exactly as long as every
  arrival fits: the TLS loop reads the socket dry before it takes any plaintext
  out, so a larger arrival makes `read_tls` fail and the connection is closed.
-/

namespace Pylon.Transport

open Lib

/-! ## The peer -/

def Record.payload (record : Record) : Bytes :=
  match record.content with
  | .app bytes => bytes
  | .closeNotify | .corrupt => []

def payloads (records : List Record) : Bytes :=
  records.flatMap Record.payload

/-- The stream of a peer that only sends application data. -/
def Link.ofPeer (sent : List (ℕ+ × Bytes)) : Link :=
  { records := sent.map (fun r => { wire := r.1, content := .app r.2 }) }

/-- The plaintext completed by `n` more bytes of ciphertext. -/
def Link.arrive (l : Link) (n : Nat) : Bytes × Link :=
  let d := deframe (l.buffered + n) l.records
  (payloads d.1, { records := d.2.1, buffered := d.2.2 })

/-- What the worker asks the connection for. -/
inductive ReadOp where
  | head
  | frames (maxPayload : Nat)
  deriving DecidableEq, Repr

/-- One readiness event: the call made, the ciphertext each `read_tls` finds
(`none` is an interrupted call) until the socket blocks, and what the writes of
the session do. -/
structure Arrival where
  op : ReadOp
  pulls : List (Option Move)
  flight : List FlightWrite := []
  deriving DecidableEq, Repr

namespace Arrival

def reads (a : Arrival) : List (SockRead Move) :=
  a.pulls.map (fun pull => match pull with
    | some n => .data n
    | none => .interrupted)

/-- The ciphertext bytes that arrived. -/
def amount (a : Arrival) : Nat :=
  (a.pulls.map (fun pull => match pull with
    | some n => n.1
    | none => 0)).sum

end Arrival

/-! ## The two connections -/

/-- What a call yields: the head bytes read so far, or the frames; a closed
connection yields no head. -/
inductive Yield where
  | head (buf : Option Bytes)
  | frames (result : Except ConnError (List Frame))
  deriving DecidableEq, Repr

def Yield.Closed (y : Yield) : Prop :=
  y = .head none ∨ y = .frames (.error .closed)

def DrainStatus.head (status : DrainStatus) (buf : Bytes) : Yield :=
  .head (if status = .closed then none else some buf)

structure TlsSide where
  tls : Tls
  head : Bytes := []
  scratch : Bytes := []
  deriving DecidableEq, Repr

def TlsSide.serve (s : TlsSide) (a : Arrival) : TlsSide × Yield :=
  match a.op with
  | .head =>
    let (status, tls, buf) := drainHeadTls a.reads a.flight s.tls s.head
    ({ s with tls, head := buf }, status.head buf)
  | .frames maxPayload =>
    let (result, tls, scratch) := readFramesTls a.reads a.flight maxPayload s.tls s.scratch
    ({ s with tls, scratch }, .frames result)

structure PlainSide where
  link : Link
  head : Bytes := []
  scratch : Bytes := []
  deriving DecidableEq, Repr

/-- The reads of a socket that holds `bytes`. The first argument bounds their
number. -/
def plainReads : Nat → Bytes → List (SockRead Chunk)
  | 0, _ => []
  | fuel + 1, bytes =>
    if h : bytes = [] then []
    else
      .data ⟨bytes.take chunkSize, by simp [h, chunkSize], by simp⟩ ::
        plainReads fuel (bytes.drop chunkSize)

def PlainSide.serve (s : PlainSide) (a : Arrival) : PlainSide × Yield :=
  let (bytes, link) := s.link.arrive a.amount
  let reads := plainReads bytes.length bytes
  match a.op with
  | .head =>
    let (status, buf) := drainHeadPlain reads s.head
    ({ s with link, head := buf }, status.head buf)
  | .frames maxPayload =>
    let (result, scratch) := readFramesPlain reads maxPayload s.scratch
    ({ s with link, scratch }, .frames result)

/-- The arrival completes less plaintext than the session's buffer takes, and the
session's own writes do not fail. -/
def Fits (s : PlainSide) (a : Arrival) : Prop :=
  (s.link.arrive a.amount).1.length < plaintextLimit ∧ (writeFlight a.flight).isSome

instance (s : PlainSide) (a : Arrival) : Decidable (Fits s a) := by
  unfold Fits
  infer_instance

/-! ## The TLS loop -/

def AllApp (records : List Record) : Prop :=
  ∀ r ∈ records, ∃ bytes, r.content = .app bytes

theorem deframe_append (n : Nat) (records : List Record) :
    (deframe n records).1 ++ (deframe n records).2.1 = records := by
  induction records generalizing n with
  | nil => rfl
  | cons record records ih =>
    rw [deframe]
    split
    · show record :: ((deframe _ records).1 ++ (deframe _ records).2.1) = record :: records
      rw [ih]
    · rfl

theorem AllApp.deframe {records : List Record} (h : AllApp records) (n : Nat) :
    AllApp (deframe n records).1 ∧ AllApp (Transport.deframe n records).2.1 := by
  rw [← deframe_append n records] at h
  exact ⟨fun r hr => h r (List.mem_append_left _ hr), fun r hr => h r (List.mem_append_right _ hr)⟩

theorem Tls.foldlM_decrypt {records : List Record} (h : AllApp records) (t : Tls)
    (hopen : t.closeNotify = false) :
    records.foldlM decrypt t = some { t with plaintext := t.plaintext ++ payloads records } := by
  induction records generalizing t with
  | nil => simp [payloads]
  | cons record records ih =>
    obtain ⟨bytes, hbytes⟩ := h record List.mem_cons_self
    have htail : AllApp records := fun r hr => h r (List.mem_cons_of_mem record hr)
    have hdecrypt : t.decrypt record = some { t with plaintext := t.plaintext ++ bytes } := by
      simp [decrypt, hopen, hbytes]
    rw [List.foldlM_cons, hdecrypt]
    refine (ih htail { t with plaintext := t.plaintext ++ bytes } hopen).trans ?_
    simp [payloads, Record.payload, hbytes]

/-- What the session holds once `n` more bytes have been read and decrypted. -/
def Tls.received (t : Tls) (n : Nat) : Tls :=
  { t with
    toLink := (t.toLink.arrive n).2
    plaintext := t.plaintext ++ (t.toLink.arrive n).1 }

variable {t : Tls} {a : Arrival}

theorem Tls.processNewPackets_app (happ : AllApp t.records) (hopen : t.closeNotify = false)
    (n : Nat) : t.processNewPackets n = some (t.received n) := by
  rw [processNewPackets]
  exact foldlM_decrypt (happ.deframe _).1 _ hopen

theorem Tls.received_received (t : Tls) (m n : Nat) :
    (t.received m).received n = t.received (m + n) := by
  have hadd := deframe_add (t.buffered + m) n t.records
  rw [Nat.add_assoc] at hadd
  simp [received, Link.arrive, hadd, payloads]

/-- No record is waiting to be decrypted. -/
def Link.Settled (l : Link) : Prop :=
  deframe l.buffered l.records = ([], l.records, l.buffered)

theorem Link.settled_ofPeer (sent : List (ℕ+ × Bytes)) : (Link.ofPeer sent).Settled := by
  cases sent with
  | nil => rfl
  | cons r =>
    have hpos : ¬ (r.1 : Nat) ≤ 0 := Nat.not_le.mpr r.1.pos
    show deframe 0 (_ :: _) = _
    rw [deframe, if_neg hpos]
    rfl

theorem Link.settled_arrive (l : Link) (n : Nat) : (l.arrive n).2.Settled := by
  have hadd := deframe_add (l.buffered + n) 0 l.records
  rw [Nat.add_zero, Nat.add_zero] at hadd
  have hfst := congrArg Prod.fst hadd
  have hsnd := congrArg Prod.snd hadd
  have hnone : (deframe (deframe (l.buffered + n) l.records).2.2
      (deframe (l.buffered + n) l.records).2.1).1 = [] :=
    List.self_eq_append_right.mp hfst
  exact Prod.ext hnone hsnd.symm

theorem Tls.received_zero (h : t.Settled) : t.received 0 = t := by
  have harrive : t.toLink.arrive 0 = ([], t.toLink) := by
    rw [Link.arrive, Nat.add_zero, h]
    rfl
  rw [received, harrive, List.append_nil]

/-- A session between calls: open, its records application data, none waiting. -/
structure Tls.Ready (t : Tls) : Prop where
  isOpen : t.closeNotify = false
  allApp : AllApp t.records
  settled : t.Settled

theorem Tls.Ready.received (h : t.Ready) (n : Nat) : (t.received n).Ready where
  isOpen := h.isOpen
  allApp := (h.allApp.deframe _).2
  settled := t.toLink.settled_arrive n

theorem Tls.plaintext_le_received (t : Tls) (n : Nat) :
    t.plaintext.length ≤ (t.received n).plaintext.length := by
  show t.plaintext.length ≤ (t.plaintext ++ _).length
  rw [List.length_append]
  omega

/-- The ciphertext bytes a script of reads moves. -/
def movedBytes : List (SockRead Move) → Nat
  | [] => 0
  | .data n :: reads => n.1 + movedBytes reads
  | _ :: reads => movedBytes reads

/-- Read to the last byte, the plaintext stays below the limit: the loop stops at
the empty socket, with everything that arrived decrypted. Otherwise some `read_tls`
call finds the plaintext buffer full. -/
theorem Tls.readTls_calm {reads : List (SockRead Move)} (hcalm : Calm reads) (h : t.Ready) :
    if plaintextLimit ≤ (t.received (movedBytes reads)).plaintext.length then
      (t.readTls reads).2 = .failed
    else t.readTls reads = (t.received (movedBytes reads), .blocked) := by
  induction reads generalizing t with
  | nil =>
    rw [movedBytes, received_zero h.settled, readTls, h.isOpen]
    split
    · rfl
    · rfl
  | cons r reads ih =>
    have htail : Calm reads := fun r' hr => hcalm r' (List.mem_cons_of_mem r hr)
    rw [readTls.eq_def]
    by_cases hnow : plaintextLimit ≤ t.plaintext.length
    · rw [if_pos hnow, if_pos (hnow.trans (t.plaintext_le_received _))]
    · rw [if_neg hnow, h.isOpen]
      rcases hcalm r List.mem_cons_self with rfl | ⟨n, rfl⟩
      · exact ih htail h
      · have hmoved : (t.received n.1).received (movedBytes reads) =
            t.received (movedBytes (.data n :: reads)) := t.received_received n.1 _
        simp only [Bool.false_eq_true, if_false, processNewPackets_app h.allApp h.isOpen]
        rw [← hmoved]
        exact ih htail (h.received n.1)

namespace Arrival

theorem calm_reads (a : Arrival) : Calm a.reads := by
  intro r hr
  obtain ⟨pull, -, rfl⟩ := List.mem_map.mp hr
  cases pull with
  | none => exact Or.inl rfl
  | some n => exact Or.inr ⟨n, rfl⟩

theorem movedBytes_reads (a : Arrival) : movedBytes a.reads = a.amount := by
  unfold reads amount
  induction a.pulls with
  | nil => rfl
  | cons pull _ ih =>
    cases pull with
    | none | some => simpa [movedBytes] using ih

end Arrival

/-! ## The plain loop -/

theorem calm_plainReads (fuel : Nat) (bytes : Bytes) : Calm (plainReads fuel bytes) := by
  induction fuel generalizing bytes with
  | zero => exact nofun
  | succ _ ih =>
    rw [plainReads]
    split
    · exact nofun
    · intro r hr
      rcases List.mem_cons.mp hr with rfl | hr
      · exact Or.inr ⟨_, rfl⟩
      · exact ih _ r hr

theorem chunkBytes_plainReads {fuel : Nat} {bytes : Bytes} (hfuel : bytes.length ≤ fuel) :
    chunkBytes (plainReads fuel bytes) = bytes := by
  induction fuel generalizing bytes with
  | zero => exact (List.eq_nil_of_length_eq_zero (Nat.le_zero.mp hfuel)).symm
  | succ fuel ih =>
    rw [plainReads]
    split
    · next hempty => exact hempty.symm
    · next hne =>
      have hpos : 0 < bytes.length := List.length_pos_of_ne_nil hne
      have hless : (bytes.drop chunkSize).length ≤ fuel := by
        rw [List.length_drop, chunkSize]
        omega
      rw [chunkBytes, ih hless, List.take_append_drop]

theorem readPlain_plainReads (bytes buf : Bytes) :
    readPlain (plainReads bytes.length bytes) buf = (buf ++ bytes, .blocked) := by
  rw [readPlain_calm (calm_plainReads _ _), chunkBytes_plainReads (Nat.le_refl _)]

/-! ## One call on both connections -/

/-- The two connections agree between calls: the same ciphertext outstanding, no
plaintext held back, the same buffers. -/
structure Agree (s : TlsSide) (p : PlainSide) : Prop where
  ready : s.tls.Ready
  link : s.tls.toLink = p.link
  taken : s.tls.plaintext = []
  head : s.head = p.head
  scratch : s.scratch = p.scratch

/-- What the plain connection yields is the bytes that arrived, appended; it is
never closed. -/
theorem PlainSide.serve_eq (p : PlainSide) (a : Arrival) :
    p.serve a = match a.op with
      | .head =>
        ({ p with
            link := (p.link.arrive a.amount).2
            head := p.head ++ (p.link.arrive a.amount).1 },
          .head (some (p.head ++ (p.link.arrive a.amount).1)))
      | .frames maxPayload =>
        let r := finishRead maxPayload false (p.scratch ++ (p.link.arrive a.amount).1)
        ({ p with link := (p.link.arrive a.amount).2, scratch := r.2 }, .frames r.1) := by
  rw [serve]
  cases a.op with
  | head =>
    simp only [drainHeadPlain, readPlain_plainReads]
    rfl
  | frames => simp only [readFramesPlain, readPlain_plainReads]

theorem finishRead_ne_closed (maxPayload : Nat) (scratch : Bytes) :
    (finishRead maxPayload false scratch).1 ≠ .error .closed := by
  have hparse := parseFrames_ne_closed maxPayload scratch.length scratch
  rw [finishRead]
  generalize parseFrames maxPayload scratch.length scratch = r at hparse
  obtain ⟨frames | frames, rest⟩ := r
  · exact hparse
  · simp

theorem PlainSide.serve_not_closed (p : PlainSide) (a : Arrival) : ¬ (p.serve a).2.Closed := by
  rw [serve_eq]
  cases a.op with
  | head => simp [Yield.Closed]
  | frames maxPayload =>
    have hparse := finishRead_ne_closed maxPayload (p.scratch ++ (p.link.arrive a.amount).1)
    simpa [Yield.Closed] using hparse

theorem Agree.plaintext {s : TlsSide} {p : PlainSide} (h : Agree s p) :
    (s.tls.received (movedBytes a.reads)).plaintext = (p.link.arrive a.amount).1 := by
  rw [Tls.received, h.taken, h.link, a.movedBytes_reads, List.nil_append]

/-- An arrival that does not fit closes the TLS connection. -/
theorem TlsSide.serve_overflow {s : TlsSide} {p : PlainSide} (h : Agree s p) (hfull : ¬ Fits p a) :
    (s.serve a).2.Closed := by
  have hread := Tls.readTls_calm a.calm_reads h.ready
  rw [Fits, not_and_or, Nat.not_lt] at hfull
  rw [h.plaintext] at hread
  by_cases hover : plaintextLimit ≤ (p.link.arrive a.amount).1.length
  · -- `read_tls` failed
    rw [if_pos hover] at hread
    rw [serve]
    generalize hresult : s.tls.readTls a.reads = r at hread
    obtain ⟨t, ending⟩ := r
    obtain rfl : ending = .failed := hread
    cases a.op with
    | head => simp [drainHeadTls, hresult, DrainStatus.head, Yield.Closed]
    | frames => simp [readFramesTls, hresult, Yield.Closed]
  · -- a write of the session failed
    have hflight : writeFlight a.flight = none := by
      simpa using hfull.resolve_left hover
    rw [if_neg hover] at hread
    rw [serve]
    cases a.op with
    | head => simp [drainHeadTls, hread, hflight, DrainStatus.head, Yield.Closed]
    | frames => simp [readFramesTls, hread, hflight, Yield.Closed]

/-- While the plaintext fits the buffer, TLS serves what the plain side does. -/
theorem TlsSide.serve_fits {s : TlsSide} {p : PlainSide} (h : Agree s p) (hfits : Fits p a) :
    (s.serve a).2 = (p.serve a).2 ∧ Agree (s.serve a).1 (p.serve a).1 := by
  have hplain := h.plaintext (a := a)
  have hlink : (s.tls.received (movedBytes a.reads)).toLink = (p.link.arrive a.amount).2 := by
    rw [Tls.received, h.link, a.movedBytes_reads]
  have hready := h.ready.received (movedBytes a.reads)
  have hread := Tls.readTls_calm a.calm_reads h.ready
  rw [hplain, if_neg (Nat.not_le.mpr hfits.1)] at hread
  obtain ⟨blocked, hflight⟩ := Option.isSome_iff_exists.mp hfits.2
  generalize s.tls.received (movedBytes a.reads) = t at hplain hlink hready hread
  have htake : ∀ buf, t.takePlaintext t.plaintext.length buf =
      ({ t with plaintext := [] }, buf ++ (p.link.arrive a.amount).1) := by
    intro buf
    rw [t.takePlaintext_eq buf (Nat.le_refl _), hplain]
  have hdrained : Tls.Ready { t with plaintext := [] } :=
    ⟨hready.isOpen, hready.allApp, hready.settled⟩
  rw [serve, PlainSide.serve_eq]
  cases a.op with
  | head =>
    simp only [drainHeadTls, hread, hflight, htake, h.head]
    refine ⟨?_, ⟨hdrained, hlink, rfl, rfl, h.scratch⟩⟩
    cases blocked <;> rfl
  | frames =>
    simp only [readFramesTls, hread, hflight, htake, h.scratch, reduceCtorEq, decide_false]
    exact ⟨trivial, ⟨hdrained, hlink, rfl, h.head, rfl⟩⟩

/-! ## Whole sessions -/

def tlsStep (s : TlsSide) (a : Arrival) : TlsSide := (s.serve a).1

def plainStep (p : PlainSide) (a : Arrival) : PlainSide := (p.serve a).1

theorem agree_ofPeer (sent : List (ℕ+ × Bytes)) :
    Agree { tls := { toLink := Link.ofPeer sent } } { link := Link.ofPeer sent } where
  ready := {
    isOpen := rfl
    allApp := by
      intro r hr
      obtain ⟨s, -, rfl⟩ := List.mem_map.mp hr
      exact ⟨s.2, rfl⟩
    settled := Link.settled_ofPeer sent }
  link := rfl
  taken := rfl
  head := rfl
  scratch := rfl

/-- What the two connections yield over a session. -/
def tlsYields (sent : List (ℕ+ × Bytes)) (as : List Arrival) : List Yield :=
  outputs tlsStep (fun s a => [(s.serve a).2]) { tls := { toLink := Link.ofPeer sent } } as

@[inherit_doc tlsYields]
def plainYields (sent : List (ℕ+ × Bytes)) (as : List Arrival) : List Yield :=
  outputs plainStep (fun p a => [(p.serve a).2]) { link := Link.ofPeer sent } as

theorem plainYields_not_closed (sent : List (ℕ+ × Bytes)) (as : List Arrival) :
    ∀ y ∈ plainYields sent as, ¬ y.Closed := by
  unfold plainYields
  generalize ({ link := Link.ofPeer sent } : PlainSide) = p
  induction as generalizing p with
  | nil => exact nofun
  | cons a _ ih =>
    intro y hy
    rcases List.mem_append.mp hy with hy | hy
    · rw [List.mem_singleton.mp hy]
      exact p.serve_not_closed a
    · exact ih _ y hy

/-- Over a whole session with a peer that stays connected, the TLS connection
yields what the plain one does, and is never reported closed, exactly when every
arrival fits. -/
theorem tls_reads_eq_plain_iff (sent : List (ℕ+ × Bytes)) (as : List Arrival) :
    (tlsYields sent as = plainYields sent as ∧ ∀ y ∈ tlsYields sent as, ¬ y.Closed) ↔
      Along plainStep Fits { link := Link.ofPeer sent } as := by
  have hsame : tlsYields sent as = plainYields sent as ↔
      Along plainStep Fits { link := Link.ofPeer sent } as := by
    unfold tlsYields plainYields
    refine outputs_eq_iff Agree ?_ ?_ ?_ (agree_ofPeer sent) as
    · intro s p a
      rfl
    · intro s p a h
      constructor
      · intro heq
        by_contra hfull
        have hclosed := TlsSide.serve_overflow h hfull
        rw [(List.cons.inj heq).1] at hclosed
        exact p.serve_not_closed a hclosed
      · intro hfits
        rw [(TlsSide.serve_fits h hfits).1]
    · intro s p a h hfits
      exact (TlsSide.serve_fits h hfits).2
  constructor
  · intro h
    exact hsame.mp h.1
  · intro h
    have heq := hsame.mpr h
    exact ⟨heq, heq ▸ plainYields_not_closed sent as⟩

def zeros (n : Nat) : Bytes := List.replicate n 0

/-- The header of a 64 KiB binary frame, masked with a zero key. -/
def bulkHeader : Bytes := [0x82, 0xFF, 0, 0, 0, 0, 0, 1, 0, 0, 0, 0, 0, 0]

/-- The first 32 KiB of that frame, in two full records. -/
def bulkPeer : List (ℕ+ × Bytes) :=
  [(16406, bulkHeader ++ zeros 16370), (16406, zeros 16384)]

/-- Both records are there when the worker reads. -/
def bulkArrival : Arrival :=
  { op := .frames 65536
    pulls := List.replicate 8 (some ⟨4096, by decide⟩) ++ [some ⟨44, by decide⟩] }

theorem bulk_arrives : ((Link.ofPeer bulkPeer).arrive bulkArrival.amount).1 =
    bulkHeader ++ (zeros 16370 ++ zeros 16384) := by
  have hamount : bulkArrival.amount = 32812 := by decide
  rw [hamount]
  simp [Link.arrive, Link.ofPeer, bulkPeer, deframe, payloads, Record.payload]

theorem TlsSide.serve_frames (s : TlsSide) {maxPayload : Nat} (hop : a.op = .frames maxPayload) :
    ∃ result, (s.serve a).2 = .frames result := by
  rw [serve, hop]
  exact ⟨_, rfl⟩

theorem finishRead_incomplete {maxPayload : Nat} {scratch : Bytes}
    (h : parse scratch maxPayload = .error .incomplete) :
    finishRead maxPayload false scratch = (.ok [], scratch) := by
  have hframes : ∀ fuel, parseFrames maxPayload fuel scratch = (.ok [], scratch) := by
    intro fuel
    cases fuel with
    | zero => rfl
    | succ => rw [parseFrames, h]
  simp [finishRead, hframes]

theorem parse_bulkHeader {rest : Bytes} (hlen : rest.length < 65536) :
    parse (bulkHeader ++ rest) 65536 = .error .incomplete := by
  have hopcode : OpCode.fromU8 ((0x82 : UInt8) &&& 0x0F) = .ok .binary := by decide
  have hlength : parseLength ((0xFF : UInt8) &&& 0x7F).toNat
      (0 :: 0 :: 0 :: 0 :: 0 :: 1 :: 0 :: 0 :: 0 :: 0 :: 0 :: 0 :: rest) = .ok (65536, 8) := by
    simp [parseLength, fromBeBytes]
  show parse (0x82 :: 0xFF :: 0 :: 0 :: 0 :: 0 :: 0 :: 1 :: 0 :: 0 :: 0 :: 0 :: 0 :: 0 :: rest)
    65536 = .error .incomplete
  have hrsv : ¬ (0x82 : UInt8) &&& 0x70 ≠ 0 := by decide
  have hmasked : ¬ ¬ (0xFF : UInt8) &&& 0x80 ≠ 0 := by decide
  simp only [parse, hopcode, hlength, if_neg hrsv, if_neg hmasked]
  simpa [OpCode.isControl] using hlen

/-- 32 KiB of a well-formed frame arriving at once: the plain connection waits for
the rest of the frame, the TLS connection is reported closed. -/
theorem tls_reads_close_on_bulk :
    tlsYields bulkPeer [bulkArrival] = [.frames (.error .closed)] ∧
      plainYields bulkPeer [bulkArrival] = [.frames (.ok [])] := by
  constructor
  · have hfull : ¬ Fits { link := Link.ofPeer bulkPeer } bulkArrival := by
      intro hfits
      have hless := hfits.1
      simp only [bulk_arrives, List.length_append, zeros, List.length_replicate] at hless
      exact absurd hless (by decide)
    rcases TlsSide.serve_overflow (agree_ofPeer bulkPeer) hfull with hclosed | hclosed
    · obtain ⟨result, hframes⟩ := TlsSide.serve_frames
        { tls := { toLink := Link.ofPeer bulkPeer } } (show bulkArrival.op = .frames 65536 from rfl)
      rw [hframes] at hclosed
      cases hclosed
    · show [(TlsSide.serve _ bulkArrival).2] = _
      rw [hclosed]
  · show [(PlainSide.serve _ bulkArrival).2] = _
    have hlen : (zeros 16370 ++ zeros 16384).length < 65536 := by
      simp only [zeros, List.length_append, List.length_replicate]
      decide
    have hread := finishRead_incomplete (parse_bulkHeader hlen)
    rw [PlainSide.serve_eq, bulk_arrives]
    show [Yield.frames (finishRead 65536 false ([] ++ _)).1] = _
    rw [List.nil_append, hread]

end Pylon.Transport
