import Mathlib.Algebra.Group.Nat.Defs
import Mathlib.Data.List.Basic

/-!
# The WebSocket frame codec

`transport/frame.rs`. Client to server, `parse` takes one masked frame off the
front of a buffer and `parseFrames` is the loop of `read_frames` that takes every
complete one; server to client, `encode` builds an unmasked frame. Lengths are
those of a 64-bit target, where a length field below `2 ^ 63` always fits a
`usize`.
-/

namespace Pylon.Transport

abbrev Bytes := List UInt8

inductive OpCode where
  | continuation
  | text
  | binary
  | close
  | ping
  | pong
  deriving DecidableEq, Repr

structure Frame where
  fin : Bool
  opcode : OpCode
  payload : Bytes
  deriving DecidableEq, Repr

inductive ParseError where
  | incomplete
  | protocol (message : String)
  | tooLarge
  deriving DecidableEq, Repr

namespace OpCode

def fromU8 (v : UInt8) : Except ParseError OpCode :=
  match v with
  | 0x0 => .ok continuation
  | 0x1 => .ok text
  | 0x2 => .ok binary
  | 0x8 => .ok close
  | 0x9 => .ok ping
  | 0xA => .ok pong
  | _ => .error (.protocol "reserved opcode")

def asU8 : OpCode → UInt8
  | continuation => 0x0
  | text => 0x1
  | binary => 0x2
  | close => 0x8
  | ping => 0x9
  | pong => 0xA

def isControl : OpCode → Bool
  | close | ping | pong => true
  | continuation | text | binary => false

end OpCode

/-- The number a big-endian field holds. -/
def fromBeBytes (field : Bytes) : Nat :=
  field.foldl (fun n b => n * 256 + b.toNat) 0

/-- The low `n` bytes of a number, big-endian. -/
def toBeBytes : Nat → Nat → Bytes
  | 0, _ => []
  | n + 1, v => toBeBytes n (v / 256) ++ [UInt8.ofNat v]

/-- An unmasked server frame. -/
def encode (fin : Bool) (opcode : OpCode) (payload : Bytes) : Bytes :=
  let b0 := (if fin then 0x80 else 0x00) ||| opcode.asU8
  let len := payload.length
  let field :=
    if len ≤ 125 then [UInt8.ofNat len]
    else if len ≤ 65535 then 126 :: toBeBytes 2 len
    else 127 :: toBeBytes 8 len
  b0 :: (field ++ payload)

def encodeText (payload : Bytes) : Bytes := encode true .text payload

/-- Unmask with a four-byte key, eight bytes at a time against the doubled key,
then the tail byte by byte. -/
def unmask (key : Bytes) : Bytes → Bytes
  | a :: b :: c :: d :: e :: f :: g :: h :: rest =>
    List.zipWith (· ^^^ ·) [a, b, c, d, e, f, g, h] (key ++ key) ++ unmask key rest
  | tail => tail.mapIdx (fun i byte => byte ^^^ key.getD (i % 4) 0)

/-- The payload length and the size of the extended length field, given the 7-bit
length and the bytes behind the base header. -/
def parseLength (len7 : Nat) (rest : Bytes) : Except ParseError (Nat × Nat) :=
  if len7 = 126 then
    if rest.length < 2 then .error .incomplete else .ok (fromBeBytes (rest.take 2), 2)
  else if len7 = 127 then
    if rest.length < 8 then .error .incomplete
    else if 2 ^ 63 ≤ fromBeBytes (rest.take 8) then
      .error (.protocol "64-bit length high bit set")
    else .ok (fromBeBytes (rest.take 8), 8)
  else .ok (len7, 0)

/-- Parse one frame; returns it with what is left of the buffer. On an error the
buffer is untouched. -/
def parse (buf : Bytes) (maxPayload : Nat) : Except ParseError (Frame × Bytes) :=
  match buf with
  | b0 :: b1 :: rest =>
    let fin := b0 &&& 0x80 ≠ 0
    if b0 &&& 0x70 ≠ 0 then .error (.protocol "reserved bits set")
    else
      match OpCode.fromU8 (b0 &&& 0x0F) with
      | .error e => .error e
      | .ok opcode =>
        let masked := b1 &&& 0x80 ≠ 0
        match parseLength (b1 &&& 0x7F).toNat rest with
        | .error e => .error e
        | .ok (payloadLen, lenFieldBytes) =>
          if opcode.isControl ∧ ¬ fin then .error (.protocol "fragmented control frame")
          else if opcode.isControl ∧ 125 < payloadLen then
            .error (.protocol "control frame payload > 125")
          else if ¬ masked then .error (.protocol "unmasked client frame")
          else if maxPayload < payloadLen then .error .tooLarge
          else
            let headerLen := 2 + lenFieldBytes + 4
            let total := headerLen + payloadLen
            if buf.length < total then .error .incomplete
            else
              let frameBytes := buf.take total
              let key := (frameBytes.drop (2 + lenFieldBytes)).take 4
              .ok ({ fin, opcode, payload := unmask key (frameBytes.drop headerLen) },
                buf.drop total)
  | _ => .error .incomplete

theorem check_eq_ok {α : Type} {c : Prop} [Decidable c] {e : ParseError}
    {r : Except ParseError α} {a : α} :
    (if c then .error e else r) = .ok a ↔ ¬ c ∧ r = .ok a := by
  by_cases hc : c <;> simp [hc]

/-- A parsed frame took at least its two-byte header and its mask key. -/
theorem parse_consumes {buf rest : Bytes} {maxPayload : Nat} {frame : Frame}
    (h : parse buf maxPayload = .ok (frame, rest)) : rest.length + 6 ≤ buf.length := by
  rcases buf with _ | ⟨b0, _ | ⟨b1, tail⟩⟩
  · cases h
  · cases h
  · unfold parse at h
    -- every check but the last leaves with an error
    obtain ⟨-, h⟩ := check_eq_ok.mp h
    cases hop : OpCode.fromU8 (b0 &&& 0x0F) with
    | error =>
      rw [hop] at h
      cases h
    | ok =>
      rw [hop] at h
      cases hlen : parseLength (b1 &&& 0x7F).toNat tail with
      | error =>
        rw [hlen] at h
        cases h
      | ok =>
        rw [hlen] at h
        obtain ⟨-, h⟩ := check_eq_ok.mp h
        obtain ⟨-, h⟩ := check_eq_ok.mp h
        obtain ⟨-, h⟩ := check_eq_ok.mp h
        obtain ⟨-, h⟩ := check_eq_ok.mp h
        obtain ⟨hwhole, h⟩ := check_eq_ok.mp h
        simp only [Except.ok.injEq, Prod.mk.injEq] at h
        rw [← h.2, List.length_drop]
        omega

/-! ## All complete frames -/

/-- Error surfaced by the queue and read paths. -/
inductive ConnError where
  | closed
  | protocol (message : String)
  deriving DecidableEq, Repr

/-- Take every complete frame off the buffer. The first argument bounds the
iterations; each takes bytes out of the buffer. -/
def parseFrames (maxPayload : Nat) : Nat → Bytes → Except ConnError (List Frame) × Bytes
  | 0, scratch => (.ok [], scratch)
  | fuel + 1, scratch =>
    match parse scratch maxPayload with
    | .ok (frame, rest) =>
      let r := parseFrames maxPayload fuel rest
      (r.1.map (frame :: ·), r.2)
    | .error .incomplete => (.ok [], scratch)
    | .error (.protocol message) => (.error (.protocol message), scratch)
    | .error .tooLarge => (.error (.protocol "frame too large"), scratch)

/-- The bound is one: an iteration more than there are bytes finds no frame. -/
theorem parseFrames_succ (maxPayload : Nat) {fuel : Nat} {scratch : Bytes}
    (hfuel : scratch.length ≤ fuel) :
    parseFrames maxPayload (fuel + 1) scratch = parseFrames maxPayload fuel scratch := by
  induction fuel generalizing scratch with
  | zero =>
    have hempty : scratch = [] := List.eq_nil_of_length_eq_zero (Nat.le_zero.mp hfuel)
    simp [parseFrames, hempty, parse]
  | succ _ ih =>
    rw [parseFrames, parseFrames]
    cases hparse : parse scratch maxPayload with
    | error e => cases e <;> rfl
    | ok r =>
      obtain ⟨frame, rest⟩ := r
      have hconsumed := parse_consumes hparse
      dsimp only
      rw [ih (by omega)]

theorem parseFrames_ne_closed (maxPayload fuel : Nat) (scratch : Bytes) :
    (parseFrames maxPayload fuel scratch).1 ≠ .error .closed := by
  induction fuel generalizing scratch with
  | zero => simp [parseFrames]
  | succ fuel ih =>
    rw [parseFrames]
    cases hparse : parse scratch maxPayload with
    | error e => cases e <;> simp
    | ok r =>
      obtain ⟨frame, rest⟩ := r
      have hrest := ih rest
      show (parseFrames maxPayload fuel rest).1.map (frame :: ·) ≠ .error .closed
      generalize (parseFrames maxPayload fuel rest).1 = frames at hrest
      cases frames with
      | ok => exact nofun
      | error => simpa [Except.map] using hrest

end Pylon.Transport
