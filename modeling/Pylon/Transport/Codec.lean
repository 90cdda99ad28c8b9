import Pylon.Transport.Buffer

/-!
# The frame codec is exact

`transport/frame.rs`. What the parser accepts is described from the other end, by
the client that writes the bytes. A `ClientFrame` is a frame the protocol allows a
client, with its mask key and one of the three ways to write its length; parsing is
the inverse of `ClientFrame.bytes`, on any buffer that begins so and on no other.

An answer other than `Incomplete` is final. The checks of the header are decided on
at most ten bytes (`header`), and only the wait for the rest of the frame
(`Header.commit`) looks further.

Server frames go the other way: `encode` writes the shortest form, and
`decodeUnmasked`, a client's decoder, reads it back.
-/

namespace Pylon.Transport

/-! ## The header -/

/-- What is known of a frame before its payload is there. -/
structure Header where
  fin : Bool
  opcode : OpCode
  payloadLen : Nat
  lenFieldBytes : Nat
  deriving DecidableEq, Repr

def Header.total (h : Header) : Nat := 2 + h.lenFieldBytes + 4 + h.payloadLen

/-- The checks of `parse`, up to the wait for the whole frame. -/
def header (b0 b1 : UInt8) (tail : Bytes) (maxPayload : Nat) : Except ParseError Header :=
  if b0 &&& 0x70 ≠ 0 then .error (.protocol "reserved bits set")
  else
    match OpCode.fromU8 (b0 &&& 0x0F) with
    | .error e => .error e
    | .ok opcode =>
      match parseLength (b1 &&& 0x7F).toNat tail with
      | .error e => .error e
      | .ok (payloadLen, lenFieldBytes) =>
        if opcode.isControl ∧ ¬ b0 &&& 0x80 ≠ 0 then .error (.protocol "fragmented control frame")
        else if opcode.isControl ∧ 125 < payloadLen then
          .error (.protocol "control frame payload > 125")
        else if ¬ b1 &&& 0x80 ≠ 0 then .error (.protocol "unmasked client frame")
        else if maxPayload < payloadLen then .error .tooLarge
        else .ok { fin := b0 &&& 0x80 ≠ 0, opcode, payloadLen, lenFieldBytes }

/-- The frame behind a header, once it is whole. -/
def Header.commit (h : Header) (buf : Bytes) : Except ParseError (Frame × Bytes) :=
  if buf.length < h.total then .error .incomplete
  else
    let frameBytes := buf.take h.total
    .ok ({ fin := h.fin, opcode := h.opcode,
           payload := unmask ((frameBytes.drop (2 + h.lenFieldBytes)).take 4)
             (frameBytes.drop (2 + h.lenFieldBytes + 4)) }, buf.drop h.total)

variable {e : ParseError} {b0 b1 : UInt8} (ext : Bytes)

theorem check_bind {α β : Type} {c : Prop} [Decidable c] {r : Except ParseError α}
    {f : α → Except ParseError β} {r' : Except ParseError β} (h : r' = r.bind f) :
    (if c then .error e else r') = (if c then .error e else r).bind f := by
  by_cases hc : c
  · rw [if_pos hc, if_pos hc]
    rfl
  · rw [if_neg hc, if_neg hc]
    exact h

theorem parse_eq (b0 b1 : UInt8) (tail : Bytes) (maxPayload : Nat) :
    parse (b0 :: b1 :: tail) maxPayload =
      (header b0 b1 tail maxPayload).bind (Header.commit · (b0 :: b1 :: tail)) := by
  unfold parse header
  refine check_bind ?_
  cases OpCode.fromU8 (b0 &&& 0x0F) with
  | error => rfl
  | ok =>
    cases parseLength (b1 &&& 0x7F).toNat tail with
    | error => rfl
    | ok => exact check_bind (check_bind (check_bind (check_bind rfl)))

/-- The header passes every check. -/
structure Reads (maxPayload : Nat) (b0 b1 : UInt8) (tail : Bytes) (h : Header) : Prop where
  reserved : b0 &&& 0x70 = 0
  fin : h.fin = decide (b0 &&& 0x80 ≠ 0)
  opcode : OpCode.fromU8 (b0 &&& 0x0F) = .ok h.opcode
  length : parseLength (b1 &&& 0x7F).toNat tail = .ok (h.payloadLen, h.lenFieldBytes)
  control : h.opcode.isControl → h.fin = true ∧ h.payloadLen ≤ 125
  mask : b1 &&& 0x80 ≠ 0
  budget : h.payloadLen ≤ maxPayload

variable {maxPayload : Nat} {buf tail : Bytes}

/-- A header is read exactly if it passes every check. -/
theorem header_eq_ok_iff {h : Header} :
    header b0 b1 tail maxPayload = .ok h ↔ Reads maxPayload b0 b1 tail h := by
  rw [header, check_eq_ok]
  constructor
  · rintro ⟨hrsv, hok⟩
    cases hop : OpCode.fromU8 (b0 &&& 0x0F) with
    | error =>
      rw [hop] at hok
      cases hok
    | ok =>
      cases hlen : parseLength (b1 &&& 0x7F).toNat tail with
      | error =>
        rw [hop, hlen] at hok
        cases hok
      | ok =>
        rw [hop, hlen] at hok
        simp only [check_eq_ok] at hok
        obtain ⟨hfin, hcontrol, hmask, hbudget, hh⟩ := hok
        cases hh
        exact ⟨not_not.mp hrsv, rfl, hop, hlen,
          fun hc => ⟨decide_eq_true (not_not.mp fun hf => hfin ⟨hc, hf⟩),
            Nat.not_lt.mp fun hlt => hcontrol ⟨hc, hlt⟩⟩,
          not_not.mp hmask, Nat.not_lt.mp hbudget⟩
  · intro hr
    rw [hr.opcode, hr.length]
    simp only [check_eq_ok]
    refine ⟨not_not.mpr hr.reserved, ?_, ?_, not_not.mpr hr.mask, Nat.not_lt.mpr hr.budget, ?_⟩
    · rintro ⟨hc, hf⟩
      have hfin := (hr.control hc).1
      rw [hr.fin] at hfin
      exact hf (of_decide_eq_true hfin)
    · rintro ⟨hc, hlt⟩
      exact Nat.not_lt.mpr (hr.control hc).2 hlt
    · rw [← hr.fin]

/-! ### How far it looks -/

theorem parseLength_append {len7 : Nat} (h : parseLength len7 tail ≠ .error .incomplete) :
    parseLength len7 (tail ++ ext) = parseLength len7 tail := by
  unfold parseLength at h ⊢
  split
  · next hmedium =>
    rw [if_pos hmedium] at h
    have hlen : ¬ tail.length < 2 := fun hlt => h (if_pos hlt)
    rw [if_neg hlen, if_neg (by rw [List.length_append]; omega),
      List.take_append_of_le_length (by omega)]
  · next hmedium =>
    rw [if_neg hmedium] at h
    split
    · next hlong =>
      rw [if_pos hlong] at h
      have hlen : ¬ tail.length < 8 := fun hlt => h (if_pos hlt)
      rw [if_neg hlen, if_neg (by rw [List.length_append]; omega),
        List.take_append_of_le_length (by omega)]
    · rfl

theorem parseLength_incomplete {len7 : Nat} (h : parseLength len7 tail = .error .incomplete) :
    tail.length < 8 := by
  unfold parseLength at h
  grind

theorem header_append (h : header b0 b1 tail maxPayload ≠ .error .incomplete) :
    header b0 b1 (tail ++ ext) maxPayload = header b0 b1 tail maxPayload := by
  unfold header at h ⊢
  split
  · rfl
  · next hrsv =>
    rw [if_neg hrsv] at h
    cases hop : OpCode.fromU8 (b0 &&& 0x0F) with
    | error => rfl
    | ok =>
      rw [hop] at h
      have hlen : parseLength (b1 &&& 0x7F).toNat tail ≠ .error .incomplete := by
        intro hlen
        rw [hlen] at h
        exact h rfl
      rw [parseLength_append ext hlen]

theorem OpCode.fromU8_eq_ok_iff {v : UInt8} {opcode : OpCode} :
    OpCode.fromU8 v = .ok opcode ↔ v = opcode.asU8 := by
  constructor
  · intro h
    unfold OpCode.fromU8 at h
    split at h <;> cases h <;> rfl
  · rintro rfl
    cases opcode <;> rfl

theorem OpCode.fromU8_ne_incomplete (v : UInt8) : OpCode.fromU8 v ≠ .error .incomplete := by
  unfold OpCode.fromU8
  split <;> simp

theorem check_eq_incomplete {α : Type} {c : Prop} [Decidable c] {r : Except ParseError α}
    (he : e ≠ .incomplete) (h : (if c then .error e else r) = .error .incomplete) :
    r = .error .incomplete := by
  by_cases hc : c
  · rw [if_pos hc] at h
    cases h
    exact absurd rfl he
  · rwa [if_neg hc] at h

/-- No check but that of the length field waits for more. -/
theorem header_incomplete (h : header b0 b1 tail maxPayload = .error .incomplete) :
    tail.length < 8 := by
  have h := check_eq_incomplete (by simp) h
  cases hop : OpCode.fromU8 (b0 &&& 0x0F) with
  | error =>
    rw [hop] at h
    cases h
    exact absurd hop (OpCode.fromU8_ne_incomplete _)
  | ok =>
    cases hlen : parseLength (b1 &&& 0x7F).toNat tail with
    | error =>
      rw [hop, hlen] at h
      cases h
      exact parseLength_incomplete hlen
    | ok =>
      rw [hop, hlen] at h
      have hbudget := check_eq_incomplete (by simp) <| check_eq_incomplete (by simp) <|
        check_eq_incomplete (by simp) <| check_eq_incomplete (by simp) h
      cases hbudget

/-! ## What a client may send -/

/-- The ways to write a payload length. -/
inductive LengthForm where
  | short
  | medium
  | long
  deriving DecidableEq, Repr

namespace LengthForm

/-- The length fits the form; the top bit of the long form is reserved. -/
def Holds : LengthForm → Nat → Prop
  | short, n => n ≤ 125
  | medium, n => n < 2 ^ 16
  | long, n => n < 2 ^ 63

/-- The seven bits in the base header. -/
def len7 : LengthForm → Nat → Nat
  | short, n => n
  | medium, _ => 126
  | long, _ => 127

/-- The bytes of the extended field. -/
def width : LengthForm → Nat
  | short => 0
  | medium => 2
  | long => 8

instance (form : LengthForm) (n : Nat) : Decidable (form.Holds n) := by
  cases form <;> exact Nat.decLe _ _

theorem Holds.lt_two_pow {form : LengthForm} {n : Nat} (h : form.Holds n) : n < 2 ^ 63 := by
  cases form <;> simp only [Holds] at h <;> omega

theorem Holds.len7_lt {form : LengthForm} {n : Nat} (h : form.Holds n) : form.len7 n < 128 := by
  cases form with
  | short => exact Nat.lt_of_le_of_lt h (by decide)
  | medium => exact (by decide : 126 < 128)
  | long => exact (by decide : 127 < 128)

theorem width_le (form : LengthForm) : form.width ≤ 8 := by
  cases form <;> decide

end LengthForm

/-- The length read is one that some form writes, and each form is read back. -/
theorem parseLength_eq_ok_iff {len7 : Nat} {len width : Nat} (hlen7 : len7 < 128) :
    parseLength len7 tail = .ok (len, width) ↔
      ∃ form : LengthForm, form.Holds len ∧ form.len7 len = len7 ∧ form.width = width ∧
        toBeBytes form.width len <+: tail := by
  constructor
  · intro h
    unfold parseLength at h
    split at h
    · next hmedium =>
      obtain ⟨hlen, h⟩ := check_eq_ok.mp h
      cases h
      have hfield : (tail.take 2).length = 2 := List.length_take_of_le (by omega)
      have hlt := fromBeBytes_lt (tail.take 2)
      have hback := toBeBytes_fromBeBytes (tail.take 2)
      rw [hfield] at hlt hback
      refine ⟨.medium, hlt, hmedium.symm, rfl, ?_⟩
      show toBeBytes 2 _ <+: tail
      rw [hback]
      exact List.take_prefix 2 tail
    · next hmedium =>
      split at h
      · next hlong =>
        obtain ⟨hlen, h⟩ := check_eq_ok.mp h
        obtain ⟨hbit, h⟩ := check_eq_ok.mp h
        cases h
        have hfield : (tail.take 8).length = 8 := List.length_take_of_le (by omega)
        have hback := toBeBytes_fromBeBytes (tail.take 8)
        rw [hfield] at hback
        refine ⟨.long, Nat.not_le.mp hbit, hlong.symm, rfl, ?_⟩
        show toBeBytes 8 _ <+: tail
        rw [hback]
        exact List.take_prefix 8 tail
      · cases h
        exact ⟨.short, show len7 ≤ 125 by omega, rfl, rfl, List.nil_prefix⟩
  · rintro ⟨form, hholds, rfl, rfl, field, rfl⟩
    cases form with
    | short =>
      have hle : len ≤ 125 := hholds
      show parseLength len field = .ok (len, 0)
      rw [parseLength, if_neg (by omega), if_neg (by omega)]
    | medium =>
      show parseLength 126 (toBeBytes 2 len ++ field) = .ok (len, 2)
      have hfield : ¬ (toBeBytes 2 len ++ field).length < 2 := by
        rw [List.length_append, length_toBeBytes]
        omega
      rw [parseLength, if_pos rfl, if_neg hfield, fromBeBytes_take hholds]
    | long =>
      have hlt : len < 2 ^ 63 := hholds
      show parseLength 127 (toBeBytes 8 len ++ field) = .ok (len, 8)
      rw [parseLength, if_neg (by decide), if_pos rfl, if_neg (by simp),
        fromBeBytes_take (Nat.lt_trans hlt (by decide)), if_neg (Nat.not_le.mpr hlt)]

/-! ### The bytes of the base header -/

/-- FIN and opcode. -/
def firstByte (fin : Bool) (opcode : OpCode) : UInt8 :=
  (if fin then 0x80 else 0x00) ||| opcode.asU8

theorem firstByte_bits (fin : Bool) (opcode : OpCode) :
    firstByte fin opcode &&& 0x70 = 0 ∧ decide (firstByte fin opcode &&& 0x80 ≠ 0) = fin ∧
      firstByte fin opcode &&& 0x0F = opcode.asU8 := by
  cases fin <;> cases opcode <;> decide

theorem forall_byte {p : UInt8 → Prop} (h : ∀ i : Fin 256, p (UInt8.ofNat i)) (b : UInt8) :
    p b := by
  have hb := h ⟨b.toNat, b.toNat_lt⟩
  rwa [UInt8.ofNat_toNat] at hb

theorem firstByte_of_bits {opcode : OpCode} (hrsv : b0 &&& 0x70 = 0)
    (hop : b0 &&& 0x0F = opcode.asU8) : firstByte (decide (b0 &&& 0x80 ≠ 0)) opcode = b0 := by
  have hjoin : ∀ b : UInt8, b &&& 0x70 = 0 →
      (if decide (b &&& 0x80 ≠ 0) then 0x80 else 0x00) ||| (b &&& 0x0F) = b :=
    forall_byte (by decide +kernel)
  rw [firstByte, ← hop, hjoin b0 hrsv]

theorem secondByte_bits {k : Nat} (hk : k < 128) :
    (0x80 ||| UInt8.ofNat k) &&& 0x80 ≠ 0 ∧ ((0x80 ||| UInt8.ofNat k) &&& 0x7F).toNat = k := by
  have hsplit : ∀ k : Fin 128, (0x80 ||| UInt8.ofNat k) &&& 0x80 ≠ 0 ∧
      ((0x80 ||| UInt8.ofNat k) &&& 0x7F).toNat = k := by decide
  exact hsplit ⟨k, hk⟩

theorem secondByte_of_bits (hmask : b1 &&& 0x80 ≠ 0) :
    0x80 ||| UInt8.ofNat (b1 &&& 0x7F).toNat = b1 := by
  have hjoin : ∀ b : UInt8, b &&& 0x80 ≠ 0 → 0x80 ||| UInt8.ofNat (b &&& 0x7F).toNat = b :=
    forall_byte (by decide +kernel)
  exact hjoin b1 hmask

theorem toNat_low_lt (b1 : UInt8) : (b1 &&& 0x7F).toNat < 128 := by
  rw [UInt8.toNat_and]
  exact Nat.lt_of_le_of_lt Nat.and_le_right (by decide)

/-! ### Client frames -/

/-- A frame as a client may send it: control frames whole and short, the length in
a form that holds it. -/
structure ClientFrame extends Frame where
  key : Bytes
  form : LengthForm
  key_length : key.length = 4
  holds : form.Holds payload.length
  control : opcode.isControl → fin = true ∧ payload.length ≤ 125

/-- The frame on the wire. -/
def ClientFrame.bytes (c : ClientFrame) : Bytes :=
  firstByte c.fin c.opcode :: (0x80 ||| UInt8.ofNat (c.form.len7 c.payload.length)) ::
    toBeBytes c.form.width c.payload.length ++ c.key ++ masked c.key c.payload

theorem Header.commit_append (h : Header) {base key data : Bytes} (rest : Bytes)
    (hbase : base.length = 2 + h.lenFieldBytes) (hkey : key.length = 4)
    (hdata : data.length = h.payloadLen) :
    h.commit (base ++ key ++ data ++ rest) =
      .ok ({ fin := h.fin, opcode := h.opcode, payload := masked key data }, rest) := by
  have htotal : (base ++ key ++ data).length = h.total := by
    simp only [List.length_append, Header.total]
    omega
  have hhead : (base ++ key).length = 2 + h.lenFieldBytes + 4 := by
    simp only [List.length_append]
    omega
  rw [Header.commit, if_neg (by rw [List.length_append]; omega), List.take_left' htotal,
    List.drop_left' htotal]
  dsimp only
  rw [List.drop_left' hhead, List.append_assoc, List.drop_left' hbase, List.take_left' hkey,
    unmask_eq_masked hkey]

theorem exists_append_of_le_length {n : Nat} {l : Bytes} (h : n ≤ l.length) :
    ∃ front back, l = front ++ back ∧ front.length = n :=
  ⟨l.take n, l.drop n, (List.take_append_drop n l).symm, List.length_take_of_le h⟩

/-- Parsing inverts the client. -/
theorem parse_eq_ok_iff {rest : Bytes} {frame : Frame} :
    parse buf maxPayload = .ok (frame, rest) ↔
      ∃ c : ClientFrame, c.toFrame = frame ∧ c.payload.length ≤ maxPayload ∧
        buf = c.bytes ++ rest := by
  constructor
  · intro hparse
    rcases buf with _ | ⟨b0, _ | ⟨b1, tail⟩⟩
    · cases hparse
    · cases hparse
    · rw [parse_eq] at hparse
      cases hheader : header b0 b1 tail maxPayload with
      | error =>
        rw [hheader] at hparse
        cases hparse
      | ok h =>
        rw [hheader] at hparse
        have hr := header_eq_ok_iff.mp hheader
        obtain ⟨form, hholds, hlen7, hwidth, after, rfl⟩ :=
          (parseLength_eq_ok_iff (toNat_low_lt b1)).mp hr.length
        have hcommit : h.commit (b0 :: b1 :: (toBeBytes form.width h.payloadLen ++ after)) =
            .ok (frame, rest) := hparse
        have hwhole := (check_eq_ok.mp hcommit).1
        simp only [Header.total, List.length_cons, List.length_append, length_toBeBytes, hwidth]
          at hwhole
        -- what follows the length field is the key, the masked payload and the rest
        obtain ⟨key, after, rfl, hkey⟩ :=
          exists_append_of_le_length (show 4 ≤ after.length by omega)
        rw [List.length_append, hkey] at hwhole
        obtain ⟨data, after, rfl, hdata⟩ := exists_append_of_le_length
          (show h.payloadLen ≤ after.length by omega)
        have hbase : (b0 :: b1 :: toBeBytes form.width h.payloadLen).length =
            2 + h.lenFieldBytes := by
          simp only [List.length_cons, length_toBeBytes, hwidth]
          omega
        have hcut := h.commit_append after hbase hkey hdata
        rw [List.append_assoc, List.append_assoc] at hcut
        cases hcommit.symm.trans hcut
        have hlen : (masked key data).length = h.payloadLen := by rw [length_masked, hdata]
        refine ⟨{ fin := h.fin, opcode := h.opcode, payload := masked key data, key, form,
                  key_length := hkey
                  holds := by rw [hlen]; exact hholds
                  control := by rw [hlen]; exact hr.control }, rfl, ?_, ?_⟩
        · show (masked key data).length ≤ maxPayload
          rw [hlen]
          exact hr.budget
        · have hfirst := firstByte_of_bits hr.reserved (OpCode.fromU8_eq_ok_iff.mp hr.opcode)
          rw [← hr.fin] at hfirst
          simp only [ClientFrame.bytes, hlen, hfirst, hlen7, secondByte_of_bits hr.mask,
            masked_masked, List.append_assoc, List.cons_append]
  · rintro ⟨c, rfl, hbudget, rfl⟩
    have hbits := firstByte_bits c.fin c.opcode
    have hlow := secondByte_bits c.holds.len7_lt
    have hr : Reads maxPayload (firstByte c.fin c.opcode)
        (0x80 ||| UInt8.ofNat (c.form.len7 c.payload.length))
        (toBeBytes c.form.width c.payload.length ++ (c.key ++ masked c.key c.payload ++ rest))
        ⟨c.fin, c.opcode, c.payload.length, c.form.width⟩ :=
      { reserved := hbits.1
        fin := hbits.2.1.symm
        opcode := OpCode.fromU8_eq_ok_iff.mpr hbits.2.2
        length := (parseLength_eq_ok_iff (toNat_low_lt _)).mpr
          ⟨c.form, c.holds, hlow.2.symm, rfl, List.prefix_append _ _⟩
        control := c.control
        mask := hlow.1
        budget := hbudget }
    have hbase : (firstByte c.fin c.opcode ::
        (0x80 ||| UInt8.ofNat (c.form.len7 c.payload.length)) ::
        toBeBytes c.form.width c.payload.length).length = 2 + c.form.width := by
      simp only [List.length_cons, length_toBeBytes]
      omega
    have hcut := Header.commit_append ⟨c.fin, c.opcode, c.payload.length, c.form.width⟩ rest hbase
      c.key_length (length_masked c.key c.payload)
    rw [masked_masked] at hcut
    simp only [List.append_assoc, List.cons_append] at hr hcut
    simp only [ClientFrame.bytes, List.append_assoc, List.cons_append]
    rw [parse_eq, header_eq_ok_iff.mpr hr]
    exact hcut

/-! ## Answers that stand -/

/-- A fatal error is the header's, and more bytes do not change it. -/
theorem parse_error_append (h : parse buf maxPayload = .error e) (he : e ≠ .incomplete) :
    parse (buf ++ ext) maxPayload = .error e := by
  rcases buf with _ | ⟨b0, _ | ⟨b1, tail⟩⟩
  · cases h
    exact absurd rfl he
  · cases h
    exact absurd rfl he
  · rw [parse_eq] at h
    rw [List.cons_append, List.cons_append, parse_eq]
    cases hheader : header b0 b1 tail maxPayload with
    | error =>
      rw [hheader] at h
      cases h
      rw [header_append ext (by rw [hheader]; simpa using he), hheader]
      rfl
    | ok hd =>
      rw [hheader] at h
      change hd.commit _ = _ at h
      rw [Header.commit] at h
      split at h
      · cases h
        exact absurd rfl he
      · cases h

theorem parse_ok_append {rest : Bytes} {frame : Frame}
    (h : parse buf maxPayload = .ok (frame, rest)) :
    parse (buf ++ ext) maxPayload = .ok (frame, rest ++ ext) := by
  obtain ⟨c, hframe, hbudget, rfl⟩ := parse_eq_ok_iff.mp h
  exact parse_eq_ok_iff.mpr ⟨c, hframe, hbudget, List.append_assoc ..⟩

/-- The wait ends: no frame takes more than its budget and the largest header. -/
theorem parse_incomplete (h : parse buf maxPayload = .error .incomplete) :
    buf.length < maxPayload + 14 := by
  rcases buf with _ | ⟨b0, _ | ⟨b1, tail⟩⟩
  · simp
  · simp
  · rw [parse_eq] at h
    rw [List.length_cons, List.length_cons]
    cases hheader : header b0 b1 tail maxPayload with
    | error =>
      rw [hheader] at h
      cases h
      have hshort := header_incomplete hheader
      omega
    | ok hd =>
      rw [hheader] at h
      change hd.commit _ = _ at h
      rw [Header.commit] at h
      split at h
      · next hshort =>
        have hr := header_eq_ok_iff.mp hheader
        obtain ⟨form, -, -, hwidth, -⟩ := (parseLength_eq_ok_iff (toNat_low_lt b1)).mp hr.length
        have hfield := form.width_le
        have hbudget := hr.budget
        simp only [Header.total, List.length_cons] at hshort
        omega
      · cases h

/-! ## Server frames -/

/-- The unmasked frame with its length in the given form. -/
def serverBytes (form : LengthForm) (fin : Bool) (opcode : OpCode) (payload : Bytes) : Bytes :=
  firstByte fin opcode :: UInt8.ofNat (form.len7 payload.length) ::
    toBeBytes form.width payload.length ++ payload

/-- How a client reads a server frame. -/
def decodeUnmasked : Bytes → Option (Frame × Bytes)
  | b0 :: b1 :: tail =>
    if b0 &&& 0x70 ≠ 0 ∨ b1 &&& 0x80 ≠ 0 then none
    else do
      let opcode ← (OpCode.fromU8 (b0 &&& 0x0F)).toOption
      let width := if b1 = 126 then 2 else if b1 = 127 then 8 else 0
      let len := if width = 0 then b1.toNat else fromBeBytes (tail.take width)
      if tail.length < width + len then none
      else some ({ fin := b0 &&& 0x80 ≠ 0, opcode, payload := (tail.drop width).take len },
        tail.drop (width + len))
  | _ => none

namespace LengthForm

/-- The first form that holds the length. -/
def shortest (n : Nat) : LengthForm :=
  if n ≤ 125 then short else if n ≤ 65535 then medium else long

theorem holds_shortest {n : Nat} (hn : n < 2 ^ 63) : (shortest n).Holds n := by
  unfold shortest
  split
  · assumption
  · split
    · show n < 2 ^ 16
      omega
    · exact hn

theorem width_shortest_le {form : LengthForm} {n : Nat} (h : form.Holds n) :
    (shortest n).width ≤ form.width := by
  unfold shortest
  cases form with
  | short =>
    have hle : n ≤ 125 := h
    exact Nat.le_of_eq (congrArg width (if_pos hle))
  | medium =>
    have hle : n ≤ 65535 := Nat.le_of_lt_succ h
    rw [if_pos hle]
    split <;> decide
  | long => exact width_le _

end LengthForm

theorem encode_eq_serverBytes (fin : Bool) (opcode : OpCode) (payload : Bytes) :
    encode fin opcode payload = serverBytes (.shortest payload.length) fin opcode payload := by
  simp only [encode, serverBytes, LengthForm.shortest, firstByte]
  by_cases hshort : payload.length ≤ 125
  · simp only [if_pos hshort]
    rfl
  · by_cases hmedium : payload.length ≤ 65535
    · simp only [if_neg hshort, if_pos hmedium]
      rfl
    · simp only [if_neg hshort, if_neg hmedium]
      rfl

/-- The marker of a server frame leaves the mask bit clear and tells its form. -/
theorem marker_bits {k : Nat} (hk : k < 128) :
    UInt8.ofNat k &&& 0x80 = 0 ∧ (UInt8.ofNat k).toNat = k := by
  have hclear : ∀ k : Fin 128, UInt8.ofNat k &&& 0x80 = 0 ∧ (UInt8.ofNat k).toNat = k := by decide
  exact hclear ⟨k, hk⟩

/-- A frame the server encodes decodes to itself, with the rest left over. -/
theorem decodeUnmasked_serverBytes {form : LengthForm} {payload : Bytes}
    (h : form.Holds payload.length) (fin : Bool) (opcode : OpCode) (rest : Bytes) :
    decodeUnmasked (serverBytes form fin opcode payload ++ rest) =
      some ({ fin, opcode, payload }, rest) := by
  have hbits := firstByte_bits fin opcode
  have hmarker := marker_bits h.len7_lt
  have hwidth : (if UInt8.ofNat (form.len7 payload.length) = 126 then 2
      else if UInt8.ofNat (form.len7 payload.length) = 127 then 8 else 0) = form.width := by
    simp only [← UInt8.toNat_inj, hmarker.2]
    cases form with
    | short =>
      have hle : payload.length ≤ 125 := h
      rw [LengthForm.len7, if_neg (by simp; omega), if_neg (by simp; omega)]
      rfl
    | medium | long => rfl
  have hlen : (if form.width = 0 then (UInt8.ofNat (form.len7 payload.length)).toNat
      else fromBeBytes ((toBeBytes form.width payload.length ++ (payload ++ rest)).take
        form.width)) = payload.length := by
    rw [hmarker.2]
    cases form with
    | short => rfl
    | medium => exact fromBeBytes_take h _
    | long => exact fromBeBytes_take (Nat.lt_trans h (by decide)) _
  simp only [serverBytes, List.cons_append, List.append_assoc, decodeUnmasked]
  rw [if_neg (by simp [hbits.1, hmarker.1]), OpCode.fromU8_eq_ok_iff.mpr hbits.2.2]
  simp only [Except.toOption, Option.bind_eq_bind, Option.bind_some, hwidth, hlen, hbits.2.1]
  have hfield := length_toBeBytes form.width payload.length
  rw [if_neg (by simp), List.drop_left' hfield, List.take_left' rfl, ← List.drop_drop,
    List.drop_left' hfield, List.drop_left' rfl]

/-! ## The codec -/

/-- What the parser requires of the first two bytes and the payload. -/
structure Conforms (maxPayload : Nat) (b0 b1 : UInt8) (frame : Frame) : Prop where
  reserved : b0 &&& 0x70 = 0
  opcode : b0 &&& 0x0F = frame.opcode.asU8
  mask : b1 &&& 0x80 ≠ 0
  length : frame.payload.length < 2 ^ 63
  budget : frame.payload.length ≤ maxPayload
  control : frame.opcode.isControl → b0 &&& 0x80 ≠ 0 ∧ frame.payload.length ≤ 125

theorem ClientFrame.conforms (c : ClientFrame) (h : c.payload.length ≤ maxPayload) :
    Conforms maxPayload (firstByte c.fin c.opcode)
      (0x80 ||| UInt8.ofNat (c.form.len7 c.payload.length)) c.toFrame where
  reserved := (firstByte_bits c.fin c.opcode).1
  opcode := (firstByte_bits c.fin c.opcode).2.2
  mask := (secondByte_bits c.holds.len7_lt).1
  length := c.holds.lt_two_pow
  budget := h
  control := fun hc =>
    ⟨of_decide_eq_true ((firstByte_bits c.fin c.opcode).2.1.trans (c.control hc).1),
      (c.control hc).2⟩

namespace BytesMut

theorem parse_on_eq_ok_iff {maxPayload : Nat} {buf rest : Bytes} {frame : Frame} :
    (parse maxPayload).on buf = (.ok frame, rest) ↔
      Transport.parse buf maxPayload = .ok (frame, rest) := by
  rw [parse_on]
  cases Transport.parse buf maxPayload with
  | error => simp [answer]
  | ok => simp [answer, Prod.ext_iff]

theorem parse_on_error {maxPayload : Nat} {buf rest : Bytes} {e : ParseError}
    (h : (parse maxPayload).on buf = (.error e, rest)) :
    Transport.parse buf maxPayload = .error e ∧ rest = buf := by
  rw [parse_on] at h
  cases hparse : Transport.parse buf maxPayload with
  | error =>
    rw [hparse] at h
    cases h
    exact ⟨rfl, rfl⟩
  | ok =>
    rw [hparse] at h
    cases h

theorem parse_on_append {maxPayload : Nat} {buf : Bytes} (ext : Bytes)
    (h : ((parse maxPayload).on buf).1 ≠ .error .incomplete) :
    (parse maxPayload).on (buf ++ ext) =
      (((parse maxPayload).on buf).1, ((parse maxPayload).on buf).2 ++ ext) := by
  rw [parse_on] at h
  rw [parse_on, parse_on]
  cases hparse : Transport.parse buf maxPayload with
  | error =>
    rw [hparse] at h
    rw [parse_error_append ext hparse (by simpa [answer] using h)]
    rfl
  | ok =>
    rw [parse_ok_append ext hparse]
    rfl

end BytesMut

/-- The parser inverts every client and accepts nothing else. It takes nothing from the
buffer unless it finds a frame. Its answers stand when more bytes come, and it waits for
no more than the budget allows. Server frames have the shortest header and are read back. -/
theorem frame_codec (maxPayload : Nat) :
    (∀ (c : ClientFrame) (suffix : Bytes), c.payload.length ≤ maxPayload →
      (BytesMut.parse maxPayload).on (c.bytes ++ suffix) = (.ok c.toFrame, suffix)) ∧
    (∀ (buf rest : Bytes) (frame : Frame), (BytesMut.parse maxPayload).on buf = (.ok frame, rest) →
      (∃ b0 b1 tail, buf = b0 :: b1 :: tail ∧ Conforms maxPayload b0 b1 frame) ∧
      ∃ c : ClientFrame, c.toFrame = frame ∧ buf = c.bytes ++ rest) ∧
    (∀ (buf rest : Bytes) (e : ParseError), (BytesMut.parse maxPayload).on buf = (.error e, rest) →
      rest = buf) ∧
    (∀ buf ext : Bytes, ((BytesMut.parse maxPayload).on buf).1 ≠ .error .incomplete →
      (BytesMut.parse maxPayload).on (buf ++ ext) =
        (((BytesMut.parse maxPayload).on buf).1, ((BytesMut.parse maxPayload).on buf).2 ++ ext)) ∧
    (∀ buf : Bytes, ((BytesMut.parse maxPayload).on buf).1 = .error .incomplete →
      buf.length < maxPayload + 14) ∧
    ∀ (fin : Bool) (opcode : OpCode) (payload : Bytes), payload.length < 2 ^ 63 →
      (∃ form : LengthForm, form.Holds payload.length ∧
        encode fin opcode payload = serverBytes form fin opcode payload ∧
        ∀ other : LengthForm, other.Holds payload.length → form.width ≤ other.width) ∧
      ∀ rest : Bytes, decodeUnmasked (encode fin opcode payload ++ rest) =
        some ({ fin, opcode, payload }, rest) := by
  refine ⟨?_, ?_, ?_, ?_, ?_, ?_⟩
  · intro c suffix hbudget
    exact BytesMut.parse_on_eq_ok_iff.mpr (parse_eq_ok_iff.mpr ⟨c, rfl, hbudget, rfl⟩)
  · intro buf rest frame hok
    obtain ⟨c, rfl, hbudget, rfl⟩ := parse_eq_ok_iff.mp (BytesMut.parse_on_eq_ok_iff.mp hok)
    exact ⟨⟨_, _, _, rfl, c.conforms hbudget⟩, c, rfl, rfl⟩
  · intro buf rest e herror
    exact (BytesMut.parse_on_error herror).2
  · intro buf ext hfinal
    exact BytesMut.parse_on_append ext hfinal
  · intro buf hincomplete
    exact parse_incomplete (BytesMut.parse_on_error (Prod.ext hincomplete rfl)).1
  · intro fin opcode payload hlen
    have hholds := LengthForm.holds_shortest hlen
    refine ⟨⟨.shortest payload.length, hholds, encode_eq_serverBytes fin opcode payload,
      fun other hother => LengthForm.width_shortest_le hother⟩, fun rest => ?_⟩
    rw [encode_eq_serverBytes]
    exact decodeUnmasked_serverBytes hholds fin opcode rest

/-- A text frame whose two bytes are counted in the medium form. -/
def greeting : ClientFrame where
  fin := true
  opcode := .text
  payload := [104, 105]
  key := [1, 2, 3, 4]
  form := .medium
  key_length := rfl
  holds := by decide
  control := by decide

theorem frame_codec_greeting :
    (BytesMut.parse 125).on (greeting.bytes ++ [7]) = (.ok greeting.toFrame, [7]) ∧
    (∃ c : ClientFrame, c.toFrame = greeting.toFrame ∧ greeting.bytes ++ [7] = c.bytes ++ [7]) ∧
    (BytesMut.parse 1).on (greeting.bytes ++ [7]) = (.error .tooLarge, greeting.bytes ++ [7]) ∧
    ([0x81] : Bytes).length < 125 + 14 ∧
    decodeUnmasked (encode true .text greeting.payload ++ [7]) = some (greeting.toFrame, [7]) := by
  have hcodec := frame_codec 125
  have hlarge : (BytesMut.parse 1).on greeting.bytes = (.error .tooLarge, greeting.bytes) := rfl
  refine ⟨hcodec.1 greeting [7] (by decide), (hcodec.2.1 _ [7] greeting.toFrame rfl).2, ?_,
    hcodec.2.2.2.2.1 [0x81] rfl, (hcodec.2.2.2.2.2 true .text greeting.payload (by decide)).2 [7]⟩
  rw [(frame_codec 1).2.2.2.1 greeting.bytes [7] (by rw [hlarge]; simp), hlarge]

end Pylon.Transport
