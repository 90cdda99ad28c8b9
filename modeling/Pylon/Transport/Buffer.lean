import Mathlib.Data.List.Induction
import Pylon.Transport.Frame

/-!
# The parser on the caller's buffer

`transport/frame.rs`. `BytesMut.parse` is the parser as its caller sees it: it
reads the shared buffer, takes a frame out once the whole of it is there, and
unmasks a word at a time. The buffer is state and an error does not restore it, so
that a failed call leaves the bytes alone is a result here (`parse_on`) and not a
convention of the model. Otherwise it runs as `Transport.parse` does.
-/

namespace Pylon.Transport

/-! ## Big-endian fields -/

@[simp] theorem length_toBeBytes (n v : Nat) : (toBeBytes n v).length = n := by
  induction n generalizing v with
  | zero => rfl
  | succ _ ih => simp [toBeBytes, ih]

theorem fromBeBytes_concat (field : Bytes) (b : UInt8) :
    fromBeBytes (field ++ [b]) = fromBeBytes field * 256 + b.toNat := by
  simp [fromBeBytes]

theorem fromBeBytes_toBeBytes {n v : Nat} (hv : v < 256 ^ n) : fromBeBytes (toBeBytes n v) = v := by
  induction n generalizing v with
  | zero =>
    have hzero : v = 0 := by simpa using hv
    simp [toBeBytes, fromBeBytes, hzero]
  | succ n ih =>
    have hhigh : v / 256 < 256 ^ n := by
      rw [Nat.pow_succ] at hv
      exact Nat.div_lt_of_lt_mul (by omega)
    have hlow : (UInt8.ofNat v).toNat = v % 256 := UInt8.toNat_ofNat'
    rw [toBeBytes, fromBeBytes_concat, ih hhigh, hlow]
    omega

theorem fromBeBytes_take {n v : Nat} (hv : v < 256 ^ n) (rest : Bytes) :
    fromBeBytes ((toBeBytes n v ++ rest).take n) = v := by
  rw [List.take_left' (length_toBeBytes n v), fromBeBytes_toBeBytes hv]

theorem toBeBytes_fromBeBytes (field : Bytes) :
    toBeBytes field.length (fromBeBytes field) = field := by
  induction field using List.reverseRecOn with
  | nil => rfl
  | append_singleton field b ih =>
    have hbyte := b.toNat_lt
    have hhigh : (fromBeBytes field * 256 + b.toNat) / 256 = fromBeBytes field := by omega
    have hlow : UInt8.ofNat (fromBeBytes field * 256 + b.toNat) = b := by
      rw [← UInt8.toNat_inj, UInt8.toNat_ofNat']
      omega
    rw [List.length_append, List.length_singleton, fromBeBytes_concat, toBeBytes, hhigh, ih, hlow]

theorem fromBeBytes_lt (field : Bytes) : fromBeBytes field < 256 ^ field.length := by
  induction field using List.reverseRecOn with
  | nil => simp [fromBeBytes]
  | append_singleton _ b ih =>
    have hbyte := b.toNat_lt
    rw [fromBeBytes_concat, List.length_append, List.length_singleton, Nat.pow_succ]
    omega

/-! ## Masking -/

/-- `transformed[i] = original[i] XOR key[i % 4]`. -/
def masked (key data : Bytes) : Bytes :=
  data.mapIdx fun i byte => byte ^^^ key.getD (i % 4) 0

@[simp] theorem length_masked (key data : Bytes) : (masked key data).length = data.length := by
  simp [masked]

theorem masked_masked (key data : Bytes) : masked key (masked key data) = data := by
  apply List.ext_getElem (by simp)
  intro i _ _
  simp only [masked, List.getElem_mapIdx, UInt8.xor_assoc, UInt8.xor_self, UInt8.xor_zero]

/-- Eight bytes on, the key is where it was. -/
theorem unmask_eq_masked {key : Bytes} (hkey : key.length = 4) (data : Bytes) :
    unmask key data = masked key data := by
  obtain ⟨k0, k1, k2, k3, rfl⟩ := List.length_eq_four.mp hkey
  fun_induction unmask [k0, k1, k2, k3] data with
  | case1 _ _ _ _ _ _ _ _ _ ih =>
    rw [ih]
    simp [masked, List.mapIdx_cons, Nat.add_assoc]
  | case2 => rfl

/-! ## The parser on the caller's buffer -/

namespace BytesMut

/-- `u64::from_le_bytes`. -/
def fromLeBytes : Bytes → Nat
  | [] => 0
  | byte :: rest => 2 ^ 8 * fromLeBytes rest + byte.toNat

/-- `u64::to_le_bytes`, of so many bytes. -/
def toLeBytes : Nat → Nat → Bytes
  | 0, _ => []
  | n + 1, word => UInt8.ofNat word :: toLeBytes n (word / 2 ^ 8)

theorem toLeBytes_fromLeBytes (bytes : Bytes) :
    toLeBytes bytes.length (fromLeBytes bytes) = bytes := by
  induction bytes with
  | nil => rfl
  | cons byte rest ih =>
    have hbyte := byte.toNat_lt
    have hlow : UInt8.ofNat (2 ^ 8 * fromLeBytes rest + byte.toNat) = byte := by
      rw [← UInt8.toNat_inj, UInt8.toNat_ofNat']
      omega
    have hhigh : (2 ^ 8 * fromLeBytes rest + byte.toNat) / 2 ^ 8 = fromLeBytes rest := by omega
    rw [List.length_cons, fromLeBytes, toLeBytes, hlow, hhigh, ih]

/-- A word is its bytes side by side, so `XOR` acts on each. -/
theorem fromLeBytes_xor {left right : Bytes} (hlen : left.length = right.length) :
    fromLeBytes left ^^^ fromLeBytes right = fromLeBytes (List.zipWith (· ^^^ ·) left right) := by
  induction left generalizing right with
  | nil => simp [fromLeBytes, List.length_eq_zero_iff.mp hlen.symm]
  | cons a _ ih =>
    obtain ⟨b, right, rfl⟩ := List.exists_cons_of_length_eq_add_one hlen.symm
    rw [List.zipWith_cons_cons, fromLeBytes, fromLeBytes, fromLeBytes, ← ih (by simpa using hlen)]
    apply Nat.eq_of_testBit_eq
    intro j
    rw [Nat.testBit_xor, Nat.testBit_two_pow_mul_add _ a.toNat_lt,
      Nat.testBit_two_pow_mul_add _ b.toNat_lt, Nat.testBit_two_pow_mul_add _ (UInt8.toNat_lt _),
      UInt8.toNat_xor]
    split <;> rw [Nat.testBit_xor]

/-- Unmask in place: whole words against the key written twice, then the tail. -/
def unmask (key : Bytes) : Bytes → Bytes
  | a :: b :: c :: d :: e :: f :: g :: h :: rest =>
    toLeBytes 8 (fromLeBytes [a, b, c, d, e, f, g, h] ^^^ fromLeBytes (key ++ key)) ++
      unmask key rest
  | tail => tail.mapIdx (fun i byte => byte ^^^ key.getD (i % 4) 0)

theorem unmask_eq {key : Bytes} (hkey : key.length = 4) (data : Bytes) :
    unmask key data = Transport.unmask key data := by
  fun_induction unmask key data with
  | case1 a b c d e f g h _ ih =>
    have hword := toLeBytes_fromLeBytes
      (List.zipWith (· ^^^ ·) [a, b, c, d, e, f, g, h] (key ++ key))
    rw [List.length_zipWith, List.length_append, hkey] at hword
    rw [Transport.unmask, ih, fromLeBytes_xor (by simp [hkey])]
    exact congrArg (· ++ _) hword
  | case2 tail h => rw [Transport.unmask.eq_2 key tail h]

/-- A fallible function over the buffer. An error does not put back what was taken. -/
abbrev Parser := ExceptT ParseError (StateM Bytes)

/-- Take the first bytes out of the buffer. -/
def splitTo (n : Nat) : Parser Bytes :=
  modifyGet fun buf => (buf.take n, buf.drop n)

/-- The payload length and the bytes its extended form takes. -/
def payloadLen (len7 : Nat) : Parser (Nat × Nat) := do
  let buf ← get
  match len7 with
  | 126 =>
    if buf.length < 4 then throw .incomplete
    else return (fromBeBytes ((buf.drop 2).take 2), 2)
  | 127 =>
    if buf.length < 10 then throw .incomplete
    else
      let raw := fromBeBytes ((buf.drop 2).take 8)
      if raw.testBit 63 then throw (.protocol "64-bit length high bit set")
      else return (raw, 8)
  | n => return (n, 0)

/-- Parse one frame from the front of the buffer. -/
def parse (maxPayload : Nat) : Parser Frame := do
  let buf ← get
  if buf.length < 2 then throw .incomplete else
  let b0 := buf.getD 0 0
  let b1 := buf.getD 1 0
  let fin := b0 &&& 0x80 ≠ 0
  if b0 &&& 0x70 ≠ 0 then throw (.protocol "reserved bits set") else
  let opcode ← MonadExcept.ofExcept (OpCode.fromU8 (b0 &&& 0x0F))
  let (payloadLen, lenFieldBytes) ← payloadLen (b1 &&& 0x7F).toNat
  if opcode.isControl ∧ ¬ fin then throw (.protocol "fragmented control frame") else
  if opcode.isControl ∧ 125 < payloadLen then throw (.protocol "control frame payload > 125") else
  if ¬ b1 &&& 0x80 ≠ 0 then throw (.protocol "unmasked client frame") else
  if maxPayload < payloadLen then throw .tooLarge else
  let headerLen := 2 + lenFieldBytes + 4
  if buf.length < headerLen + payloadLen then throw .incomplete else
  let frameBytes ← splitTo (headerLen + payloadLen)
  let key := (frameBytes.drop (2 + lenFieldBytes)).take 4
  return { fin, opcode, payload := unmask key (frameBytes.drop headerLen) }

/-- What a call comes to, and the buffer it leaves. -/
def Parser.on {α : Type} (p : Parser α) (buf : Bytes) : Except ParseError α × Bytes :=
  p.run.run buf

/-- What the caller finds when only a frame takes anything out of the buffer. -/
def answer (buf : Bytes) : Except ParseError (Frame × Bytes) → Except ParseError Frame × Bytes
  | .ok r => (.ok r.1, r.2)
  | .error e => (.error e, buf)

section Run

variable {α β : Type} {buf buf' : Bytes} {p : Parser α} {e : ParseError}

theorem on_get_bind (f : Bytes → Parser β) : Parser.on (get >>= f) buf = (f buf).on buf := rfl

theorem on_ofExcept_bind (a : α) (f : α → Parser β) :
    Parser.on (MonadExcept.ofExcept (.ok a : Except ParseError α) >>= f) buf = (f a).on buf := rfl

theorem on_splitTo_bind (n : Nat) (f : Bytes → Parser β) :
    (splitTo n >>= f).on buf = (f (buf.take n)).on (buf.drop n) := rfl

theorem on_bind_ok {a : α} (h : p.on buf = (.ok a, buf')) (f : α → Parser β) :
    (p >>= f).on buf = (f a).on buf' := by
  simp only [Parser.on] at h ⊢
  rw [ExceptT.run_bind, StateT.run_bind, h]
  rfl

theorem on_bind_error (h : p.on buf = (.error e, buf')) (f : α → Parser β) :
    (p >>= f).on buf = (.error e, buf') := by
  simp only [Parser.on] at h ⊢
  rw [ExceptT.run_bind, StateT.run_bind, h]
  rfl

theorem on_throw_ite {c : Prop} [Decidable c] {r : Except ParseError α}
    (h : ¬ c → p.on buf = (r, buf)) :
    Parser.on (if c then throw e else p) buf = (if c then .error e else r, buf) := by
  by_cases hc : c
  · rw [if_pos hc, if_pos hc]
    rfl
  · rw [if_neg hc, if_neg hc, h hc]

/-- A check that fails is the answer, and one that passes is out of the way. -/
theorem on_check {c : Prop} [Decidable c] {p : Parser Frame} {r : Except ParseError (Frame × Bytes)}
    (h : ¬ c → p.on buf = answer buf r) :
    Parser.on (if c then throw e else p) buf = answer buf (if c then .error e else r) := by
  by_cases hc : c
  · rw [if_pos hc, if_pos hc]
    rfl
  · rw [if_neg hc, if_neg hc, h hc]

end Run

/-- Bit 63 of a field of eight bytes. -/
theorem testBit_fromBeBytes {field : Bytes} (hlen : field.length = 8) :
    (fromBeBytes field).testBit 63 = true ↔ 2 ^ 63 ≤ fromBeBytes field := by
  have hlt := fromBeBytes_lt field
  rw [hlen] at hlt
  constructor
  · exact Nat.ge_two_pow_of_testBit
  · intro hle
    rw [Nat.testBit_eq_decide_div_mod_eq, decide_eq_true_eq]
    omega

theorem payloadLen_on (len7 : Nat) (b0 b1 : UInt8) (tail : Bytes) :
    (payloadLen len7).on (b0 :: b1 :: tail) = (parseLength len7 tail, b0 :: b1 :: tail) := by
  have hfour : (b0 :: b1 :: tail).length < 4 ↔ tail.length < 2 := by
    simp only [List.length_cons]
    omega
  have hten : (b0 :: b1 :: tail).length < 10 ↔ tail.length < 8 := by
    simp only [List.length_cons]
    omega
  rw [payloadLen, on_get_bind, parseLength]
  split
  · simp only [hfour, reduceIte]
    exact on_throw_ite fun _ => rfl
  · simp only [hten, reduceIte, Nat.reduceEqDiff]
    refine on_throw_ite fun hlong => ?_
    have hbit := testBit_fromBeBytes (List.length_take_of_le (show 8 ≤ tail.length by omega))
    simp only [List.drop_succ_cons, List.drop_zero, hbit]
    exact on_throw_ite fun _ => rfl
  · next hmedium hlong =>
    rw [if_neg hmedium, if_neg hlong]
    rfl

/-- The parser over the buffer answers as the one over plain bytes. -/
theorem parse_on (maxPayload : Nat) (buf : Bytes) :
    (parse maxPayload).on buf = answer buf (Transport.parse buf maxPayload) := by
  rcases buf with _ | ⟨b0, _ | ⟨b1, tail⟩⟩
  · rfl
  · rfl
  · rw [parse, on_get_bind, if_neg (by simp), Transport.parse]
    refine on_check fun _ => ?_
    show Parser.on (MonadExcept.ofExcept (OpCode.fromU8 (b0 &&& 0x0F)) >>= _) _ = _
    cases OpCode.fromU8 (b0 &&& 0x0F) with
    | error => rfl
    | ok =>
      rw [on_ofExcept_bind]
      show Parser.on (payloadLen (b1 &&& 0x7F).toNat >>= _) _ = _
      have hrun := payloadLen_on (b1 &&& 0x7F).toNat b0 b1 tail
      cases hlen : parseLength (b1 &&& 0x7F).toNat tail with
      | error =>
        rw [hlen] at hrun
        rw [on_bind_error hrun]
        rfl
      | ok r =>
        obtain ⟨len, lenFieldBytes⟩ := r
        rw [hlen] at hrun
        rw [on_bind_ok hrun]
        refine on_check fun _ => on_check fun _ => on_check fun _ => on_check fun _ =>
          on_check fun hwhole => ?_
        have hkey : ((((b0 :: b1 :: tail).take (2 + lenFieldBytes + 4 + len)).drop
            (2 + lenFieldBytes)).take 4).length = 4 := by
          simp only [List.length_take, List.length_drop]
          omega
        rw [on_splitTo_bind]
        dsimp only
        rw [unmask_eq hkey]
        rfl

end BytesMut

end Pylon.Transport
