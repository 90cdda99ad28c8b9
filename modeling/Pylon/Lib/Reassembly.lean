import Mathlib.Data.List.Basic

/-!
# Messages from fragments

A stream of frames carries messages, each in one frame or in fragments; control
frames may stand between the fragments. Only text messages are delivered, and of the
fragmented ones only those up to a bound.

* **`Assembly`** — the reference: it keeps the fragments of the open message and
  decides when the last one is there;
* **`Buffer`** — what a receiver can afford: it checks the bound at every fragment
  and keeps nothing of a message that is over it.
-/

namespace Pylon.Lib

variable {α : Type*}

/-- What a frame is to the messages. -/
inductive Piece (α : Type*) where
  | text (fin : Bool) (payload : List α)
  | binary (fin : Bool)
  | continuation (fin : Bool) (payload : List α)
  | control
  | close

/-- The fragmented message in progress, as a whole. -/
inductive Assembly (α : Type*) where
  | idle
  | text (fragments : List (List α))
  | binary

section

variable (maxBytes : Nat) (valid : List α → Bool)

/-- A text message is delivered if it is valid; otherwise the stream fails. -/
def deliver {β : Type*} (next : β) (message : List α) : Option (β × Option (List α)) :=
  if valid message then some (next, some message) else none

namespace Assembly

/-- One frame: the state after it and the message it delivers; none, if it fails the
stream. A binary frame within a binary message is put up with. -/
def step : Assembly α → Piece α → Option (Assembly α × Option (List α))
  | .idle, .text true payload => deliver valid .idle payload
  | .idle, .text false payload => some (.text [payload], none)
  | .idle, .binary true => some (.idle, none)
  | .idle, .binary false => some (.binary, none)
  | .idle, .continuation _ _ => none
  | .text fragments, .continuation true payload =>
    let message := (fragments ++ [payload]).flatten
    if message.length ≤ maxBytes then deliver valid .idle message else some (.idle, none)
  | .text fragments, .continuation false payload => some (.text (fragments ++ [payload]), none)
  | .text _, .text _ _ => none
  | .text _, .binary _ => none
  | .binary, .continuation true _ => some (.idle, none)
  | .binary, .continuation false _ => some (.binary, none)
  | .binary, .binary _ => some (.binary, none)
  | .binary, .text _ _ => none
  | s, .control => some (s, none)
  | _, .close => none

/-- The state after a sequence of frames, unless one of them failed the stream. -/
def after : Assembly α → List (Piece α) → Option (Assembly α)
  | s, [] => some s
  | s, p :: ps =>
    match s.step maxBytes valid p with
    | none => none
    | some (s', _) => s'.after ps

/-- The messages a sequence of frames delivers, up to a failure. -/
def messages : Assembly α → List (Piece α) → List (List α)
  | _, [] => []
  | s, p :: ps =>
    match s.step maxBytes valid p with
    | none => []
    | some (s', message) => message.toList ++ s'.messages ps

end Assembly

/-- The fragmented message in progress, as far as it is kept. -/
inductive Buffer (α : Type*) where
  | idle
  | text (bytes : List α)
  | oversize
  | binary

namespace Buffer

/-- What the buffer keeps. -/
def held : Buffer α → List α
  | .text bytes => bytes
  | .idle | .oversize | .binary => []

/-- A text message that has come so far, if it is not too long. -/
def hold (bytes : List α) : Buffer α := if bytes.length ≤ maxBytes then .text bytes else .oversize

/-- One frame, with the bound checked at once. -/
def step : Buffer α → Piece α → Option (Buffer α × Option (List α))
  | .idle, .text true payload => deliver valid .idle payload
  | .idle, .text false payload => some (hold maxBytes payload, none)
  | .idle, .binary true => some (.idle, none)
  | .idle, .binary false => some (.binary, none)
  | .idle, .continuation _ _ => none
  | .text bytes, .continuation true payload =>
    if maxBytes < bytes.length + payload.length then some (.idle, none)
    else deliver valid .idle (bytes ++ payload)
  | .text bytes, .continuation false payload => some (hold maxBytes (bytes ++ payload), none)
  | .oversize, .continuation true _ => some (.idle, none)
  | .oversize, .continuation false _ => some (.oversize, none)
  | .binary, .continuation true _ => some (.idle, none)
  | .binary, .continuation false _ => some (.binary, none)
  | .binary, .binary _ => some (.binary, none)
  | .text _, .text _ _ | .oversize, .text _ _ | .binary, .text _ _ => none
  | .text _, .binary _ | .oversize, .binary _ => none
  | b, .control => some (b, none)
  | _, .close => none

@[simp] theorem step_control (b : Buffer α) : b.step maxBytes valid .control = some (b, none) := by
  cases b <;> rfl

@[simp] theorem step_close (b : Buffer α) : b.step maxBytes valid .close = none := by
  cases b <;> rfl

end Buffer

/-! ## The two agree -/

/-- What a buffer keeps of a message in progress. -/
def Assembly.bounded : Assembly α → Buffer α
  | .idle => .idle
  | .text fragments => .hold maxBytes fragments.flatten
  | .binary => .binary

theorem Buffer.held_bounded (s : Assembly α) : (s.bounded maxBytes).held.length ≤ maxBytes := by
  cases s with
  | idle | binary => exact Nat.zero_le _
  | text fragments =>
    show (Buffer.hold maxBytes fragments.flatten).held.length ≤ maxBytes
    unfold Buffer.hold
    split
    · assumption
    · exact Nat.zero_le _

theorem Buffer.hold_of_le {bytes : List α} (h : bytes.length ≤ maxBytes) :
    Buffer.hold maxBytes bytes = .text bytes :=
  if_pos h

theorem Buffer.hold_of_lt {bytes : List α} (h : maxBytes < bytes.length) :
    Buffer.hold maxBytes bytes = .oversize :=
  if_neg (Nat.not_le.mpr h)

/-- The last fragment of a text message, which may be over the bound already. -/
theorem Buffer.step_last (bytes payload : List α) :
    (Buffer.hold maxBytes bytes).step maxBytes valid (.continuation true payload) =
      if (bytes ++ payload).length ≤ maxBytes then deliver valid .idle (bytes ++ payload)
      else some (.idle, none) := by
  have hlength : (bytes ++ payload).length = bytes.length + payload.length := List.length_append
  by_cases hpart : bytes.length ≤ maxBytes
  · rw [hold_of_le maxBytes hpart, step, hlength]
    by_cases hwhole : bytes.length + payload.length ≤ maxBytes
    · rw [if_neg (Nat.not_lt.mpr hwhole), if_pos hwhole]
    · rw [if_pos (Nat.not_le.mp hwhole), if_neg hwhole]
  · rw [hold_of_lt maxBytes (Nat.not_le.mp hpart), step, if_neg (by omega)]

theorem Buffer.step_more (bytes payload : List α) :
    (Buffer.hold maxBytes bytes).step maxBytes valid (.continuation false payload) =
      some (.hold maxBytes (bytes ++ payload), none) := by
  have hlength : (bytes ++ payload).length = bytes.length + payload.length := List.length_append
  by_cases hpart : bytes.length ≤ maxBytes
  · rw [hold_of_le maxBytes hpart, step]
  · rw [hold_of_lt maxBytes (Nat.not_le.mp hpart), step,
      hold_of_lt maxBytes (show maxBytes < (bytes ++ payload).length by omega)]

/-- Checking the bound at every fragment comes to the same as checking the message. -/
theorem Buffer.step_bounded (s : Assembly α) (p : Piece α) :
    (s.bounded maxBytes).step maxBytes valid p =
      (s.step maxBytes valid p).map fun r => (r.1.bounded maxBytes, r.2) := by
  have hdeliver (message : List α) :
      deliver valid (.idle : Buffer α) message =
        (deliver valid (.idle : Assembly α) message).map
          fun r => (r.1.bounded maxBytes, r.2) := by
    unfold deliver
    split <;> rfl
  cases s with
  | idle =>
    cases p with
    | text fin payload =>
      cases fin with
      | true => exact hdeliver payload
      | false =>
        show some (Buffer.hold maxBytes payload, none) =
          some (Buffer.hold maxBytes [payload].flatten, none)
        rw [List.flatten_singleton]
    | binary fin => cases fin <;> rfl
    | continuation | control | close => rfl
  | text fragments =>
    cases p with
    | continuation fin payload =>
      have hflatten : (fragments ++ [payload]).flatten = fragments.flatten ++ payload := by
        rw [List.flatten_append, List.flatten_singleton]
      cases fin with
      | true =>
        rw [Assembly.step, Assembly.bounded, step_last, hflatten]
        split
        · exact hdeliver _
        · rfl
      | false =>
        rw [Assembly.step, Assembly.bounded, step_more, ← hflatten]
        rfl
    | text | binary | close =>
      rw [Assembly.bounded, Buffer.hold]
      split <;> rfl
    | control =>
      rw [Assembly.step, Option.map_some, Assembly.bounded, Buffer.hold]
      split <;> rfl
  | binary =>
    cases p with
    | continuation fin => cases fin <;> rfl
    | text | binary | control | close => rfl

end

end Pylon.Lib
