import Mathlib.Data.List.Basic
import Mathlib.Data.List.Perm.Basic
import Mathlib.Logic.Relation

/-!
# Framed byte streams

A sender holds a queue of frames and writes their bytes to a stream, stopping
and resuming anywhere. What the receiver needs is that the stream can still be
cut back into frames, so the sender may discard a frame only as long as none of
its bytes has been written. Four moves are allowed:

* **enqueue** — a new frame joins the back of the queue;
* **evict** — some frames are discarded, never the front while it is partly
  written, and never the newest;
* **advance** — bytes of the front are written, not its last one;
* **complete** — the rest of the front is written and the frame leaves.

Whatever the moves were, an `Account` says where every frame went: it was
discarded, it was written whole, or it is still queued. Every sender whose
operations are sequences of these moves keeps the stream `Intact`, and never
discards a frame it has begun (`Steps.begun`).
-/

namespace Pylon.Lib.Framing

variable {φ β : Type*}

/-- A sender: what was enqueued so far, the frames still queued, those discarded,
how much of the front has been written, and everything written. -/
structure Line (φ β : Type*) where
  history : List φ
  queue : List φ
  gone : List φ
  cursor : Nat
  wire : List β

/-- The bytes of the front frame; none when the queue is empty. -/
def front (payload : φ → List β) (l : Line φ β) : List β :=
  (l.queue.head?.map payload).getD []

/-- The part of the front that has been written. -/
def begun (payload : φ → List β) (l : Line φ β) : List β := (front payload l).take l.cursor

/-- The cursor stands at the start of the front or inside it. -/
def Placed (payload : φ → List β) (l : Line φ β) : Prop :=
  l.cursor = 0 ∨ l.cursor < (front payload l).length

/-- One move of a sender. -/
inductive Step (payload : φ → List β) : Line φ β → Line φ β → Prop
  | enqueue (l : Line φ β) (f : φ) :
    Step payload l { l with history := l.history ++ [f], queue := l.queue ++ [f] }
  | evict (l : Line φ β) (gone kept : List φ) (shared : l.queue.Perm (gone ++ kept))
    (sub : kept.Sublist l.queue) (locked : 0 < l.cursor → kept.head? = l.queue.head?)
    (newest : kept.getLast? = l.queue.getLast?) :
    Step payload l { l with queue := kept, gone := l.gone ++ gone }
  | advance (l : Line φ β) (f : φ) (rest : List φ) (k : Nat) (queued : l.queue = f :: rest)
    (within : l.cursor + k < (payload f).length) :
    Step payload l { l with
      cursor := l.cursor + k, wire := l.wire ++ ((payload f).drop l.cursor).take k }
  | complete (l : Line φ β) (f : φ) (rest : List φ) (queued : l.queue = f :: rest) :
    Step payload l { l with
      queue := rest, cursor := 0, wire := l.wire ++ (payload f).drop l.cursor }

/-- Any number of moves. -/
abbrev Steps (payload : φ → List β) : Line φ β → Line φ β → Prop :=
  Relation.ReflTransGen (Step payload)

variable {payload : φ → List β} {l l' l'' : Line φ β} {f : φ}

theorem front_cons {rest : List φ} (queued : l.queue = f :: rest) :
    front payload l = payload f := by
  simp [front, queued]

/-- An empty queue has no front to be inside of. -/
theorem Placed.cursor_of_nil (h : Placed payload l) (hempty : l.queue = []) : l.cursor = 0 := by
  simpa [Placed, front, hempty] using h

theorem Step.placed (h : Step payload l l') (hplaced : Placed payload l) : Placed payload l' := by
  cases h with
  | enqueue g =>
    cases hq : l.queue with
    | nil => exact Or.inl (hplaced.cursor_of_nil hq)
    | cons => simpa [Placed, front, hq] using hplaced
  | evict _ kept _ _ locked =>
    by_cases hzero : l.cursor = 0
    · exact Or.inl hzero
    · refine Or.inr ?_
      show l.cursor < ((kept.head?.map payload).getD []).length
      rw [locked (Nat.pos_of_ne_zero hzero)]
      exact hplaced.resolve_left hzero
  | advance g _ k queued within =>
    refine Or.inr ?_
    show l.cursor + k < (front payload l).length
    rwa [front_cons queued]
  | complete => exact Or.inl rfl

/-! ## Where the frames went -/

/-- The moves from `l` to `l'`: `new` was enqueued, `gone` discarded and `sent` written.
What was sent and what is still queued are the frames not discarded, in their order. -/
structure Account (payload : φ → List β) (l : Line φ β) (new gone sent : List φ)
    (l' : Line φ β) : Prop where
  history : l'.history = l.history ++ new
  discarded : l'.gone = l.gone ++ gone
  shared : (l.queue ++ new).Perm (gone ++ (sent ++ l'.queue))
  order : (sent ++ l'.queue).Sublist (l.queue ++ new)
  /-- A front that has been begun is not discarded. -/
  locked : 0 < l.cursor → (sent ++ l'.queue).head? = (l.queue ++ new).head?
  /-- Nor is the newest frame. -/
  newest : (sent ++ l'.queue).getLast? = (l.queue ++ new).getLast?
  cursor : sent = [] → l.cursor ≤ l'.cursor
  /-- The bytes written complete the begun front and then the other frames sent, and
  begin the front that is left. -/
  wire : ∃ bytes, l'.wire = l.wire ++ bytes ∧
    begun payload l ++ bytes = sent.flatMap payload ++ begun payload l'

namespace Account

variable {new new' gone gone' sent sent' : List φ}

/-- Moves that only write, and finish no frame. -/
theorem writing {cursor : Nat} {bytes : List β} (hcursor : l.cursor ≤ cursor)
    (hbytes : begun payload l ++ bytes = (front payload l).take cursor) :
    Account payload l [] [] [] { l with cursor := cursor, wire := l.wire ++ bytes } where
  history := (List.append_nil _).symm
  discarded := (List.append_nil _).symm
  shared := by rw [List.append_nil, List.nil_append, List.nil_append]
  order := by rw [List.append_nil, List.nil_append]
  locked _ := by rw [List.append_nil, List.nil_append]
  newest := by rw [List.append_nil, List.nil_append]
  cursor _ := hcursor
  wire := ⟨bytes, rfl, hbytes⟩

theorem refl (l : Line φ β) : Account payload l [] [] [] l := by
  have h : Account payload l [] [] [] { l with wire := l.wire ++ [] } :=
    writing (Nat.le_refl _) (List.append_nil _)
  rwa [List.append_nil] at h

/-- What the first moves left queued is shared out by the later ones. -/
theorem trans (h : Account payload l new gone sent l')
    (h' : Account payload l' new' gone' sent' l'') :
    Account payload l (new ++ new') (gone ++ gone') (sent ++ sent') l'' where
  history := by rw [h'.history, h.history, List.append_assoc]
  discarded := by rw [h'.discarded, h.discarded, List.append_assoc]
  shared := by
    have hfirst := h.shared.append_right new'
    have hlater := (h'.shared.append_left sent).append_left gone
    have hgone := (List.perm_append_comm_assoc sent gone' (sent' ++ l''.queue)).append_left gone
    simp only [List.append_assoc] at hfirst hlater hgone ⊢
    exact hfirst.trans (hlater.trans hgone)
  order := by
    have hfirst := h.order.append_right new'
    have hlater := h'.order.append_left sent
    simp only [List.append_assoc] at hfirst hlater ⊢
    exact hlater.trans hfirst
  locked hpos := by
    have hfirst := h.locked hpos
    cases sent with
    | cons g =>
      rw [← List.append_assoc, List.head?_append (l := l.queue ++ new), ← hfirst]
      rfl
    | nil =>
      -- the front is the same, and still begun
      have hlater := h'.locked (Nat.lt_of_lt_of_le hpos (h.cursor rfl))
      rw [List.nil_append] at hfirst
      rw [List.nil_append, hlater, ← List.append_assoc, List.head?_append, hfirst,
        ← List.head?_append]
  newest := by
    rw [List.append_assoc, List.getLast?_append, h'.newest, ← List.getLast?_append,
      ← List.append_assoc, List.getLast?_append, h.newest, ← List.getLast?_append,
      List.append_assoc]
  cursor hnil := by
    obtain ⟨hsent, hsent'⟩ := List.append_eq_nil_iff.mp hnil
    exact Nat.le_trans (h.cursor hsent) (h'.cursor hsent')
  wire := by
    obtain ⟨bytes, hwire, hbytes⟩ := h.wire
    obtain ⟨bytes', hwire', hbytes'⟩ := h'.wire
    refine ⟨bytes ++ bytes', by rw [hwire', hwire, List.append_assoc], ?_⟩
    rw [← List.append_assoc, hbytes, List.append_assoc, hbytes', List.flatMap_append,
      List.append_assoc]

theorem enqueue (hplaced : Placed payload l) (f : φ) :
    Account payload l [f] [] []
      { l with history := l.history ++ [f], queue := l.queue ++ [f] } where
  history := rfl
  discarded := (List.append_nil _).symm
  shared := List.Perm.refl _
  order := List.Sublist.refl _
  locked _ := rfl
  newest := rfl
  cursor _ := Nat.le_refl _
  wire := by
    refine ⟨[], (List.append_nil _).symm, ?_⟩
    cases hq : l.queue with
    | nil => simp [begun, hplaced.cursor_of_nil hq]
    | cons => simp [begun, front, hq]

/-- A discarded frame was not begun, so the bytes of the front still are those
the stream ends with. -/
theorem evict {kept : List φ} (shared : l.queue.Perm (gone ++ kept)) (sub : kept.Sublist l.queue)
    (locked : 0 < l.cursor → kept.head? = l.queue.head?)
    (newest : kept.getLast? = l.queue.getLast?) :
    Account payload l [] gone [] { l with queue := kept, gone := l.gone ++ gone } where
  history := (List.append_nil _).symm
  discarded := rfl
  shared := by rwa [List.append_nil]
  order := by rwa [List.append_nil]
  locked hpos := by
    rw [List.append_nil]
    exact locked hpos
  newest := by rwa [List.append_nil]
  cursor _ := Nat.le_refl _
  wire := by
    refine ⟨[], (List.append_nil _).symm, ?_⟩
    rw [List.append_nil]
    by_cases hzero : l.cursor = 0
    · simp [begun, hzero]
    · simp [begun, front, locked (Nat.pos_of_ne_zero hzero)]

theorem advance {rest : List φ} (k : Nat) (queued : l.queue = f :: rest) :
    Account payload l [] [] [] { l with
      cursor := l.cursor + k, wire := l.wire ++ ((payload f).drop l.cursor).take k } := by
  refine writing (Nat.le_add_right _ _) ?_
  rw [begun, front_cons queued, List.take_add]

theorem complete {rest : List φ} (queued : l.queue = f :: rest) :
    Account payload l [] [] [f] { l with
      queue := rest, cursor := 0, wire := l.wire ++ (payload f).drop l.cursor } where
  history := (List.append_nil _).symm
  discarded := (List.append_nil _).symm
  shared := by rw [queued, List.append_nil]; exact List.Perm.refl _
  order := by rw [queued, List.append_nil]; exact List.Sublist.refl _
  locked _ := by rw [queued, List.append_nil]; rfl
  newest := by rw [queued, List.append_nil]; rfl
  cursor hnil := by cases hnil
  wire := by
    refine ⟨_, rfl, ?_⟩
    rw [begun, front_cons queued, List.take_append_drop]
    simp [begun]

end Account

theorem Step.account (h : Step payload l l') (hplaced : Placed payload l) :
    ∃ new gone sent, Account payload l new gone sent l' := by
  cases h with
  | enqueue f => exact ⟨_, _, _, Account.enqueue hplaced f⟩
  | evict _ _ shared sub locked newest => exact ⟨_, _, _, Account.evict shared sub locked newest⟩
  | advance _ _ k queued => exact ⟨_, _, _, Account.advance k queued⟩
  | complete _ _ queued => exact ⟨_, _, _, Account.complete queued⟩

theorem Steps.account (h : Steps payload l l') (hplaced : Placed payload l) :
    Placed payload l' ∧ ∃ new gone sent, Account payload l new gone sent l' := by
  induction h with
  | refl => exact ⟨hplaced, [], [], [], Account.refl l⟩
  | tail _ hstep ih =>
    obtain ⟨hplaced', new, gone, sent, haccount⟩ := ih
    obtain ⟨new', gone', sent', haccount'⟩ := hstep.account hplaced'
    exact ⟨hstep.placed hplaced', _, _, _, haccount.trans haccount'⟩

/-! ## What every sender keeps -/

/-- The stream is whole frames, a subsequence of those enqueued, and then the
first `cursor` bytes of the front; the frames still queued continue that
subsequence. -/
def Intact (payload : φ → List β) (l : Line φ β) : Prop :=
  (∃ sent : List φ, l.wire = sent.flatMap payload ++ begun payload l ∧
    (sent ++ l.queue).Sublist l.history) ∧
  Placed payload l

theorem Steps.intact (h : Steps payload l l') (hi : Intact payload l) : Intact payload l' := by
  obtain ⟨⟨sent, hwire, hsub⟩, hplaced⟩ := hi
  obtain ⟨hplaced', new, gone, sent', haccount⟩ := h.account hplaced
  obtain ⟨bytes, hbytes, hsplit⟩ := haccount.wire
  refine ⟨⟨sent ++ sent', ?_, ?_⟩, hplaced'⟩
  · rw [hbytes, hwire, List.append_assoc, hsplit, List.flatMap_append, List.append_assoc]
  · rw [haccount.history, List.append_assoc]
    have horder := haccount.order.append_left sent
    rw [← List.append_assoc sent l.queue] at horder
    exact horder.trans (hsub.append_right new)

/-- A frame that was begun is never discarded: it stays the front until all of it
has been written, right behind what the stream held. -/
theorem Steps.begun (h : Steps payload l l') (hplaced : Placed payload l)
    (hhead : l.queue.head? = some f) (hpos : 0 < l.cursor) :
    l'.queue.head? = some f ∨ (l.wire ++ (payload f).drop l.cursor) <+: l'.wire := by
  obtain ⟨-, new, gone, sent, haccount⟩ := h.account hplaced
  have hfront := haccount.locked hpos
  rw [List.head?_append (l := l.queue), hhead, Option.some_or] at hfront
  cases sent with
  | nil => exact Or.inl hfront
  | cons g rest =>
    -- the begun part and the bytes written since are the frame and more
    obtain rfl : g = f := Option.some.inj hfront
    obtain ⟨bytes, hwire, hbytes⟩ := haccount.wire
    refine Or.inr ⟨rest.flatMap payload ++ Framing.begun payload l', ?_⟩
    have hfrontBytes : front payload l = payload g := by simp [front, hhead]
    rw [Framing.begun, hfrontBytes, List.flatMap_cons, List.append_assoc] at hbytes
    have hsplit : bytes =
        (payload g).drop l.cursor ++ (rest.flatMap payload ++ Framing.begun payload l') := by
      refine @List.append_cancel_left _ ((payload g).take l.cursor) _ _ ?_
      rw [hbytes, ← List.append_assoc ((payload g).take l.cursor), List.take_append_drop]
    rw [hwire, hsplit, List.append_assoc]

end Pylon.Lib.Framing
