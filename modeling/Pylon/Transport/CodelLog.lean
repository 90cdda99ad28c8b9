import Pylon.Lib.RunningMin
import Pylon.Transport.Outbound

/-!
# What CoDel does during a flush

`transport/conn.rs`. A flush samples and drops frames at several places: before the
first batch, behind every frame that joins a batch, and again after a short write. The
loops of `Transport.Conn` list what CoDel does in them, in order, with the connection each
event finds.

The list is checked against a window that knows more than the code keeps: the code has
the least sample of the current interval, the window has all of them. `Explains` says that
a list is what took one connection to another, and `Accounted` that the frames a call
takes out of the queue are those its sink wrote and those in its list of drops.
-/

namespace Pylon.Transport

open Lib Lib.Framing

/-! ## The window -/

namespace CodelState

/-- A sample now is the last of its interval. -/
def Closes (st : CodelState) (codel : CodelParams) (now : Nat) : Prop :=
  (if st.intervalEnd = 0 then saturatingAdd now codel.intervalNs else st.intervalEnd) ≤ now

/-- The interval has passed. -/
def Elapsed (st : CodelState) (now : Nat) : Prop := st.intervalEnd ≠ 0 ∧ st.intervalEnd ≤ now

instance (st : CodelState) (codel : CodelParams) (now : Nat) : Decidable (st.Closes codel now) :=
  inferInstanceAs (Decidable (_ ≤ _))

instance (st : CodelState) (now : Nat) : Decidable (st.Elapsed now) :=
  inferInstanceAs (Decidable (_ ∧ _))

theorem noteInterval_eq (st : CodelState) (codel : CodelParams) (now sojourn : Nat) :
    st.noteInterval codel now sojourn =
      if st.Closes codel now then
        { overloaded := decide (codel.targetNs < lower st.intervalMin sojourn)
          intervalMin := some sojourn
          intervalEnd := saturatingAdd now codel.intervalNs }
      else
        { st with
          intervalMin := some (lower st.intervalMin sojourn)
          intervalEnd :=
            if st.intervalEnd = 0 then saturatingAdd now codel.intervalNs
            else st.intervalEnd } := by
  cases hmin : st.intervalMin <;> simp only [noteInterval, hmin] <;> rfl

theorem ageEmpty_eq (st : CodelState) (codel : CodelParams) (now : Nat) :
    st.ageEmpty codel now =
      if st.Elapsed now then
        { overloaded := false
          intervalMin := none
          intervalEnd := saturatingAdd now codel.intervalNs }
      else st := rfl

end CodelState

/-- The interval estimate, with every sample of the current interval: since it opened,
and with the one that closed the interval before it. -/
structure Window where
  state : CodelState := {}
  samples : List Nat := []
  deriving DecidableEq, Repr

namespace Window

def step (codel : CodelParams) (w : Window) : CodelEvent → Window
  | .sampled _ front now =>
    { state := w.state.noteInterval codel now (now - front.2)
      samples :=
        if w.state.Closes codel now then [now - front.2] else w.samples ++ [now - front.2] }
  | .dropped .. => w
  | .aged _ now =>
    { state := w.state.ageEmpty codel now
      samples := if w.state.Elapsed now then [] else w.samples }

/-- What may happen in a window. Each event finds the state the ones before it left. The
overload flag rises only with a sample that closes an interval whose samples are all
above the target. A drop takes a stale frame out of an overloaded queue, with a younger
one behind it, and not the frame whose first bytes are out. -/
def Allows (codel : CodelParams) (w : Window) : CodelEvent → Prop
  | .sampled c front now => c.codelState = w.state ∧ c.out.head? = some front ∧
      (w.state.overloaded = false → (w.step codel (.sampled c front now)).state.overloaded = true →
        w.state.Closes codel now ∧
          ∀ sample ∈ w.samples ++ [now - front.2], codel.targetNs < sample)
  | .dropped c victim now => c.codelState = w.state ∧ w.state.overloaded = true ∧
      2 * codel.targetNs < now - victim.2 ∧
      (∃ behind, c.out = victim :: behind ∧ behind ≠ []) ∧
      ¬ (0 < c.outCursor ∧ c.writevBatch = [])
  | .aged c now => c.codelState = w.state ∧ c.out = [] ∧
      ((w.step codel (.aged c now)).state.overloaded = true → w.state.overloaded = true)

/-- The state keeps the least sample. -/
def Measured (w : Window) : Prop := w.state.intervalMin = w.samples.min?

variable {w : Window}

theorem step_measured (codel : CodelParams) (h : w.Measured) (e : CodelEvent) :
    (w.step codel e).Measured := by
  cases e with
  | sampled _ _ now =>
    show (w.state.noteInterval codel now _).intervalMin = List.min? (if _ then _ else _)
    rw [CodelState.noteInterval_eq, h]
    by_cases hclose : w.state.Closes codel now
    · rw [if_pos hclose, if_pos hclose]
      rfl
    · rw [if_neg hclose, if_neg hclose, min?_concat]
  | dropped => exact h
  | aged _ now =>
    show (w.state.ageEmpty codel now).intervalMin = List.min? (if _ then _ else _)
    rw [CodelState.ageEmpty_eq]
    by_cases helapsed : w.state.Elapsed now
    · rw [if_pos helapsed, if_pos helapsed]
      rfl
    · rw [if_neg helapsed, if_neg helapsed]
      exact h

/-- The flag rises where the least sample is above the target, and then all are. -/
theorem Measured.rises {codel : CodelParams} (h : w.Measured) {c : Connection} {front : OutFrame}
    {now : Nat} (hlow : w.state.overloaded = false)
    (hhigh : (w.step codel (.sampled c front now)).state.overloaded = true) :
    w.state.Closes codel now ∧
      ∀ sample ∈ w.samples ++ [now - front.2], codel.targetNs < sample := by
  change (w.state.noteInterval codel now (now - front.2)).overloaded = true at hhigh
  rw [CodelState.noteInterval_eq, h] at hhigh
  by_cases hclose : w.state.Closes codel now
  · rw [if_pos hclose] at hhigh
    exact ⟨hclose, lt_lower_iff.mp (of_decide_eq_true hhigh)⟩
  · rw [if_neg hclose] at hhigh
    exact absurd (hlow.symm.trans hhigh) (by decide)

/-- An empty queue only ever lowers it. -/
theorem aged_overloaded {codel : CodelParams} {c : Connection} {now : Nat}
    (h : (w.step codel (.aged c now)).state.overloaded = true) : w.state.overloaded = true := by
  change (w.state.ageEmpty codel now).overloaded = true at h
  rw [CodelState.ageEmpty_eq] at h
  split at h
  · cases h
  · exact h

end Window

/-! ## What the lists tell -/

/-- The events took `c` to `c'`: any window that agrees with `c` allows them and agrees
with `c'` after them, the drops are counted, and there are none without a target. -/
structure Explains (c : Connection) (log : List CodelEvent) (c' : Connection) : Prop where
  codel : c'.codel = c.codel
  window : ∀ w : Window, w.state = c.codelState → w.Measured →
    Along (Window.step c.codel) (Window.Allows c.codel) w log ∧
      (run (Window.step c.codel) w log).state = c'.codelState
  counted : c'.codelDropped = c.codelDropped + (codelVictims log).length
  off : c.codel.enabled = false → log = []

namespace Explains

variable {c c' c'' : Connection} {log log' : List CodelEvent} {e : CodelEvent}

theorem quiet (hcodel : c'.codel = c.codel) (hstate : c'.codelState = c.codelState)
    (hdropped : c'.codelDropped = c.codelDropped) : Explains c [] c' :=
  ⟨hcodel, fun _ hw _ => ⟨trivial, hw.trans hstate.symm⟩, hdropped, fun _ => rfl⟩

theorem refl (c : Connection) : Explains c [] c := quiet rfl rfl rfl

theorem trans (h : Explains c log c') (h' : Explains c' log' c'') :
    Explains c (log ++ log') c'' := by
  refine ⟨h'.codel.trans h.codel, fun w hw hm => ?_, ?_, fun hoff => ?_⟩
  · obtain ⟨halong, hstate⟩ := h.window w hw hm
    have hm' : (run (Window.step c.codel) w log).Measured :=
      @run_invariant _ _ (Window.step c.codel) Window.Measured
        (fun _ e h => Window.step_measured c.codel h e) w hm log
    obtain ⟨halong', hstate'⟩ := h'.window _ hstate hm'
    rw [h.codel] at halong' hstate'
    rw [Along.append, run_append]
    exact ⟨⟨halong, halong'⟩, hstate'⟩
  · rw [h'.counted, h.counted, codelVictims_append, List.length_append, Nat.add_assoc]
  · rw [h.off hoff, h'.off (h.codel ▸ hoff)]
    rfl

theorem then_quiet (h : Explains c log c') (hcodel : c''.codel = c'.codel)
    (hstate : c''.codelState = c'.codelState) (hdropped : c''.codelDropped = c'.codelDropped) :
    Explains c log c'' := by
  have hlater := h.trans (quiet hcodel hstate hdropped)
  rwa [List.append_nil] at hlater

theorem cons (h : Explains c' log c'') (hon : c.codel.enabled = true) (hcodel : c'.codel = c.codel)
    (hallows : ∀ w : Window, w.state = c.codelState → w.Measured → w.Allows c.codel e)
    (hstate : ∀ w : Window, w.state = c.codelState → (w.step c.codel e).state = c'.codelState)
    (hcount : c'.codelDropped = c.codelDropped + e.victim.toList.length) :
    Explains c (e :: log) c'' := by
  have hone : Explains c [e] c' := by
    refine ⟨hcodel, fun w hw hm => ⟨⟨hallows w hw hm, trivial⟩, hstate w hw⟩, ?_, fun hoff => ?_⟩
    · cases e <;> exact hcount
    · rw [hon] at hoff
      cases hoff
  exact hone.trans h

end Explains

namespace Connection

/-- Times are `u64`, so a saturated bound is never exceeded. -/
theorem lt_of_saturatingMul_lt {target sojourn : Nat} (hsojourn : sojourn < 2 ^ 64)
    (h : saturatingMul target 2 < sojourn) : 2 * target < sojourn := by
  unfold saturatingMul at h
  omega

/-- The log explains every change CoDel made. -/
theorem codelLoop_explains (frontLocked : Bool) {now : Nat} (hnow : now < 2 ^ 64)
    (out : List OutFrame) (c : Connection) (hon : c.codel.enabled = true)
    (hlocked : frontLocked = false → ¬ (0 < c.outCursor ∧ c.writevBatch = [])) :
    Explains c (codelLoop frontLocked now out c).2 (codelLoop frontLocked now out c).1 := by
  induction out generalizing c with
  | nil =>
    rw [codelLoop]
    refine Explains.cons (Explains.refl _) hon rfl ?_ ?_ rfl
    · intro w hw _
      exact ⟨hw.symm, rfl, Window.aged_overloaded⟩
    · intro w hw
      show w.state.ageEmpty c.codel now = c.codelState.ageEmpty c.codel now
      rw [hw]
  | cons front rest ih =>
    rw [codelLoop]
    generalize hnoted : ({ c with
      out := front :: rest
      codelState := c.codelState.noteInterval c.codel now (now - front.2) } : Connection) = noted
    have hcodel : noted.codel = c.codel := by rw [← hnoted]
    have hsojourn : now - front.2 < 2 ^ 64 := by omega
    have hsampled {log : List CodelEvent} {c' : Connection} (h : Explains noted log c') :
        Explains c (.sampled { c with out := front :: rest } front now :: log) c' := by
      refine h.cons hon hcodel ?_ ?_ (by rw [← hnoted]; rfl)
      · intro w hw hm
        exact ⟨hw.symm, rfl, hm.rises⟩
      · intro w hw
        show w.state.noteInterval c.codel now (now - front.2) = _
        rw [hw, ← hnoted]
    -- the front is locked, dropped or kept
    dsimp only
    split
    · exact hsampled (Explains.refl _)
    · next hfree =>
      have hbegun : ¬ (0 < noted.outCursor ∧ noted.writevBatch = []) := by
        rw [← hnoted]
        exact hlocked (Bool.eq_false_iff.mpr hfree)
      split
      · next hdrop =>
        refine hsampled (Explains.cons (ih _ (hcodel ▸ hon) ?_) (hcodel ▸ hon) rfl ?_ ?_ rfl)
        · intro _
          exact hbegun
        · intro w hw _
          exact ⟨hw.symm, hw ▸ hdrop.1, lt_of_saturatingMul_lt hsojourn (hcodel ▸ hdrop.2.1),
            ⟨rest, by rw [← hnoted], hdrop.2.2⟩, hbegun⟩
        · intro w hw
          exact hw
      · exact hsampled (Explains.refl _)

theorem vet_explains (c : Connection) {now : Nat} (hnow : now < 2 ^ 64) :
    Explains c (c.vetLog now) (c.vet now) := by
  rw [vetLog, vet, vetting, codelDequeue]
  split
  · next hon =>
    refine codelLoop_explains _ hnow c.out c hon fun hfree => ?_
    rintro ⟨hcursor, hbatch⟩
    simp [hcursor, hbatch] at hfree
  · exact Explains.refl c

theorem gatherBatch_explains (maxBytes : Nat) {now : Nat} (hnow : now < 2 ^ 64) (c : Connection) :
    Explains c (c.gatherLog maxBytes now) (c.gatherBatch maxBytes now) := by
  have hclear : Explains c [] { c with writevBatch := [] } := Explains.quiet rfl rfl rfl
  refine hclear.trans (gatherLoop_rule
    (motive := fun c r => Explains c r.2 r.1) Explains.refl ?_ _ _ _)
  intro c front rest r _ ih
  have hjoined : Explains c [] (c.join front rest) := Explains.quiet rfl rfl rfl
  exact hjoined.trans ((vet_explains _ hnow).trans ih)

/-- Vetting the front and gathering a batch. -/
theorem offer_explains (maxBytes : Nat) {now : Nat} (hnow : now < 2 ^ 64) (c : Connection) :
    Explains c (c.vetLog now ++ (c.vet now).gatherLog maxBytes now)
      ((c.vet now).gatherBatch maxBytes now) :=
  (c.vet_explains hnow).trans (gatherBatch_explains maxBytes hnow _)

theorem applyWritten_explains (c : Connection) (startCursor n : Nat) :
    Explains c [] (c.applyWritten startCursor n) := by
  obtain ⟨k, left, cursor, heq, -⟩ := c.applyWritten_spec startCursor n
  rw [heq]
  exact Explains.quiet rfl rfl rfl

end Connection

theorem flushCoalesced_explains (maxBytes : Nat) {now : Nat} (hnow : now < 2 ^ 64)
    (script : List WriteOutcome) (c : Connection) :
    Explains c (flushCoalesced maxBytes now script c).log
      (flushCoalesced maxBytes now script c).conn := by
  refine flushCoalesced_rule (motive := fun c r => Explains c r.log r.conn) ?_ ?_ ?_ ?_ script c
  · intro c _
    exact (c.vet_explains hnow).then_quiet rfl rfl rfl
  · intro c _ _ _
    exact (c.offer_explains maxBytes hnow).then_quiet rfl rfl rfl
  · intro c r _ ih
    have hrestored : Explains c _ ((c.vet now).gatherBatch maxBytes now).restoreBatch :=
      (c.offer_explains maxBytes hnow).then_quiet rfl rfl rfl
    exact hrestored.trans ih
  · intro c n r _ g offered _ _ ih
    have hwritten := (c.offer_explains maxBytes hnow).trans
      (g.applyWritten_explains (c.vet now).outCursor n)
    rw [List.append_nil] at hwritten
    exact hwritten.trans ih

/-! ## Histories of calls -/

/-- A call on the sending half: a frame is queued, or the queue is flushed in batches of
at most so many bytes to a sink that does `script`. -/
inductive SendAct where
  | queue (frame : Bytes) (now : Nat)
  | flush (maxBytes : Nat) (script : List WriteOutcome) (now : Nat)
  deriving DecidableEq, Repr

def SendAct.now : SendAct → Nat
  | .queue _ now | .flush _ _ now => now

def sendStep (c : Connection) : SendAct → Connection
  | .queue frame now => (c.queue frame now).1
  | .flush maxBytes script now => (flushCoalesced maxBytes now script c).conn

/-- What CoDel does during the call. -/
def sendLog (c : Connection) : SendAct → List CodelEvent
  | .queue .. => []
  | .flush maxBytes script now => (flushCoalesced maxBytes now script c).log

/-- The written part of the front. -/
def Connection.begun (c : Connection) : Bytes :=
  ((c.out.head?.map (·.1)).getD []).take c.outCursor

/-- Where the frames went. `queue` loses the frames drop-head counts. In a flush a frame
is a victim of CoDel, or was sent, its rest being among the bytes the sink took, or is
still queued; what was sent and what is queued are in order, begin with the frame that
was partly written and end with the newest. -/
def Accounted (c : Connection) : SendAct → Prop
  | .queue frame now =>
    let c' := (c.queue frame now).1
    ∃ evicted : List OutFrame,
      (c.out ++ [(frame, now)]).Perm (evicted ++ c'.out) ∧
      c'.dropheadDropped = c.dropheadDropped + evicted.length
  | .flush maxBytes script now =>
    let r := flushCoalesced maxBytes now script c
    ∃ sent : List OutFrame,
      c.out.Perm (codelVictims r.log ++ (sent ++ r.conn.out)) ∧
      (sent ++ r.conn.out).Sublist c.out ∧
      c.begun ++ r.accepted = sent.flatMap (·.1) ++ r.conn.begun ∧
      (0 < c.outCursor → (sent ++ r.conn.out).head? = c.out.head?) ∧
      (sent ++ r.conn.out).getLast? = c.out.getLast?

theorem sendLog_explains (c : Connection) {a : SendAct} (hnow : a.now < 2 ^ 64) :
    Explains c (sendLog c a) (sendStep c a) := by
  cases a with
  | queue frame now =>
    obtain ⟨evicted, kept, -, heq⟩ := c.queue_spec frame now
    show Explains c [] (c.queue frame now).1
    rw [heq]
    exact Explains.quiet rfl rfl rfl
  | flush maxBytes script => exact flushCoalesced_explains maxBytes hnow script c

theorem outputs_explains (c : Connection) {as : List SendAct} (hclock : ∀ a ∈ as, a.now < 2 ^ 64) :
    Explains c (outputs sendStep sendLog c as) (run sendStep c as) := by
  induction as generalizing c with
  | nil => exact Explains.refl c
  | cons a _ ih =>
    have hnow := hclock a List.mem_cons_self
    exact (sendLog_explains c hnow).trans (ih _ fun b hb => hclock b (List.mem_cons_of_mem _ hb))

/-- Between calls no batch is out, and the cursor stands in the front. -/
def Ready (c : Connection) : Prop :=
  c.writevBatch = [] ∧ Placed payload (c.line [] [] [])

theorem Ready.queue {c : Connection} (h : Ready c) (frame : Bytes) (now : Nat) :
    Accounted c (.queue frame now) ∧ Ready (c.queue frame now).1 := by
  obtain ⟨_, hsteps, hclear, -⟩ := c.queue_steps [] [] [] h.1 frame now
  refine ⟨?_, hclear, (hsteps.account h.2).1⟩
  obtain ⟨evicted, kept, hsplit, heq⟩ := c.queue_spec frame now
  rw [Accounted, heq]
  refine ⟨evicted, ?_, rfl⟩
  show (c.out ++ [(frame, now)]).Perm (evicted ++ (c.locked ++ kept ++ [(frame, now)]))
  rw [← c.locked_append_droppable, hsplit, ← List.append_assoc evicted]
  exact (List.perm_append_comm_assoc _ _ _).append_right _

/-- The account of a flush is that of its moves. -/
theorem Ready.flush {c : Connection} (h : Ready c) (maxBytes : Nat) (script : List WriteOutcome)
    (now : Nat) :
    Accounted c (.flush maxBytes script now) ∧
      Ready (flushCoalesced maxBytes now script c).conn := by
  obtain ⟨hsteps, hclear⟩ := flushCoalesced_steps maxBytes now script c [] [] [] h.1
  obtain ⟨hplaced, new, gone, sent, haccount⟩ := hsteps.account h.2
  refine ⟨⟨sent, ?_⟩, hclear, hplaced⟩
  obtain rfl : [] = new := haccount.history
  obtain rfl : codelVictims (flushCoalesced maxBytes now script c).log = gone :=
    haccount.discarded
  obtain ⟨bytes, hbytes, hwire⟩ := haccount.wire
  obtain rfl : (flushCoalesced maxBytes now script c).accepted = bytes := hbytes
  have hline (c : Connection) (hbatch : c.writevBatch = []) (gone : List OutFrame)
      (accepted : Bytes) : (c.line [] gone accepted).queue = c.out := by
    rw [Connection.line, hbatch]
    rfl
  have hbegun (c : Connection) (hbatch : c.writevBatch = []) (gone : List OutFrame)
      (accepted : Bytes) : begun payload (c.line [] gone accepted) = c.begun := by
    rw [begun, front, hline c hbatch]
    rfl
  rw [hbegun c h.1, hbegun _ hclear] at hwire
  have hshared := haccount.shared
  have horder := haccount.order
  have hlocked := haccount.locked
  have hnewest := haccount.newest
  rw [hline c h.1, hline _ hclear, List.append_nil] at hshared horder hlocked hnewest
  exact ⟨hshared, horder, hwire, hlocked, hnewest⟩

theorem Ready.accounted {c : Connection} (h : Ready c) (as : List SendAct) :
    Along sendStep Accounted c as := by
  induction as generalizing c with
  | nil => trivial
  | cons a _ ih =>
    cases a with
    | queue frame now =>
      obtain ⟨haccounted, hready⟩ := h.queue frame now
      exact ⟨haccounted, ih hready⟩
    | flush maxBytes script now =>
      obtain ⟨haccounted, hready⟩ := h.flush maxBytes script now
      exact ⟨haccounted, ih hready⟩

/-- Over any history of calls with `u64` times, whatever the sinks do: without a target
CoDel does nothing; with one, all it does is allowed by a window that has every sample,
ends in the state the connection has, and has as many drops as were counted. The frames
that leave the queue unwritten are those drops and the evictions of `queue`; a drop takes
neither a frame that is partly written nor the newest. -/
theorem codel_drop_discipline (highWater : Nat) (codel : CodelParams) (as : List SendAct)
    (hclock : ∀ a ∈ as, a.now < 2 ^ 64) :
    let c := run sendStep (Connection.new highWater codel) as
    let log := outputs sendStep sendLog (Connection.new highWater codel) as
    (codel.targetNs = 0 → log = [] ∧ c.codelDropped = 0) ∧
    Along (Window.step codel) (Window.Allows codel) {} log ∧
    (run (Window.step codel) {} log).state = c.codelState ∧
    c.codelDropped = (codelVictims log).length ∧
    Along sendStep Accounted (Connection.new highWater codel) as := by
  intro c log
  have hexplains := outputs_explains (Connection.new highWater codel) hclock
  have hcounted : c.codelDropped = (codelVictims log).length :=
    hexplains.counted.trans (Nat.zero_add _)
  obtain ⟨halong, hstate⟩ := hexplains.window {} rfl rfl
  refine ⟨fun htarget => ?_, halong, hstate, hcounted, Ready.accounted ⟨rfl, Or.inl rfl⟩ as⟩
  have hlog : log = [] := hexplains.off (by simp [Connection.new, CodelParams.enabled, htarget])
  refine ⟨hlog, ?_⟩
  rw [hcounted, hlog]
  rfl

/-- Two frames wait out an interval behind a sink that takes a byte and blocks: the next
flush finds the queue overloaded, keeps the frame that byte is of and drops the one
behind it. -/
theorem codel_drop_discipline_backlog :
    let as : List SendAct :=
      [.queue [1, 2] 0, .queue [3] 0, .queue [4] 0, .flush 64 [.wrote 1] 50, .flush 64 [] 200]
    let log := outputs sendStep sendLog (Connection.new 64 ⟨10, 100⟩) as
    let c := run sendStep (Connection.new 64 ⟨10, 100⟩) as
    codelVictims log = [([3], 0)] ∧ c.out = [([1, 2], 0), ([4], 0)] ∧
      Along (Window.step ⟨10, 100⟩) (Window.Allows ⟨10, 100⟩) {} log ∧
      Along sendStep Accounted (Connection.new 64 ⟨10, 100⟩) as := by
  intro as log c
  obtain ⟨-, halong, -, -, haccounted⟩ := codel_drop_discipline 64 ⟨10, 100⟩ as (by decide)
  exact ⟨by decide, by decide, halong, haccounted⟩

end Pylon.Transport
