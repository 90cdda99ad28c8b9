import Pylon.Lib.Timeline
import Pylon.Lib.Trace
import Pylon.Transport.Conn

/-!
# The timer wheel

`transport/timer.rs`: every connection of a worker may have three deadlines, one
of liveness (idle or pong), one of its lifetime and one of its handshake. The
wheel keeps each of them in a side table, and a timeline of slots by deadline so
that `due` visits only what has expired.

What it is for is `Timers`, a map from connections to deadlines, each armed or fired.

Times are milliseconds in a `u64`; the only addition that can overflow is the
bound of `due`.
-/

namespace Pylon.Transport

open Pylon.Lib

/-! ## The wheel -/

/-- Which deadline a connection is waiting on. -/
inductive Timer.Kind where
  | idle
  | pong
  | lifetime
  | handshake
  deriving DecidableEq, Repr

/-- A scheduled deadline. -/
structure Timer where
  deadlineMs : Nat
  kind : Timer.Kind
  deriving DecidableEq, Repr

/-- A member of a timeline bucket. -/
structure Timer.Slot where
  conn : Nat
  kind : Timer.Kind
  deriving DecidableEq, Repr

/-- What is to be done for a connection. -/
inductive Timer.Due where
  | ping (conn : Nat)
  | close4201 (conn : Nat)
  | close4202 (conn : Nat)
  | handshakeTimeout (conn : Nat)
  deriving DecidableEq, Repr

structure TimerWheel where
  activityTimeoutMs : Nat
  pongTimeoutMs : Nat
  timeline : Timeline Nat Timer.Slot := ∅
  live : Hash Nat Timer := ∅
  lifetime : Hash Nat Nat := ∅
  handshake : Hash Nat Nat := ∅

namespace TimerWheel

def withTimeouts (activityTimeoutSecs pongTimeoutSecs : Nat) : TimerWheel :=
  { activityTimeoutMs := activityTimeoutSecs * 1000, pongTimeoutMs := pongTimeoutSecs * 1000 }

/-- Take the slot of a deadline out of the timeline, if there was a deadline. -/
def scrubbed (w : TimerWheel) (conn : Nat) (old : Option Timer) : Timeline Nat Timer.Slot :=
  match old with
  | some t => w.timeline.scrub t.deadlineMs ⟨conn, t.kind⟩
  | none => w.timeline

/-- A connection's liveness timer, whether or not it has fired. -/
def liveOf (w : TimerWheel) (conn : Nat) : Option Timer := w.live.hget conn

def lifetimeOf (w : TimerWheel) (conn : Nat) : Option Timer :=
  (w.lifetime.hget conn).map (⟨·, .lifetime⟩)

def handshakeOf (w : TimerWheel) (conn : Nat) : Option Timer :=
  (w.handshake.hget conn).map (⟨·, .handshake⟩)

def schedule (w : TimerWheel) (conn deadlineMs : Nat) (kind : Timer.Kind) : TimerWheel :=
  { w with
    live := w.live.hset conn ⟨deadlineMs, kind⟩
    timeline := (w.scrubbed conn (w.liveOf conn)).push deadlineMs ⟨conn, kind⟩ }

def touch (w : TimerWheel) (conn nowMs : Nat) : TimerWheel :=
  w.schedule conn (saturatingAdd nowMs w.activityTimeoutMs) .idle

def markPingSent (w : TimerWheel) (conn nowMs : Nat) : TimerWheel :=
  w.schedule conn (saturatingAdd nowMs w.pongTimeoutMs) .pong

def armLifetime (w : TimerWheel) (conn deadlineMs : Nat) : TimerWheel :=
  { w with
    lifetime := w.lifetime.hset conn deadlineMs
    timeline := (w.scrubbed conn (w.lifetimeOf conn)).push deadlineMs ⟨conn, .lifetime⟩ }

def armHandshake (w : TimerWheel) (conn deadlineMs : Nat) : TimerWheel :=
  { w with
    handshake := w.handshake.hset conn deadlineMs
    timeline := (w.scrubbed conn (w.handshakeOf conn)).push deadlineMs ⟨conn, .handshake⟩ }

def clearHandshake (w : TimerWheel) (conn : Nat) : TimerWheel :=
  { w with
    handshake := w.handshake.hdel conn
    timeline := w.scrubbed conn (w.handshakeOf conn) }

def clearLiveness (w : TimerWheel) (conn : Nat) : TimerWheel :=
  { w with live := w.live.hdel conn, timeline := w.scrubbed conn (w.liveOf conn) }

/-- The part of `remove` that no method of its own does. -/
def clearLifetime (w : TimerWheel) (conn : Nat) : TimerWheel :=
  { w with lifetime := w.lifetime.hdel conn, timeline := w.scrubbed conn (w.lifetimeOf conn) }

def remove (w : TimerWheel) (conn : Nat) : TimerWheel :=
  ((w.clearLiveness conn).clearLifetime conn).clearHandshake conn

/-- A popped slot counts if its side table still has this very deadline. -/
def honour (w : TimerWheel) (deadlineMs : Nat) (slot : Timer.Slot) : Option Timer.Due :=
  match slot.kind with
  | .idle | .pong =>
    match w.live.hget slot.conn with
    | some t =>
      if t.deadlineMs = deadlineMs ∧ t.kind = slot.kind then
        some (if slot.kind = .idle then .ping slot.conn else .close4201 slot.conn)
      else none
    | none => none
  | .lifetime =>
    if w.lifetime.hget slot.conn = some deadlineMs then some (.close4202 slot.conn) else none
  | .handshake =>
    if w.handshake.hget slot.conn = some deadlineMs then some (.handshakeTimeout slot.conn)
    else none

/-- Everything that has come due, and the wheel without its slots. -/
def due (w : TimerWheel) (nowMs : Nat) : List Timer.Due × TimerWheel :=
  let bound := (nowMs + 1) % 2 ^ 64
  ((w.timeline.bucketsBelow bound).flatMap fun p => p.2.filterMap (w.honour p.1),
    { w with timeline := w.timeline.splitOff bound })

end TimerWheel

/-- A call of one of the wheel's methods. -/
inductive TimerCall where
  | touch (conn nowMs : Nat)
  | markPingSent (conn nowMs : Nat)
  | armLifetime (conn deadlineMs : Nat)
  | armHandshake (conn deadlineMs : Nat)
  | clearHandshake (conn : Nat)
  | clearLiveness (conn : Nat)
  | remove (conn : Nat)
  | due (nowMs : Nat)
  deriving DecidableEq, Repr

/-- The time a call carries. -/
def TimerCall.timeMs : TimerCall → Option Nat
  | .touch _ nowMs | .markPingSent _ nowMs | .due nowMs => some nowMs
  | .armLifetime _ deadlineMs | .armHandshake _ deadlineMs => some deadlineMs
  | .clearHandshake _ | .clearLiveness _ | .remove _ => none

def TimerWheel.call (w : TimerWheel) : TimerCall → TimerWheel
  | .touch conn nowMs => w.touch conn nowMs
  | .markPingSent conn nowMs => w.markPingSent conn nowMs
  | .armLifetime conn deadlineMs => w.armLifetime conn deadlineMs
  | .armHandshake conn deadlineMs => w.armHandshake conn deadlineMs
  | .clearHandshake conn => w.clearHandshake conn
  | .clearLiveness conn => w.clearLiveness conn
  | .remove conn => w.remove conn
  | .due nowMs => (w.due nowMs).2

/-! ## Naive timers -/

/-- A connection has at most one deadline of each family. -/
inductive Timer.Family where
  | liveness
  | lifetime
  | handshake
  deriving DecidableEq, Repr

def Timer.Kind.family : Timer.Kind → Timer.Family
  | .idle | .pong => .liveness
  | .lifetime => .lifetime
  | .handshake => .handshake

/-- The action of a kind. -/
def Timer.Slot.due (slot : Timer.Slot) : Timer.Due :=
  match slot.kind with
  | .idle => .ping slot.conn
  | .pong => .close4201 slot.conn
  | .lifetime => .close4202 slot.conn
  | .handshake => .handshakeTimeout slot.conn

/-- A deadline and whether it has fired. -/
structure Timer.State where
  timer : Timer
  fired : Bool
  deriving DecidableEq, Repr

/-- Each connection's deadlines. -/
def Timers := Nat → Timer.Family → Option Timer.State

namespace Timers

def empty : Timers := fun _ _ => none

/-- One deadline of one connection replaced. -/
def set (n : Timers) (conn : Nat) (family : Timer.Family) (state : Option Timer.State) : Timers :=
  fun conn' family' => if conn' = conn ∧ family' = family then state else n conn' family'

def arm (n : Timers) (conn : Nat) (timer : Timer) : Timers :=
  n.set conn timer.kind.family (some ⟨timer, false⟩)

/-- Every deadline at or before `nowMs` has fired. -/
def fire (n : Timers) (nowMs : Nat) : Timers := fun conn family =>
  (n conn family).map fun s => if s.timer.deadlineMs ≤ nowMs then { s with fired := true } else s

/-- A slot's deadline is armed and has not fired. -/
def Pending (n : Timers) (deadlineMs : Nat) (slot : Timer.Slot) : Prop :=
  n slot.conn slot.kind.family = some ⟨⟨deadlineMs, slot.kind⟩, false⟩

def call (activityTimeoutMs pongTimeoutMs : Nat) (n : Timers) : TimerCall → Timers
  | .touch conn nowMs => n.arm conn ⟨saturatingAdd nowMs activityTimeoutMs, .idle⟩
  | .markPingSent conn nowMs => n.arm conn ⟨saturatingAdd nowMs pongTimeoutMs, .pong⟩
  | .armLifetime conn deadlineMs => n.arm conn ⟨deadlineMs, .lifetime⟩
  | .armHandshake conn deadlineMs => n.arm conn ⟨deadlineMs, .handshake⟩
  | .clearHandshake conn => n.set conn .handshake none
  | .clearLiveness conn => n.set conn .liveness none
  | .remove conn => ((n.set conn .liveness none).set conn .lifetime none).set conn .handshake none
  | .due nowMs => n.fire nowMs

/-- `dues` is an answer to `due nowMs`: the pending deadlines at or before it,
each once, in the order of the deadlines and with the action of its kind. -/
def Answers (n : Timers) (nowMs : Nat) (dues : List Timer.Due) : Prop :=
  ∃ expired : List (Nat × Timer.Slot),
    dues = expired.map (·.2.due) ∧ expired.Nodup ∧
      (expired.Pairwise fun p q => p.1 ≤ q.1) ∧
      ∀ deadlineMs slot,
        (deadlineMs, slot) ∈ expired ↔ n.Pending deadlineMs slot ∧ deadlineMs ≤ nowMs

end Timers

/-! ## The wheel keeps the naive timers -/

/-- The side table of a family. -/
def TimerWheel.table (w : TimerWheel) : Timer.Family → Nat → Option Timer
  | .liveness => w.liveOf
  | .lifetime => w.lifetimeOf
  | .handshake => w.handshakeOf

/-- The side tables hold the deadlines, fired or not; the timeline holds exactly
the pending ones, and no bucket of it is empty. -/
structure TimerWheel.Tracks (w : TimerWheel) (n : Timers) : Prop where
  table : ∀ family conn, w.table family conn = (n conn family).map (·.timer)
  family : ∀ conn family s, n conn family = some s → s.timer.kind.family = family
  holds : ∀ deadlineMs slot, w.timeline.Holds deadlineMs slot ↔ n.Pending deadlineMs slot
  tidy : w.timeline.Tidy

namespace TimerWheel

theorem tracks_withTimeouts (activityTimeoutSecs pongTimeoutSecs : Nat) :
    (withTimeouts activityTimeoutSecs pongTimeoutSecs).Tracks .empty where
  table := by
    intro family conn
    cases family <;> rfl
  family := by
    intro conn family s h
    cases h
  holds := by
    intro deadlineMs slot
    exact iff_of_false (Timeline.not_holds_empty _ _) (by simp [Timers.Pending, Timers.empty])
  tidy := Timeline.tidy_empty

variable {w : TimerWheel} {n : Timers}

/-- Scrubbing a family's recorded slot takes out its pending slot, if there is
one, and nothing else. -/
theorem Tracks.holds_scrubbed (h : w.Tracks n) (conn : Nat) (family : Timer.Family)
    (deadlineMs : Nat) (slot : Timer.Slot) :
    (w.scrubbed conn (w.table family conn)).Holds deadlineMs slot ↔
      (n.set conn family none).Pending deadlineMs slot := by
  have hset : (n.set conn family none).Pending deadlineMs slot ↔
      ¬ (slot.conn = conn ∧ slot.kind.family = family) ∧ n.Pending deadlineMs slot := by
    unfold Timers.Pending Timers.set
    by_cases hslot : slot.conn = conn ∧ slot.kind.family = family <;> simp [hslot]
  rw [hset, h.table]
  cases hold : n conn family with
  | none =>
    -- nothing is recorded, so no slot of this family is pending
    show w.timeline.Holds deadlineMs slot ↔ _
    rw [h.holds]
    refine ⟨fun hp => ⟨?_, hp⟩, fun hp => hp.2⟩
    rintro ⟨rfl, rfl⟩
    rw [Timers.Pending, hold] at hp
    cases hp
  | some s =>
    show (w.timeline.scrub s.timer.deadlineMs ⟨conn, s.timer.kind⟩).Holds deadlineMs slot ↔ _
    rw [Timeline.holds_scrub, h.holds, and_comm]
    refine and_congr_left fun hp => not_congr ⟨?_, ?_⟩
    · rintro ⟨-, rfl⟩
      exact ⟨rfl, h.family conn family s hold⟩
    · rintro ⟨rfl, rfl⟩
      rw [Timers.Pending, hold] at hp
      cases hp
      exact ⟨rfl, rfl⟩

theorem Tracks.tidy_scrubbed (h : w.Tracks n) (conn : Nat) (old : Option Timer) :
    (w.scrubbed conn old).Tidy := by
  cases old with
  | none => exact h.tidy
  | some => exact h.tidy.scrub _ _

/-- A method that replaces one deadline: its slot is scrubbed, the new one filed. -/
theorem Tracks.arm {w' : TimerWheel} (h : w.Tracks n) (conn : Nat) (timer : Timer)
    (htable : ∀ family conn', w'.table family conn' =
      if conn' = conn ∧ family = timer.kind.family then some timer else w.table family conn')
    (htimeline : w'.timeline =
      (w.scrubbed conn (w.table timer.kind.family conn)).push timer.deadlineMs ⟨conn, timer.kind⟩) :
    w'.Tracks (n.arm conn timer) where
  table := by
    intro family conn'
    rw [htable]
    unfold Timers.arm Timers.set
    split
    · rfl
    · exact h.table family conn'
  family := by
    intro conn' family s hs
    unfold Timers.arm Timers.set at hs
    split at hs
    next heq =>
      cases hs
      exact heq.2.symm
    next => exact h.family conn' family s hs
  holds := by
    intro deadlineMs slot
    rw [htimeline, Timeline.holds_push, h.holds_scrubbed]
    unfold Timers.Pending Timers.arm Timers.set
    by_cases hslot : slot.conn = conn ∧ slot.kind.family = timer.kind.family
    · obtain ⟨conn', kind⟩ := slot
      obtain ⟨deadline', kind'⟩ := timer
      obtain ⟨rfl, hfamily⟩ := hslot
      simp only [hfamily, and_self, if_true, reduceCtorEq, false_or, Option.some.injEq,
        Timer.State.mk.injEq, and_true, Timer.mk.injEq, Timer.Slot.mk.injEq, true_and]
      constructor <;> (rintro ⟨rfl, rfl⟩; exact ⟨rfl, rfl⟩)
    · rw [if_neg hslot, if_neg hslot]
      refine or_iff_left ?_
      rintro ⟨-, rfl⟩
      exact hslot ⟨rfl, rfl⟩
  tidy := by
    rw [htimeline]
    refine (h.tidy_scrubbed conn _).push ?_
    rw [h.holds_scrubbed]
    simp [Timers.Pending, Timers.set]

/-- A disarmed deadline is gone from the table and from its time. -/
theorem Tracks.clear {w' : TimerWheel} (h : w.Tracks n) (conn : Nat) (family : Timer.Family)
    (htable : ∀ family' conn', w'.table family' conn' =
      if conn' = conn ∧ family' = family then none else w.table family' conn')
    (htimeline : w'.timeline = w.scrubbed conn (w.table family conn)) :
    w'.Tracks (n.set conn family none) where
  table := by
    intro family' conn'
    rw [htable]
    unfold Timers.set
    split
    · rfl
    · exact h.table family' conn'
  family := by
    intro conn' family' s hs
    unfold Timers.set at hs
    split at hs
    · cases hs
    · exact h.family conn' family' s hs
  holds := by
    intro deadlineMs slot
    rw [htimeline]
    exact h.holds_scrubbed conn family deadlineMs slot
  tidy := by
    rw [htimeline]
    exact h.tidy_scrubbed conn _

theorem Tracks.schedule (h : w.Tracks n) (conn deadlineMs : Nat) {kind : Timer.Kind}
    (hkind : kind.family = .liveness) :
    (w.schedule conn deadlineMs kind).Tracks (n.arm conn ⟨deadlineMs, kind⟩) := by
  refine h.arm conn ⟨deadlineMs, kind⟩ ?_ ?_
  · intro family conn'
    show (w.schedule conn deadlineMs kind).table family conn' =
      if conn' = conn ∧ family = kind.family then _ else _
    rw [hkind]
    cases family with
    | liveness => simp [TimerWheel.table, liveOf, TimerWheel.schedule, Hash.hget_hset]
    | lifetime | handshake => simp; rfl
  · show _ = (w.scrubbed conn (w.table kind.family conn)).push _ _
    rw [hkind]
    rfl

theorem Tracks.armLifetime (h : w.Tracks n) (conn deadlineMs : Nat) :
    (w.armLifetime conn deadlineMs).Tracks (n.arm conn ⟨deadlineMs, .lifetime⟩) := by
  refine h.arm conn ⟨deadlineMs, .lifetime⟩ ?_ rfl
  intro family conn'
  cases family with
  | lifetime =>
    by_cases hconn : conn' = conn <;>
      simp [TimerWheel.table, lifetimeOf, TimerWheel.armLifetime, Hash.hget_hset, Timer.Kind.family,
        hconn]
  | liveness | handshake => simp [Timer.Kind.family]; rfl

theorem Tracks.armHandshake (h : w.Tracks n) (conn deadlineMs : Nat) :
    (w.armHandshake conn deadlineMs).Tracks (n.arm conn ⟨deadlineMs, .handshake⟩) := by
  refine h.arm conn ⟨deadlineMs, .handshake⟩ ?_ rfl
  intro family conn'
  cases family with
  | handshake =>
    by_cases hconn : conn' = conn <;>
      simp [TimerWheel.table, handshakeOf, TimerWheel.armHandshake, Hash.hget_hset,
        Timer.Kind.family, hconn]
  | liveness | lifetime => simp [Timer.Kind.family]; rfl

theorem Tracks.clearHandshake (h : w.Tracks n) (conn : Nat) :
    (w.clearHandshake conn).Tracks (n.set conn .handshake none) := by
  refine h.clear conn .handshake ?_ rfl
  intro family conn'
  cases family with
  | handshake =>
    by_cases hconn : conn' = conn <;>
      simp [TimerWheel.table, handshakeOf, TimerWheel.clearHandshake, Hash.hget_hdel, hconn]
  | liveness | lifetime => simp; rfl

theorem Tracks.clearLiveness (h : w.Tracks n) (conn : Nat) :
    (w.clearLiveness conn).Tracks (n.set conn .liveness none) := by
  refine h.clear conn .liveness ?_ rfl
  intro family conn'
  cases family with
  | liveness => simp [TimerWheel.table, liveOf, TimerWheel.clearLiveness, Hash.hget_hdel]
  | lifetime | handshake => simp; rfl

theorem Tracks.clearLifetime (h : w.Tracks n) (conn : Nat) :
    (w.clearLifetime conn).Tracks (n.set conn .lifetime none) := by
  refine h.clear conn .lifetime ?_ rfl
  intro family conn'
  cases family with
  | lifetime =>
    by_cases hconn : conn' = conn <;>
      simp [TimerWheel.table, lifetimeOf, TimerWheel.clearLifetime, Hash.hget_hdel, hconn]
  | liveness | handshake => simp; rfl

/-! ## What comes due -/

/-- Every pending slot is honoured, with the action of its kind. -/
theorem Tracks.honour (h : w.Tracks n) {deadlineMs : Nat} {slot : Timer.Slot}
    (hp : n.Pending deadlineMs slot) : w.honour deadlineMs slot = some slot.due := by
  obtain ⟨conn, kind⟩ := slot
  have htable : w.table kind.family conn = some ⟨deadlineMs, kind⟩ := by
    have hn : n conn kind.family = some ⟨⟨deadlineMs, kind⟩, false⟩ := hp
    rw [h.table, hn]
    rfl
  cases kind with
  | idle | pong =>
    have hlive : w.live.hget conn = some ⟨deadlineMs, _⟩ := htable
    simp [TimerWheel.honour, hlive, Timer.Slot.due]
  | lifetime =>
    have hlifetime : w.lifetime.hget conn = some deadlineMs := by
      simpa [TimerWheel.table, Timer.Kind.family, lifetimeOf] using htable
    simp [TimerWheel.honour, hlifetime, Timer.Slot.due]
  | handshake =>
    have hhandshake : w.handshake.hget conn = some deadlineMs := by
      simpa [TimerWheel.table, Timer.Kind.family, handshakeOf] using htable
    simp [TimerWheel.honour, hhandshake, Timer.Slot.due]

variable {nowMs : Nat}

theorem bound_eq (hnow : nowMs < 2 ^ 64 - 1) : (nowMs + 1) % 2 ^ 64 = nowMs + 1 := by
  apply Nat.mod_eq_of_lt
  omega

theorem Tracks.answers (h : w.Tracks n) (hnow : nowMs < 2 ^ 64 - 1) :
    n.Answers nowMs (w.due nowMs).1 := by
  refine ⟨w.timeline.upTo (nowMs + 1), ?_, h.tidy.upTo_nodup _, Timeline.upTo_pairwise _ _, ?_⟩
  · unfold due Timeline.upTo
    rw [bound_eq hnow, List.map_flatMap]
    refine List.flatMap_congr fun p hp => ?_
    rw [List.map_map, ← List.filterMap_eq_map]
    refine List.filterMap_congr fun slot hslot => ?_
    -- what is popped is pending, hence honoured
    have hmem : (p.1, slot) ∈ w.timeline.upTo (nowMs + 1) :=
      List.mem_flatMap.mpr ⟨p, hp, List.mem_map_of_mem hslot⟩
    exact h.honour ((h.holds _ _).mp ((Timeline.mem_upTo _ _ _ _).mp hmem).1)
  · intro deadlineMs slot
    rw [Timeline.mem_upTo, h.holds, Nat.lt_succ_iff]

/-- What is due leaves the wheel as it is handed out. -/
theorem Tracks.due (h : w.Tracks n) (hnow : nowMs < 2 ^ 64 - 1) :
    (w.due nowMs).2.Tracks (n.fire nowMs) where
  table := by
    intro family conn
    have hsame : (w.due nowMs).2.table family conn = w.table family conn := by
      cases family <;> rfl
    rw [hsame, h.table]
    unfold Timers.fire
    cases n conn family with
    | none => rfl
    | some =>
      simp only [Option.map_some]
      split <;> rfl
  family := by
    intro conn family s hs
    unfold Timers.fire at hs
    obtain ⟨s', hs', rfl⟩ := Option.map_eq_some_iff.mp hs
    rw [← h.family conn family s' hs']
    split <;> rfl
  holds := by
    intro deadlineMs slot
    show (w.timeline.splitOff _).Holds deadlineMs slot ↔ _
    rw [bound_eq hnow, Timeline.holds_splitOff, h.holds]
    unfold Timers.Pending Timers.fire
    cases n slot.conn slot.kind.family with
    | none => simp
    | some s =>
      obtain ⟨⟨deadline', kind'⟩, fired⟩ := s
      by_cases hdue : deadline' ≤ nowMs
      · simp only [Option.some.injEq, Timer.State.mk.injEq, Timer.mk.injEq, Option.map_some, hdue,
          if_true, Bool.true_eq_false, and_false, iff_false, not_and, not_not]
        rintro ⟨⟨rfl, -⟩, -⟩
        omega
      · simp only [Option.some.injEq, Timer.State.mk.injEq, Timer.mk.injEq, Option.map_some, hdue,
          if_false, and_iff_left_iff_imp]
        rintro ⟨⟨rfl, -⟩, -⟩
        omega
  tidy := h.tidy.splitOff _

/-! ## Every sequence of calls -/

/-- Of all the times that calls carry, only that of `due` needs its bound. -/
theorem Tracks.call (h : w.Tracks n) (c : TimerCall)
    (hc : ∀ nowMs, c = .due nowMs → nowMs < 2 ^ 64 - 1) :
    (w.call c).Tracks (n.call w.activityTimeoutMs w.pongTimeoutMs c) := by
  cases c with
  | touch conn | markPingSent conn => exact h.schedule conn _ rfl
  | armLifetime conn deadlineMs => exact h.armLifetime conn deadlineMs
  | armHandshake conn deadlineMs => exact h.armHandshake conn deadlineMs
  | clearHandshake conn => exact h.clearHandshake conn
  | clearLiveness conn => exact h.clearLiveness conn
  | remove conn => exact ((h.clearLiveness conn).clearLifetime conn).clearHandshake conn
  | due nowMs => exact h.due (hc nowMs rfl)

theorem call_timeouts (w : TimerWheel) (c : TimerCall) :
    (w.call c).activityTimeoutMs = w.activityTimeoutMs ∧
      (w.call c).pongTimeoutMs = w.pongTimeoutMs := by
  cases c <;> exact ⟨rfl, rfl⟩

theorem Tracks.calls (h : w.Tracks n) (calls : List TimerCall)
    (hcalls : ∀ nowMs, .due nowMs ∈ calls → nowMs < 2 ^ 64 - 1) :
    (run TimerWheel.call w calls).Tracks
      (run (Timers.call w.activityTimeoutMs w.pongTimeoutMs) n calls) := by
  induction calls generalizing w n with
  | nil => exact h
  | cons c _ ih =>
    have hnext := ih (h.call c fun nowMs hc => hcalls nowMs (hc ▸ List.mem_cons_self))
      fun nowMs hmem => hcalls nowMs (List.mem_cons_of_mem c hmem)
    obtain ⟨hactivity, hpong⟩ := w.call_timeouts c
    rw [hactivity, hpong] at hnext
    exact hnext

end TimerWheel

/-- Whatever is called with times below the largest `u64`, the wheel holds the
deadlines of the naive timers and its timeline the pending ones; and `due` then
answers as they do. -/
theorem wheel_refines_timers (activityTimeoutSecs pongTimeoutSecs : Nat) (calls : List TimerCall)
    (hcalls : ∀ c ∈ calls, ∀ timeMs ∈ c.timeMs, timeMs < 2 ^ 64 - 1) (nowMs : Nat)
    (hnow : nowMs < 2 ^ 64 - 1) :
    let w := run TimerWheel.call (.withTimeouts activityTimeoutSecs pongTimeoutSecs) calls
    let n := run (Timers.call (activityTimeoutSecs * 1000) (pongTimeoutSecs * 1000)) .empty calls
    w.Tracks n ∧ n.Answers nowMs (w.due nowMs).1 := by
  have h := (TimerWheel.tracks_withTimeouts activityTimeoutSecs pongTimeoutSecs).calls calls
    fun nowMs hmem => hcalls _ hmem nowMs rfl
  exact ⟨h, h.answers hnow⟩

/-- A handshake and two idle deadlines, of which activity moves one. -/
theorem wheel_refines_timers_touched :
    let calls : List TimerCall :=
      [.armHandshake 3 50, .touch 4 0, .touch 3 0, .due 40, .touch 4 5]
    let w := run TimerWheel.call (.withTimeouts 1 1) calls
    (w.due 1000).1 = [.handshakeTimeout 3, .ping 3] ∧
      (run (Timers.call 1000 1000) .empty calls).Answers 1000 (w.due 1000).1 := by
  intro calls w
  have htimes : ∀ c ∈ calls, ∀ timeMs ∈ c.timeMs, timeMs < 2 ^ 64 - 1 := by decide
  exact ⟨by decide +kernel, (wheel_refines_timers 1 1 calls htimes 1000 (by decide)).2⟩

end Pylon.Transport
