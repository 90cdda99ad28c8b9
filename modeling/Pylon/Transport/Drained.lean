import Pylon.Lib.KeepLast
import Pylon.Transport.CodelLog

/-!
# What a queue drains to

`codel_dequeue` of `transport/conn.rs` at a fixed time. Only the first sample can close an
interval then (`Calm`): from there on the overload flag stands, so the drop rule is a
property of the frames (`stale`), and the estimate is the least of the samples, so taking
one twice is taking it once.

`drained` is the outcome of writing the whole queue, computed from the queue alone. The
frames of one vetting (`Vetted`) come off it, wherever the vetting falls between the
writes.
-/

namespace Pylon.Transport

open Lib Lib.KeepLast

/-! ## CoDel at a fixed time -/

namespace CodelState

/-- The current interval ends later. -/
def Open (st : CodelState) (now : Nat) : Prop := st.intervalEnd ≠ 0 ∧ now < st.intervalEnd

/-- The estimate after more samples of the interval. -/
def withSamples (st : CodelState) (samples : List Nat) : CodelState :=
  { st with intervalMin := (st.intervalMin.toList ++ samples).min? }

theorem toList_min? (least : Option Nat) : least.toList.min? = least := by
  cases least <;> rfl

theorem withSamples_nil (st : CodelState) : st.withSamples [] = st := by
  rw [withSamples, List.append_nil, toList_min?]

theorem withSamples_withSamples (st : CodelState) (xs ys : List Nat) :
    (st.withSamples xs).withSamples ys = st.withSamples (xs ++ ys) := by
  simp only [withSamples]
  rw [min?_toList_append, List.append_assoc]

variable {st : CodelState}

/-- The estimate does not depend on the order of the samples or their number. -/
theorem withSamples_congr {xs ys : List Nat} (h : ∀ s, s ∈ xs ↔ s ∈ ys) :
    st.withSamples xs = st.withSamples ys := by
  have hall : ∀ s, s ∈ st.intervalMin.toList ++ xs ↔ s ∈ st.intervalMin.toList ++ ys := by
    intro s
    rw [List.mem_append, List.mem_append, h]
  rw [withSamples, withSamples, min?_congr hall]

variable {codel : CodelParams} {now : Nat}

theorem noteInterval_open (st : CodelState) (sojourn : Nat) (hinterval : 0 < codel.intervalNs)
    (hclock : now + codel.intervalNs < 2 ^ 64) : (st.noteInterval codel now sojourn).Open now := by
  have hend : now < saturatingAdd now codel.intervalNs := by
    unfold saturatingAdd
    omega
  rw [noteInterval_eq]
  by_cases hclose : st.Closes codel now
  · rw [if_pos hclose]
    exact ⟨by show saturatingAdd now codel.intervalNs ≠ 0; omega, hend⟩
  · rw [if_neg hclose]
    rw [Closes] at hclose
    exact ⟨by dsimp only; omega, by dsimp only; omega⟩

theorem Open.noteInterval (h : st.Open now) (sojourn : Nat) :
    st.noteInterval codel now sojourn = st.withSamples [sojourn] := by
  have hclose : ¬ st.Closes codel now := by
    rw [Closes, if_neg h.1]
    exact Nat.not_le.mpr h.2
  rw [noteInterval_eq, if_neg hclose, if_neg h.1, withSamples, min?_concat, toList_min?]

theorem Open.ageEmpty (h : st.Open now) : st.ageEmpty codel now = st := by
  rw [ageEmpty_eq, if_neg fun helapsed => Nat.not_le.mpr h.2 helapsed.2]

theorem noteInterval_noteInterval (st : CodelState) (sojourn : Nat)
    (hinterval : 0 < codel.intervalNs) (hclock : now + codel.intervalNs < 2 ^ 64) :
    (st.noteInterval codel now sojourn).noteInterval codel now sojourn =
      st.noteInterval codel now sojourn := by
  rw [(st.noteInterval_open sojourn hinterval hclock).noteInterval, noteInterval_eq]
  by_cases hclose : st.Closes codel now
  · rw [if_pos hclose]
    simp [withSamples]
  · rw [if_neg hclose]
    have htwice : (st.withSamples [sojourn]).withSamples [sojourn] = st.withSamples [sojourn] := by
      rw [withSamples_withSamples]
      exact withSamples_congr (by simp)
    have hmin := congrArg CodelState.intervalMin htwice
    simp only [withSamples, min?_concat, toList_min?] at hmin ⊢
    rw [hmin]

end CodelState

namespace Connection

/-- No sample at this time closes an interval. -/
def Calm (c : Connection) (now : Nat) : Prop := c.codel.enabled = true → c.codelState.Open now

/-- CoDel drops the frame if another is behind it. -/
def stale (c : Connection) (now : Nat) (f : OutFrame) : Bool :=
  c.codel.enabled && c.codelState.overloaded &&
    decide (saturatingMul c.codel.targetNs 2 < now - f.2)

/-- The estimate once the frames have been sampled. -/
def sampled (c : Connection) (now : Nat) (fs : List OutFrame) : CodelState :=
  if c.codel.enabled then c.codelState.withSamples (fs.map (now - ·.2)) else c.codelState

section Sampled

variable {c c' : Connection} {now : Nat} {fs gs : List OutFrame}

theorem stale_congr (hcodel : c'.codel = c.codel)
    (hoverloaded : c'.codelState.overloaded = c.codelState.overloaded) :
    c'.stale now = c.stale now := by
  funext f
  rw [stale, stale, hcodel, hoverloaded]

theorem sampled_overloaded (c : Connection) (now : Nat) (fs : List OutFrame) :
    (c.sampled now fs).overloaded = c.codelState.overloaded := by
  rw [sampled]
  split <;> rfl

theorem sampled_intervalEnd (c : Connection) (now : Nat) (fs : List OutFrame) :
    (c.sampled now fs).intervalEnd = c.codelState.intervalEnd := by
  rw [sampled]
  split <;> rfl

theorem Calm.congr (h : c.Calm now) (hcodel : c'.codel = c.codel)
    (hend : c'.codelState.intervalEnd = c.codelState.intervalEnd) : c'.Calm now := by
  intro hon
  rw [CodelState.Open, hend]
  exact h (hcodel ▸ hon)

theorem sampled_nil (c : Connection) (now : Nat) : c.sampled now [] = c.codelState := by
  rw [sampled]
  split
  · exact CodelState.withSamples_nil _
  · rfl

theorem sampled_congr (h : ∀ f, f ∈ fs ↔ f ∈ gs) : c.sampled now fs = c.sampled now gs := by
  rw [sampled, sampled, CodelState.withSamples_congr]
  intro s
  simp only [List.mem_map, h]

theorem sampled_sampled (c c' : Connection) (hcodel : c'.codel = c.codel)
    (hstate : c'.codelState = c.sampled now fs) (gs : List OutFrame) :
    c'.sampled now gs = c.sampled now (fs ++ gs) := by
  rw [sampled, sampled, hcodel, hstate, sampled]
  by_cases hon : c.codel.enabled = true
  · simp only [if_pos hon, CodelState.withSamples_withSamples, List.map_append]
  · simp only [if_neg hon]

end Sampled

/-! ## Vetting -/

/-- What `vet` does on a calm connection: a run of stale frames goes, never the last one
and never a frame whose first bytes are out, and it stops at a frame the rule keeps. -/
structure Vetted (c : Connection) (now : Nat) (dropped left : List OutFrame) : Prop where
  split : c.out = dropped ++ left
  stale : ∀ f ∈ dropped, c.stale now f = true
  behind : dropped ≠ [] → left ≠ []
  locked : 0 < c.outCursor → c.writevBatch = [] → dropped = []
  front : (0 < c.outCursor → c.writevBatch ≠ []) → ∀ f rest, left = f :: rest →
    (c.stale now f && !rest.isEmpty) = false
  conn : c.vet now = { c.unbill (totalBytes dropped) with
    out := left
    codelState := c.sampled now (dropped ++ left.take 1)
    codelDropped := c.codelDropped + dropped.length }
  victims : codelVictims (c.vetLog now) = dropped

/-- The connection the loop goes on with when it has dropped the front. -/
def afterDrop (c : Connection) (now : Nat) (front : OutFrame) (rest : List OutFrame) :
    Connection :=
  { unbill { c with codelState := c.sampled now [front] } front.1.length with
    out := rest
    codelDropped := c.codelDropped + 1 }

/-- While it is calm, CoDel drops the stale frames in front, and never the last one. -/
theorem codelLoop_calm (frontLocked : Bool) {now : Nat} (out : List OutFrame) (c : Connection)
    (hon : c.codel.enabled = true) (hcalm : c.Calm now) :
    ∃ dropped left, out = dropped ++ left ∧ (∀ f ∈ dropped, c.stale now f = true) ∧
      (dropped ≠ [] → left ≠ []) ∧ (frontLocked = true → dropped = []) ∧
      (frontLocked = false → ∀ f rest, left = f :: rest →
        (c.stale now f && !rest.isEmpty) = false) ∧
      (codelLoop frontLocked now out c).1 = { c.unbill (totalBytes dropped) with
        out := left
        codelState := c.sampled now (dropped ++ left.take 1)
        codelDropped := c.codelDropped + dropped.length } ∧
      codelVictims (codelLoop frontLocked now out c).2 = dropped := by
  induction out generalizing c with
  | nil =>
    refine ⟨[], [], rfl, by simp, by simp, by simp, by simp, ?_, rfl⟩
    rw [codelLoop, (hcalm hon).ageEmpty]
    simp [sampled_nil]
  | cons front rest ih =>
    have hnoted : c.codelState.noteInterval c.codel now (now - front.2) =
        c.sampled now [front] := by
      rw [(hcalm hon).noteInterval, sampled, if_pos hon]
      rfl
    have hrule : ((c.sampled now [front]).overloaded = true ∧
        saturatingMul c.codel.targetNs 2 < now - front.2 ∧ rest ≠ []) ↔
          (c.stale now front && !rest.isEmpty) = true := by
      simp [stale, hon, sampled_overloaded, and_assoc]
    rw [codelLoop]
    simp only [hnoted, hrule]
    by_cases hlocked : frontLocked = true
    · refine ⟨[], front :: rest, rfl, by simp, by simp, by simp, by simp [hlocked], ?_, ?_⟩
      · rw [if_pos hlocked]
        simp
      · rw [if_pos hlocked]
        rfl
    · by_cases hdrop : (c.stale now front && !rest.isEmpty) = true
      · obtain ⟨hstale, hrest⟩ : c.stale now front = true ∧ rest ≠ [] := by simpa using hdrop
        have hcalm' : (c.afterDrop now front rest).Calm now :=
          hcalm.congr rfl (sampled_intervalEnd c now [front])
        have hstale' : (c.afterDrop now front rest).stale now = c.stale now :=
          stale_congr rfl (sampled_overloaded c now [front])
        obtain ⟨dropped, left, hsplit, hall, hbehind, -, hfront, hconn, hvictims⟩ :=
          ih (c.afterDrop now front rest) hon hcalm'
        rw [hstale'] at hall hfront
        refine ⟨front :: dropped, left, by rw [hsplit]; rfl, ?_, ?_, fun h => absurd h hlocked,
          hfront, ?_, ?_⟩
        · intro f hf
          rcases List.mem_cons.mp hf with rfl | hf
          · exact hstale
          · exact hall f hf
        · intro _ hnil
          apply hrest
          rw [hsplit, hnil]
          by_contra hne
          exact hbehind (fun h => hne (by rw [h]; rfl)) hnil
        · rw [if_neg hlocked, if_pos hdrop]
          refine hconn.trans ?_
          have hsamples : (c.afterDrop now front rest).sampled now (dropped ++ left.take 1) =
              c.sampled now (front :: dropped ++ left.take 1) :=
            sampled_sampled c (c.afterDrop now front rest) rfl rfl _
          rw [hsamples, totalBytes_cons, ← unbill_unbill, List.length_cons]
          simp only [afterDrop, unbill, Connection.mk.injEq, and_true, true_and]
          omega
        · rw [if_neg hlocked, if_pos hdrop]
          exact congrArg (front :: ·) hvictims
      · refine ⟨[], front :: rest, rfl, by simp, by simp, by simp, ?_, ?_, ?_⟩
        · rintro - f r heq
          cases heq
          exact Bool.eq_false_iff.mpr hdrop
        · rw [if_neg hlocked, if_neg hdrop]
          simp
        · rw [if_neg hlocked, if_neg hdrop]
          rfl

theorem Calm.vetted {c : Connection} {now : Nat} (h : c.Calm now) :
    ∃ dropped left, c.Vetted now dropped left := by
  by_cases hon : c.codel.enabled = true
  · obtain ⟨dropped, left, hsplit, hstale, hbehind, hlocked, hfront, hconn, hvictims⟩ :=
      codelLoop_calm (decide (0 < c.outCursor) && c.writevBatch.isEmpty) c.out c hon h
    refine ⟨dropped, left, hsplit, hstale, hbehind, fun hcursor hbatch => ?_, fun hfree => ?_,
      ?_, ?_⟩
    · exact hlocked (by simp [hcursor, hbatch])
    · refine hfront ?_
      rw [Bool.and_eq_false_iff]
      by_cases hcursor : 0 < c.outCursor
      · right
        simpa using hfree hcursor
      · left
        simpa using hcursor
    · rw [vet, vetting, codelDequeue, if_pos hon]
      exact hconn
    · rw [vetLog, vetting, codelDequeue, if_pos hon]
      exact hvictims
  · refine ⟨[], c.out, rfl, by simp, by simp, fun _ _ => rfl, fun _ f rest _ => ?_, ?_, ?_⟩
    · simp [Connection.stale, hon]
    · rw [vet, vetting, codelDequeue, if_neg hon]
      simp [sampled, hon]
    · rw [vetLog, vetting, codelDequeue, if_neg hon]
      rfl

end Connection

/-! ## What the queue drains to -/

/-- A queue written out: the connection left, the bytes, the frames dropped. -/
structure Drained where
  conn : Connection
  written : Bytes
  dropped : List OutFrame
  deriving DecidableEq, Repr

/-- Some of the bytes and drops came before. -/
def Drained.after (d : Drained) (written : Bytes) (dropped : List OutFrame) : Drained :=
  { d with written := written ++ d.written, dropped := dropped ++ d.dropped }

@[simp] theorem Drained.after_written (d : Drained) (written : Bytes) (dropped : List OutFrame) :
    (d.after written dropped).written = written ++ d.written := rfl

theorem Drained.after_after (d : Drained) (written written' : Bytes)
    (dropped dropped' : List OutFrame) :
    (d.after written dropped).after written' dropped' =
      d.after (written' ++ written) (dropped' ++ dropped) := by
  simp only [after, List.append_assoc]

namespace Connection

/-- The connection with nothing left to send. -/
def emptied (c : Connection) (bytes : Nat) (st : CodelState) (drops : Nat) : Connection :=
  { c.unbill bytes with
    out := []
    outCursor := 0
    writevBatch := []
    codelState := st
    codelDropped := c.codelDropped + drops }

/-- A connection that has sent and dropped some frames is emptied by the rest. -/
theorem emptied_emptied {c c' : Connection} {bytes drops : Nat} {out batch : List OutFrame}
    {cursor : Nat} {st : CodelState}
    (h : c' = { c.unbill bytes with
      out, outCursor := cursor, writevBatch := batch, codelState := st
      codelDropped := c.codelDropped + drops })
    (bytes' : Nat) (st' : CodelState) (drops' : Nat) :
    c'.emptied bytes' st' drops' = c.emptied (bytes + bytes') st' (drops + drops') := by
  subst h
  simp only [emptied, unbill, Connection.mk.injEq, true_and, and_true]
  refine ⟨?_, ?_, ?_, ?_⟩ <;> omega

/-- All frames of the queue are written, in order, but for the stale ones behind the
partly written front and before the last. -/
def drained (c : Connection) (now : Nat) : Drained where
  conn := c.emptied (totalBytes c.out) (c.sampled now c.out)
    (victims (c.stale now) c.droppable).length
  written := (slices c.outCursor (c.locked ++ survivors (c.stale now) c.droppable)).flatten
  dropped := victims (c.stale now) c.droppable

/-- The number of frames that are locked, if there are any. -/
def lock (c : Connection) : Nat := if 0 < c.outCursor then 1 else 0

/-- Gathered or not, the frames drain alike. -/
theorem drained_restoreBatch (c : Connection) (now : Nat) :
    c.restoreBatch.drained now =
      { conn := c.emptied (totalBytes (c.writevBatch ++ c.out))
          (c.sampled now (c.writevBatch ++ c.out))
          (victims (c.stale now) ((c.writevBatch ++ c.out).drop c.lock)).length
        written := (slices c.outCursor ((c.writevBatch ++ c.out).take c.lock ++
          survivors (c.stale now) ((c.writevBatch ++ c.out).drop c.lock))).flatten
        dropped := victims (c.stale now) ((c.writevBatch ++ c.out).drop c.lock) } := rfl

namespace Vetted

variable {c : Connection} {now : Nat} {dropped left : List OutFrame}

section

variable (h : c.Vetted now dropped left)

include h

theorem codel : (c.vet now).codel = c.codel := by
  rw [h.conn]
  rfl

theorem batch : (c.vet now).writevBatch = c.writevBatch := by
  rw [h.conn]
  rfl

theorem cursor : (c.vet now).outCursor = c.outCursor := by
  rw [h.conn]
  rfl

theorem out : (c.vet now).out = left := by
  rw [h.conn]

theorem lock_eq : (c.vet now).lock = c.lock := by
  rw [lock, lock, h.cursor]

theorem state : (c.vet now).codelState = c.sampled now (dropped ++ left.take 1) := by
  rw [h.conn]

theorem calm (hcalm : c.Calm now) : (c.vet now).Calm now :=
  hcalm.congr h.codel (by rw [h.state, sampled_intervalEnd])

theorem stale_eq : (c.vet now).stale now = c.stale now :=
  stale_congr h.codel (by rw [h.state, sampled_overloaded])

/-- Sampling after the vetting is sampling with what it sampled. -/
theorem sampled_eq (fs : List OutFrame) :
    (c.vet now).sampled now fs = c.sampled now (dropped ++ left.take 1 ++ fs) :=
  sampled_sampled c (c.vet now) h.codel h.state fs

/-- The frames sampled so far are not news. -/
theorem seen {f : OutFrame}
    (hf : c.sampled now [f] = c.codelState ∨ f ∈ dropped ++ left.take 1) :
    (c.vet now).sampled now [f] = (c.vet now).codelState := by
  rw [h.sampled_eq, h.state]
  rcases hf with hf | hf
  · have hfirst : c.sampled now (dropped ++ left.take 1 ++ [f]) =
        c.sampled now ([f] ++ (dropped ++ left.take 1)) :=
      sampled_congr fun g => by simp only [List.mem_append]; tauto
    rw [hfirst, ← sampled_sampled c c rfl hf.symm]
  · refine sampled_congr fun g => ?_
    simp only [List.mem_append, List.mem_singleton] at hf ⊢
    constructor
    · rintro (hg | rfl)
      · exact hg
      · exact hf
    · exact Or.inl

/-- Vetting takes its drops out of what is to come. -/
theorem drained (hfirm : Firm (c.stale now) (c.writevBatch.drop c.lock) c.out) :
    c.restoreBatch.drained now = ((c.vet now).restoreBatch.drained now).after [] dropped := by
  have hlock : dropped ≠ [] → c.lock ≤ c.writevBatch.length := by
    intro hsome
    rw [lock]
    split
    · next hcursor =>
      exact List.length_pos_of_ne_nil fun hbatch => hsome (h.locked hcursor hbatch)
    · exact Nat.zero_le _
  rw [h.split] at hfirm
  obtain ⟨hlocked, hsurvive, hvictims⟩ := round_behind h.stale h.behind hlock hfirm
  have hsamples : (c.vet now).sampled now (c.writevBatch ++ left) =
      c.sampled now (c.writevBatch ++ (dropped ++ left)) := by
    rw [h.sampled_eq]
    refine sampled_congr fun f => ?_
    have htake : f ∈ left.take 1 → f ∈ left := List.mem_of_mem_take
    simp only [List.mem_append]
    grind
  have hbytes : totalBytes (c.writevBatch ++ (dropped ++ left)) =
      totalBytes dropped + totalBytes (c.writevBatch ++ left) := by
    simp only [totalBytes_append]
    omega
  rw [drained_restoreBatch, drained_restoreBatch, h.stale_eq, h.batch, h.cursor, h.lock_eq, h.out,
    hsamples, emptied_emptied h.conn, h.split, hlocked, hsurvive, hvictims, hbytes,
    List.length_append]
  rfl

end

end Vetted

end Connection

end Pylon.Transport
