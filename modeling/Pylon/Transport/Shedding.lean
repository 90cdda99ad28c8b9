import Pylon.Lib.Tally
import Pylon.Transport.Worker

/-!
# Broadcasts under the byte budget

`drain_broadcast_inbox` of `transport/worker.rs`: every message of a worker's inbox is
offered to the local subscribers of its channel, one after the other, and the worker's
in-flight total decides each time who is skipped. `Worker.deliver` is the body of the
inner loop; here it runs over the delivery index, with the pressure bit it raises.

A message reaches each subscriber its channel has in the index, once, and the total never
passes the budget by more than one frame, as long as it covers what is queued (`Covers`).
An eviction takes the evicted bytes off the total, and nothing checks that they are on it:
a total that is too small wraps below zero.

The only caller has nothing marked for teardown yet, so `to_close` is empty.
-/

namespace Pylon.Transport

open Pylon.Channel Pylon.Lib Pylon.Redis

/-! ## The pump -/

/-- A message of the inbox: one frame per active protocol version. -/
structure Broadcast where
  key : Key
  frames : List (Nat × Bytes)
  except : Option Text

/-- The message as the inner loop reads it. -/
def Broadcast.toMsg (msg : Broadcast) (subs : List Subscriber) : BroadcastMsg :=
  { frames := msg.frames, except := msg.except, subs }

/-- The delivery index with the order in which the map of each channel is walked. -/
structure WalkedSubs where
  subs : LocalSubs
  walk : Key → List (Text × (Nat × Nat))
  walks : ∀ key s, subs.hget key = some s → s.Enumerates (walk key)

def subscriberOf (entry : Text × (Nat × Nat)) : Subscriber :=
  { sid := entry.1, token := entry.2.1, version := entry.2.2 }

/-- What the pump works on. A worker without a slot has no bit to raise. -/
structure Pump where
  worker : Worker
  touched : List Nat
  budgetSaturated : Option Bool

namespace Pump

/-- The body of the subscriber loop. -/
def offer (budget now : Nat) (msg : BroadcastMsg) (s : Pump) (sub : Subscriber) : Pump :=
  if shedBand s.worker.inflightBytes.toNat budget = .saturated then
    { s with budgetSaturated := s.budgetSaturated.map fun _ => true }
  else
    let r := Worker.deliver budget now msg (s.worker, s.touched) sub
    { s with worker := r.1, touched := r.2 }

/-- One message: nobody is subscribed here, nothing is encoded, or the loop. -/
def handOut (ix : WalkedSubs) (budget now : Nat) (s : Pump) (msg : Broadcast) : Pump :=
  match ix.subs.hget msg.key with
  | none => s
  | some _ =>
    match msg.frames with
    | [] => s
    | _ :: _ =>
      let subs := (ix.walk msg.key).map subscriberOf
      subs.foldl (offer budget now (msg.toMsg subs)) s

def drainBroadcastInbox (s : Pump) (ix : WalkedSubs) (budget now : Nat) (inbox : List Broadcast) :
    Pump :=
  inbox.foldl (handOut ix budget now) s

end Pump

/-! ## Visits -/

/-- A subscriber being offered the message at position `pos` of the inbox. -/
structure Visit where
  pos : Nat
  msg : Broadcast
  sub : Subscriber

namespace WalkedSubs

/-- The subscribers a message is offered to. -/
def reached (ix : WalkedSubs) (msg : Broadcast) : List Subscriber :=
  match ix.subs.hget msg.key with
  | none => []
  | some _ => if msg.frames = [] then [] else (ix.walk msg.key).map subscriberOf

/-- The visits of a drain whose first message has position `pos`. -/
def visits (ix : WalkedSubs) (pos : Nat) : List Broadcast → List Visit
  | [] => []
  | msg :: inbox => (ix.reached msg).map (Visit.mk pos msg) ++ ix.visits (pos + 1) inbox

/-- A message with a frame is offered to the sockets the index has for its channel. -/
theorem mem_reached {ix : WalkedSubs} {msg : Broadcast} {sub : Subscriber} :
    sub ∈ ix.reached msg ↔
      msg.frames ≠ [] ∧ ix.subs.slot msg.key sub.sid = some (sub.token, sub.version) := by
  unfold reached LocalSubs.slot
  cases hsubs : ix.subs.hget msg.key with
  | none => simp
  | some subs =>
    have henum := ix.walks msg.key subs hsubs
    dsimp only
    rw [Option.bind_some, ← henum.mem_iff]
    split
    next hnil => simp [hnil]
    next hframes =>
      rw [List.mem_map]
      constructor
      · rintro ⟨entry, hentry, rfl⟩
        exact ⟨hframes, hentry⟩
      · rintro ⟨-, hentry⟩
        exact ⟨_, hentry, rfl⟩

/-- No broadcast reaches a socket twice. -/
theorem reached_nodup (ix : WalkedSubs) (msg : Broadcast) :
    ((ix.reached msg).map Subscriber.sid).Nodup := by
  unfold reached
  cases hsubs : ix.subs.hget msg.key with
  | none => exact List.nodup_nil
  | some subs =>
    dsimp only
    split
    · exact List.nodup_nil
    · rw [List.map_map]
      exact (ix.walks msg.key subs hsubs).1

theorem pos_le_of_mem_visits {ix : WalkedSubs} {inbox : List Broadcast} {pos : Nat} {v : Visit}
    (hv : v ∈ ix.visits pos inbox) : pos ≤ v.pos := by
  induction inbox generalizing pos with
  | nil => exact absurd hv List.not_mem_nil
  | cons _ _ ih =>
    rcases List.mem_append.mp hv with hhere | hlater
    · obtain ⟨sub, -, rfl⟩ := List.mem_map.mp hhere
      exact le_rfl
    · exact (Nat.le_succ pos).trans (ih hlater)

/-- No socket is offered a message twice. -/
theorem visits_nodup (ix : WalkedSubs) (pos : Nat) (inbox : List Broadcast) :
    ((ix.visits pos inbox).map fun v => (v.pos, v.sub.sid)).Nodup := by
  induction inbox generalizing pos with
  | nil => exact List.nodup_nil
  | cons msg _ ih =>
    rw [visits, List.map_append, List.nodup_append]
    refine ⟨?_, ih (pos + 1), ?_⟩
    · have hpair : ((ix.reached msg).map (Visit.mk pos msg)).map (fun v => (v.pos, v.sub.sid)) =
          ((ix.reached msg).map Subscriber.sid).map (Prod.mk pos) := by
        simp [List.map_map, Function.comp_def]
      rw [hpair]
      exact (ix.reached_nodup msg).map (Prod.mk_right_injective pos)
    · -- the later messages have later positions
      intro p hp q hq heq
      obtain ⟨v, hv, rfl⟩ := List.mem_map.mp hp
      obtain ⟨v', hv', rfl⟩ := List.mem_map.mp hq
      obtain ⟨sub, -, rfl⟩ := List.mem_map.mp hv
      have hle := pos_le_of_mem_visits hv'
      have hpos : pos = v'.pos := congrArg Prod.fst heq
      omega

/-- The visits are the messages, each with the subscribers it is offered to. -/
theorem mem_visits {ix : WalkedSubs} {inbox : List Broadcast} {pos : Nat} {v : Visit} :
    v ∈ ix.visits pos inbox ↔
      pos ≤ v.pos ∧ inbox[v.pos - pos]? = some v.msg ∧ v.sub ∈ ix.reached v.msg := by
  induction inbox generalizing pos with
  | nil => simp [visits]
  | cons msg _ ih =>
    rw [visits, List.mem_append, ih]
    constructor
    · rintro (hhere | ⟨hle, hget, hsub⟩)
      · obtain ⟨sub, hsub, rfl⟩ := List.mem_map.mp hhere
        exact ⟨le_rfl, by simp, hsub⟩
      · refine ⟨by omega, ?_, hsub⟩
        rw [show v.pos - pos = v.pos - (pos + 1) + 1 by omega, List.getElem?_cons_succ]
        exact hget
    · rintro ⟨hle, hget, hsub⟩
      by_cases hpos : v.pos = pos
      · rw [hpos, Nat.sub_self, List.getElem?_cons_zero] at hget
        obtain rfl : msg = v.msg := Option.some.inj hget
        exact Or.inl (List.mem_map.mpr ⟨v.sub, hsub, by rw [← hpos]⟩)
      · rw [show v.pos - pos = v.pos - (pos + 1) + 1 by omega, List.getElem?_cons_succ] at hget
        exact Or.inr ⟨by omega, hget, hsub⟩

end WalkedSubs

namespace Pump

def visit (budget now : Nat) (s : Pump) (v : Visit) : Pump :=
  s.offer budget now (v.msg.toMsg []) v.sub

theorem handOut_eq (ix : WalkedSubs) (budget now : Nat) (s : Pump) (msg : Broadcast) (pos : Nat) :
    s.handOut ix budget now msg =
      run (visit budget now) s ((ix.reached msg).map (Visit.mk pos msg)) := by
  unfold handOut WalkedSubs.reached
  cases ix.subs.hget msg.key with
  | none => rfl
  | some =>
    cases hframes : msg.frames with
    | nil => rfl
    | cons frame frames =>
      rw [if_neg (List.cons_ne_nil frame frames)]
      simp only [run, List.foldl_map]
      rfl

/-- The nested loops are one run over the visits. -/
theorem drainBroadcastInbox_eq (ix : WalkedSubs) (budget now : Nat) (inbox : List Broadcast)
    (pos : Nat) (s : Pump) :
    s.drainBroadcastInbox ix budget now inbox =
      run (visit budget now) s (ix.visits pos inbox) := by
  induction inbox generalizing s pos with
  | nil => rfl
  | cons _ _ ih =>
    rw [WalkedSubs.visits, run_append, ← handOut_eq]
    exact ih (pos + 1) _

theorem offer_pair (budget now : Nat) (msg : BroadcastMsg) (s : Pump) (sub : Subscriber) :
    ((s.offer budget now msg sub).worker, (s.offer budget now msg sub).touched) =
      Worker.deliver budget now msg (s.worker, s.touched) sub := by
  unfold offer
  split
  next hband => rw [Worker.deliver, if_pos (Or.inl hband)]
  next => rfl

/-! ## Deliveries -/

/-- Whether the subscriber takes the message when it is reached: it is not the excluded
socket, its connection is open, and the band leaves its queue alone. -/
def takes (budget : Nat) (s : Pump) (v : Visit) : Bool :=
  let band := shedBand s.worker.inflightBytes.toNat budget
  decide (band ≠ .saturated) && decide (v.msg.except ≠ some v.sub.sid) &&
    (s.worker.openConn v.sub.token).any fun e =>
      !shouldSkip band e.conn.conn.outBytes e.conn.conn.highWater

/-- What the visit queues on the connection at `key`. -/
def taken (budget key : Nat) (s : Pump) (v : Visit) : List Bytes :=
  if v.sub.token = key ∧ s.takes budget v = true then
    ((v.msg.toMsg []).frameFor v.sub.version).toList
  else []

end Pump

/-- The entry with a frame queued and its deltas folded. -/
def WorkerEntry.queueFolded (now : Nat) (e : WorkerEntry) (frame : Bytes) : WorkerEntry :=
  { e with conn := (e.conn.queue frame now).takeDeltas }

namespace Pump

theorem takes_iff {budget : Nat} {s : Pump} {v : Visit} :
    s.takes budget v = true ↔
      shedBand s.worker.inflightBytes.toNat budget ≠ .saturated ∧
        v.msg.except ≠ some v.sub.sid ∧
        ∃ e, s.worker.openConn v.sub.token = some e ∧
          shouldSkip (shedBand s.worker.inflightBytes.toNat budget) e.conn.conn.outBytes
            e.conn.conn.highWater = false := by
  simp [takes, Option.any_eq_true, and_assoc]

variable (budget : Nat)

/-- What a visit does: nothing, or it queues one frame on the subscriber's connection and
folds what that leaves. -/
theorem visit_cases (now : Nat) (s : Pump) (v : Visit) :
    ((s.visit budget now v).worker = s.worker ∧ ∀ key, s.taken budget key v = []) ∨
      ∃ e frame, s.worker.conns.hget v.sub.token = some e ∧
        shedBand s.worker.inflightBytes.toNat budget ≠ .saturated ∧
        (v.msg.toMsg []).frameFor v.sub.version = some frame ∧
        (∀ key, s.taken budget key v = if v.sub.token = key then [frame] else []) ∧
        (s.visit budget now v).worker.conns =
          s.worker.conns.hset v.sub.token (e.queueFolded now frame) ∧
        (s.visit budget now v).worker.inflightBytes =
          s.worker.inflightBytes + .ofInt 64 (e.conn.queue frame now).conn.inflightDelta := by
  have hworker : (s.visit budget now v).worker =
      (Worker.deliver budget now (v.msg.toMsg []) (s.worker, s.touched) v.sub).1 :=
    congrArg Prod.fst (offer_pair budget now (v.msg.toMsg []) s v.sub)
  rw [hworker, Worker.deliver]
  split
  next hgo =>
    refine Or.inl ⟨rfl, fun key => if_neg ?_⟩
    rintro ⟨-, htakes⟩
    obtain ⟨hband, hexcept, -⟩ := takes_iff.mp htakes
    exact hgo.elim hband hexcept
  next hgo =>
    cases hopen : s.worker.openConn v.sub.token with
    | none =>
      refine Or.inl ⟨rfl, fun key => if_neg ?_⟩
      rintro ⟨-, htakes⟩
      obtain ⟨-, -, e, he, -⟩ := takes_iff.mp htakes
      exact absurd (hopen.symm.trans he) (by simp)
    | some e =>
      cases hframe : (v.msg.toMsg []).frameFor v.sub.version with
      | none =>
        refine Or.inl ⟨rfl, fun key => ?_⟩
        rw [taken, hframe]
        split <;> rfl
      | some frame =>
        dsimp only
        split
        next hskip =>
          refine Or.inl ⟨rfl, fun key => if_neg ?_⟩
          rintro ⟨-, htakes⟩
          obtain ⟨-, -, e', he', hnot⟩ := takes_iff.mp htakes
          obtain rfl : e = e' := Option.some.inj (hopen.symm.trans he')
          exact absurd (hskip.symm.trans hnot) (by simp)
        next hskip =>
          rw [not_or] at hgo
          have htakes : s.takes budget v = true :=
            takes_iff.mpr ⟨hgo.1, hgo.2, e, hopen, by simpa using hskip⟩
          refine Or.inr ⟨e, frame, (Worker.session_of_openConn hopen).1, hgo.1, rfl, ?_, ?_⟩
          · intro key
            simp [taken, htakes, hframe]
          · simp only [Worker.foldDelta, Worker.put, Handled.keep, Hash.hget_hset_self,
              Hash.hset_hset]
            exact ⟨rfl, rfl⟩

/-- A visit feeds each connection what it takes there. -/
theorem hget_visit (now key : Nat) (s : Pump) (v : Visit) :
    (s.visit budget now v).worker.conns.hget key =
      (s.worker.conns.hget key).map fun e =>
        (s.taken budget key v).foldl (WorkerEntry.queueFolded now) e := by
  rcases visit_cases budget now s v with
    ⟨hsame, hnone⟩ | ⟨e, frame, hkey, -, -, htaken, hconns, -⟩
  · rw [hsame, hnone]
    simp
  · rw [hconns, Hash.hget_hset, htaken]
    by_cases hk : key = v.sub.token
    · rw [if_pos hk, if_pos hk.symm, hk, hkey]
      rfl
    · rw [if_neg hk, if_neg (Ne.symm hk)]
      simp

/-- Each connection is fed what it takes along the drain, in order. -/
theorem hget_run (now key : Nat) (s : Pump) (vs : List Visit) :
    (run (visit budget now) s vs).worker.conns.hget key =
      (s.worker.conns.hget key).map fun e =>
        (outputs (visit budget now) (taken budget key) s vs).foldl
          (WorkerEntry.queueFolded now) e := by
  induction vs generalizing s with
  | nil => simp [outputs]
  | cons _ _ ih =>
    rw [run_cons, ih, hget_visit, Option.map_map, outputs]
    simp only [List.foldl_append]
    rfl

/-- Nothing is queued at the budget or above. -/
theorem visit_conns_of_full {budget : Nat} (hbudget : 1 ≤ budget) (now : Nat) {s : Pump}
    (hfull : budget ≤ s.worker.inflightBytes.toNat) (v : Visit) :
    (s.visit budget now v).worker.conns = s.worker.conns := by
  rcases visit_cases budget now s v with ⟨hsame, -⟩ | ⟨e, frame, -, hband, -⟩
  · rw [hsame]
  · exact absurd (shedBand_saturated (by omega) hfull) hband

/-! ## The pressure bit -/

/-- The band a visit meets. -/
def met (budget : Nat) (s : Pump) (_ : Visit) : List ShedBand :=
  [shedBand s.worker.inflightBytes.toNat budget]

theorem budgetSaturated_visit (now : Nat) (s : Pump) (v : Visit) :
    (s.visit budget now v).budgetSaturated =
      s.budgetSaturated.map fun bit => bit || decide (.saturated ∈ met budget s v) := by
  unfold visit offer met
  split
  next hband => simp [hband]
  next hband =>
    have hnot : ¬ ShedBand.saturated ∈ [shedBand s.worker.inflightBytes.toNat budget] := by
      simpa using Ne.symm hband
    simp [hnot]

theorem budgetSaturated_run (now : Nat) (s : Pump) (vs : List Visit) :
    (run (visit budget now) s vs).budgetSaturated =
      s.budgetSaturated.map fun bit =>
        bit || decide (.saturated ∈ outputs (visit budget now) (met budget) s vs) := by
  induction vs generalizing s with
  | nil => simp [outputs]
  | cons _ _ ih =>
    rw [run_cons, ih, budgetSaturated_visit, Option.map_map, outputs]
    congr 1
    funext bit
    simp [Bool.or_assoc]

/-! ## The bound -/

/-- The total covers what is queued, no delta is open, and `most` bounds the total. -/
structure Covers (most : Nat) (s : Pump) : Prop where
  settled : ∀ key e, s.worker.conns.hget key = some e →
    e.conn.conn.outBytes = totalBytes e.conn.conn.out ∧ e.conn.conn.inflightDelta = 0
  queued : s.worker.conns.tally (fun e => e.conn.conn.outBytes) ≤ s.worker.inflightBytes.toNat
  bounded : s.worker.inflightBytes.toNat ≤ most

theorem toNat_add_ofInt (x : BitVec 64) {gone come : Nat} (hgone : gone ≤ x.toNat)
    (hfits : x.toNat - gone + come < 2 ^ 64) :
    (x + .ofInt 64 (-gone + come)).toNat = x.toNat - gone + come := by
  rw [BitVec.toNat_add, BitVec.toNat_ofInt]
  omega

theorem length_of_frameFor {msg : BroadcastMsg} {version : Nat} {frame : Bytes} {longest : Nat}
    (hlongest : ∀ f ∈ msg.frames, f.2.length ≤ longest)
    (hframe : msg.frameFor version = some frame) : frame.length ≤ longest := by
  obtain ⟨f, hf, rfl⟩ := Option.map_eq_some_iff.mp hframe
  rcases Option.or_eq_some_iff.mp hf with hfind | ⟨-, hhead⟩
  · exact hlongest f (List.mem_of_find?_eq_some hfind)
  · exact hlongest f (List.mem_of_mem_head? hhead)

/-- What queueing does to the counters of a connection with no open delta. -/
theorem queueFolded_counters {e : WorkerEntry}
    (hbilled : e.conn.conn.outBytes = totalBytes e.conn.conn.out)
    (hdelta : e.conn.conn.inflightDelta = 0) (frame : Bytes) (now : Nat) :
    ∃ gone, gone ≤ e.conn.conn.outBytes ∧
      (e.conn.queue frame now).conn.inflightDelta = -(gone : Int) + frame.length ∧
      (e.queueFolded now frame).conn.conn.outBytes = e.conn.conn.outBytes - gone + frame.length ∧
      (e.queueFolded now frame).conn.conn.outBytes =
        totalBytes (e.queueFolded now frame).conn.conn.out ∧
      (e.queueFolded now frame).conn.conn.inflightDelta = 0 := by
  obtain ⟨evicted, kept, hsplit, heq⟩ := e.conn.conn.queue_spec frame now
  rw [← e.conn.conn.locked_append_droppable, hsplit, totalBytes_append,
    totalBytes_append] at hbilled
  unfold WorkerEntry.queueFolded IoConnection.queue IoConnection.takeDeltas
  rw [heq]
  refine ⟨totalBytes evicted, by omega, ?_, rfl, ?_, rfl⟩
  · show e.conn.conn.inflightDelta - totalBytes evicted + frame.length = _
    omega
  · show e.conn.conn.outBytes - totalBytes evicted + frame.length =
      totalBytes (e.conn.conn.locked ++ kept ++ [(frame, now)])
    rw [totalBytes_append, totalBytes_append, totalBytes_cons, totalBytes_nil]
    dsimp only
    omega

/-- A message admitted under the budget overshoots it by less than its frame. -/
theorem Covers.visit {most budget longest : Nat} (hbudget : 1 ≤ budget)
    (hmost : budget - 1 + longest ≤ most) (hfits : most < 2 ^ 64) {s : Pump} (h : Covers most s)
    (now : Nat) {v : Visit} (hlongest : ∀ f ∈ v.msg.frames, f.2.length ≤ longest) :
    Covers most (s.visit budget now v) := by
  rcases visit_cases budget now s v with
    ⟨hsame, -⟩ | ⟨e, frame, hkey, hband, hframe, -, hconns, hbytes⟩
  · exact ⟨by rw [hsame]; exact h.settled, by rw [hsame]; exact h.queued,
      by rw [hsame]; exact h.bounded⟩
  · obtain ⟨hbilled, hdelta⟩ := h.settled _ e hkey
    obtain ⟨gone, hgone, hmoved, hout, hbilled', hdelta'⟩ :=
      queueFolded_counters hbilled hdelta frame now
    have hlen := length_of_frameFor hlongest hframe
    -- below the budget, or the band would have been saturated
    have hbelow : s.worker.inflightBytes.toNat < budget := by
      by_contra hfull
      exact hband (shedBand_saturated (by omega) (by omega))
    have htally := Hash.tally_hset (fun e : WorkerEntry => e.conn.conn.outBytes) s.worker.conns
      v.sub.token (e.queueFolded now frame)
    rw [Hash.weight_of_hget hkey] at htally
    have hheld : e.conn.conn.outBytes ≤
        s.worker.conns.tally fun e : WorkerEntry => e.conn.conn.outBytes := by
      rw [Hash.tally_eq_add_erase _ _ v.sub.token, Hash.weight_of_hget hkey]
      exact Nat.le_add_right _ _
    have hqueued := h.queued
    have htotal :
        (s.worker.inflightBytes + .ofInt 64 (-(gone : Int) + frame.length)).toNat =
          s.worker.inflightBytes.toNat - gone + frame.length :=
      toNat_add_ofInt s.worker.inflightBytes (by omega) (by omega)
    refine ⟨?_, ?_, ?_⟩
    · intro key e' hget
      rw [hconns, Hash.hget_hset] at hget
      split at hget
      · obtain rfl := Option.some.inj hget
        exact ⟨hbilled', hdelta'⟩
      · exact h.settled key e' hget
    · rw [hconns, hbytes, hmoved, htotal]
      omega
    · rw [hbytes, hmoved, htotal]
      omega

end Pump

/-- What a drain does. Each message with a frame reaches each of its local subscribers once,
and each connection is queued exactly the frames of the visits it takes, in that order;
nothing is queued at the budget or above; a total that covers what is queued never passes
the budget by more than one frame; the bit is raised exactly when a subscriber is reached
in the saturated band. -/
theorem broadcast_drain {budget : Nat} (hbudget : 1 ≤ budget) (ix : WalkedSubs) (now : Nat)
    (inbox : List Broadcast) (s : Pump) :
    let vs := ix.visits 0 inbox
    let after := s.drainBroadcastInbox ix budget now inbox
    after = run (Pump.visit budget now) s vs ∧
    (vs.map fun v => (v.pos, v.sub.sid)).Nodup ∧
    (∀ v, v ∈ vs ↔ inbox[v.pos]? = some v.msg ∧ v.msg.frames ≠ [] ∧
      ix.subs.slot v.msg.key v.sub.sid = some (v.sub.token, v.sub.version)) ∧
    (∀ key, after.worker.conns.hget key = (s.worker.conns.hget key).map fun e =>
      (outputs (Pump.visit budget now) (Pump.taken budget key) s vs).foldl
        (WorkerEntry.queueFolded now) e) ∧
    Along (Pump.visit budget now) (fun t v => budget ≤ t.worker.inflightBytes.toNat →
      (t.visit budget now v).worker.conns = t.worker.conns) s vs ∧
    (∀ longest, (∀ msg ∈ inbox, ∀ f ∈ msg.frames, f.2.length ≤ longest) →
      (∀ key e, s.worker.conns.hget key = some e →
        e.conn.conn.outBytes = totalBytes e.conn.conn.out ∧ e.conn.conn.inflightDelta = 0) →
      s.worker.conns.tally (fun e => e.conn.conn.outBytes) ≤ s.worker.inflightBytes.toNat →
      ∀ before later, vs = before ++ later →
        (run (Pump.visit budget now) s before).worker.inflightBytes.toNat ≤
          max s.worker.inflightBytes.toNat (budget - 1 + longest)) ∧
    after.budgetSaturated = s.budgetSaturated.map fun bit =>
      bit || decide (.saturated ∈ outputs (Pump.visit budget now) (Pump.met budget) s vs) := by
  intro vs after
  have hafter : after = run (Pump.visit budget now) s vs :=
    s.drainBroadcastInbox_eq ix budget now inbox 0
  refine ⟨hafter, ix.visits_nodup 0 inbox, fun v => ?_, fun key => ?_, ?_, ?_, ?_⟩
  · rw [WalkedSubs.mem_visits, WalkedSubs.mem_reached, Nat.sub_zero]
    exact and_iff_right (Nat.zero_le _)
  · rw [hafter]
    exact Pump.hget_run budget now key s vs
  · exact Along.of_forall (fun t v hfull => Pump.visit_conns_of_full hbudget now hfull v) s vs
  · intro longest hlongest hsettled hqueued before later hvs
    by_cases hfits : max s.worker.inflightBytes.toNat (budget - 1 + longest) < 2 ^ 64
    · have hframes : ∀ v ∈ before, ∀ f ∈ v.msg.frames, f.2.length ≤ longest := by
        intro v hv
        have hmem : v ∈ vs := by rw [hvs]; exact List.mem_append_left later hv
        exact hlongest v.msg (List.mem_of_getElem? (WalkedSubs.mem_visits.mp hmem).2.1)
      have halong : Along (Pump.visit budget now)
          (fun _ v => ∀ f ∈ v.msg.frames, f.2.length ≤ longest) s before :=
        Along.of_mem hframes s
      have hstep := fun (t : Pump) (v : Visit)
          (ht : Pump.Covers (max s.worker.inflightBytes.toNat (budget - 1 + longest)) t)
          (hv : ∀ f ∈ v.msg.frames, f.2.length ≤ longest) =>
        ht.visit hbudget (le_max_right _ _) hfits now hv
      exact (halong.invariant hstep ⟨hsettled, hqueued, le_max_left _ _⟩).bounded
    · -- a bound past the word is no bound
      have := (run (Pump.visit budget now) s before).worker.inflightBytes.isLt
      omega
  · rw [hafter]
    exact Pump.budgetSaturated_run budget now s vs

/-! ## One subscriber -/

/-- An open connection with one frame of 50 bytes queued and room for 60. -/
def backedUp : WorkerEntry :=
  { conn :=
      { conn :=
          { out := [(List.replicate 50 0, 0)], outBytes := 50, highWater := 60, codel := ⟨0, 0⟩ }
        secure := false }
    state := .opened
    session := true }

def backedUpSubs : WalkedSubs where
  subs := (∅ : LocalSubs).hset ("app", "room") ((∅ : Hash Text (Nat × Nat)).hset ['a'] (0, 7))
  walk := fun _ => [(['a'], (0, 7))]
  walks := by
    intro key subs hget
    rw [Hash.hget_hset] at hget
    split at hget
    · obtain rfl := Option.some.inj hget
      decide
    · exact absurd hget (by simp)

/-- Twenty bytes for that connection. -/
def shortNews : Broadcast :=
  { key := ("app", "room"), frames := [(7, List.replicate 20 1)], except := none }

def backedUpPump (inflight : BitVec 64) : Pump :=
  { worker := { conns := (∅ : Hash Nat WorkerEntry).hset 0 backedUp, inflightBytes := inflight }
    touched := []
    budgetSaturated := some false }

theorem backedUp_settled (inflight : BitVec 64) :
    ∀ key e, (backedUpPump inflight).worker.conns.hget key = some e →
      e.conn.conn.outBytes = totalBytes e.conn.conn.out ∧ e.conn.conn.inflightDelta = 0 := by
  intro key e hget
  rw [backedUpPump, Hash.hget_hset] at hget
  split at hget
  · obtain rfl := Option.some.inj hget
    decide
  · exact absurd hget (by simp)

/-- With the 50 bytes on the total, the eviction takes them off again. -/
theorem broadcast_drain_evicts :
    (run (Pump.visit 100 1) (backedUpPump 50) (backedUpSubs.visits 0 [shortNews])
      ).worker.inflightBytes.toNat ≤ max 50 (100 - 1 + 20) :=
  (broadcast_drain (by decide) backedUpSubs 1 [shortNews] (backedUpPump 50)).2.2.2.2.2.1 20
    (by decide) (backedUp_settled 50) (by decide +kernel) _ [] (List.append_nil _).symm

/-- A total of nothing does not cover them: the eviction takes it below zero, past every
bound. -/
theorem broadcast_drain_wraps :
    (∀ key e, (backedUpPump 0).worker.conns.hget key = some e →
      e.conn.conn.outBytes = totalBytes e.conn.conn.out ∧ e.conn.conn.inflightDelta = 0) ∧
    (∀ f ∈ shortNews.frames, f.2.length ≤ 20) ∧
    ((backedUpPump 0).drainBroadcastInbox backedUpSubs 100 1 [shortNews]
      ).worker.inflightBytes.toNat = 2 ^ 64 - 30 ∧
    ¬ ((backedUpPump 0).drainBroadcastInbox backedUpSubs 100 1 [shortNews]
      ).worker.inflightBytes.toNat ≤
        max (backedUpPump 0).worker.inflightBytes.toNat (100 - 1 + 20) :=
  ⟨backedUp_settled 0, by decide, by decide +kernel, by decide +kernel⟩

end Pylon.Transport
