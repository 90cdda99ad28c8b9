import Pylon.Lib.Trace
import Pylon.Redis.Scripts

/-!
# One channel under all its writers

Everything that writes a channel's keys, as one machine whose steps are single
Redis commands or scripts:

* **nodes** join and leave (membership and presence scripts);
* **reconcile ticks** write a snapshot taken earlier: one `HSET` of the
  snapshot's tokens, later one `SADD` of the channel (a pipeline is not a
  transaction, so other commands land in between);
* **sweeper passes** read all stamps, reap the presence members of the stale
  tokens one by one, delete the stale tokens, and vacate the channel if no
  fresh token was read;
* **the key's TTL** may lapse at any moment.

Any number of ticks and passes are under way at once. The staleness decision
and the writes it leads to are separate round trips; `sweep_deletes_only_stale`
says what has to stay out of the gap.
-/

namespace Pylon.Redis

open Pylon.Lib

variable {User : Type} [DecidableEq User]

/-- The sweeper's test: in the past, or unparseable. -/
def expired (now : Nat) : Stamp → Bool
  | some expireAt => expireAt < now
  | none => true

/-- The tokens of an `HGETALL` reply the sweeper takes for stale. -/
def staleOf (now : Nat) (members : List (Text × Stamp)) : List Text :=
  (members.filter fun m => expired now m.2).map Prod.fst

/-- A sweeper's visit of the channel after its `HGETALL`. -/
structure Pass where
  now : Nat
  stale : List Text
  hadFreshMembers : Bool
  /-- presence members still to reap -/
  toReap : List Text
  /-- whether the `HDEL` has run -/
  deleted : Bool

/-- A reconcile tick after its snapshot of the node's tokens in the channel. -/
structure Tick where
  tokens : List Text
  stamped : Bool

structure ChannelSys (User : Type) where
  keys : ChannelKeys User
  passes : Hash Nat Pass
  ticks : Hash Nat Tick

def ChannelSys.empty : ChannelSys User := ⟨.empty, ∅, ∅⟩

inductive ChannelAct (User : Type)
  | join (token : Text) (expireAt : Nat)
  | unsubscribe (token : Text)
  | presenceJoin (user : User) (userInfo token : Text) (cap : Int)
  | presenceLeave (user : User) (token : Text)
  | snapshot (tick : Nat) (tokens : List Text)
  | restamp (tick expireAt : Nat)
  | reindex (tick : Nat)
  | read (pass now : Nat) (members : List (Text × Stamp))
  | reap (pass : Nat)
  | delete (pass : Nat)
  | vacate (pass : Nat)
  | lapse

/-- One command or script. A step whose pass or tick is not at that point of
its program does nothing. -/
def channelStep (presence : Bool) (s : ChannelSys User) : ChannelAct User → ChannelSys User
  | .join token expireAt =>
    { s with keys.toMembership := (membershipJoin s.keys.toMembership token expireAt).1 }
  | .unsubscribe token =>
    { s with keys.toMembership := (unsubscribe s.keys.toMembership token).1 }
  | .presenceJoin user userInfo token cap =>
    { s with keys.pres := (Redis.presenceJoin s.keys.pres user userInfo token cap).1 }
  | .presenceLeave user token =>
    { s with keys.pres := (Redis.presenceLeave s.keys.pres user token).1 }
  | .snapshot tick tokens => { s with ticks := s.ticks.hset tick ⟨tokens, false⟩ }
  | .restamp tick expireAt =>
    match s.ticks.hget tick with
    | some ⟨tokens, false⟩ =>
      { s with
        keys.stamps := s.keys.stamps.hsetAll tokens (some expireAt)
        ticks := s.ticks.hset tick ⟨tokens, true⟩ }
    | _ => s
  | .reindex tick =>
    match s.ticks.hget tick with
    | some ⟨_, true⟩ => { s with keys.indexed := true, ticks := s.ticks.hdel tick }
    | _ => s
  | .read pass now members =>
    if s.keys.stamps.Enumerates members then
      let stale := staleOf now members
      { s with
        passes := s.passes.hset pass
          { now := now
            stale := stale
            hadFreshMembers := decide (stale.length < members.length)
            toReap := if presence then stale else []
            deleted := false } }
    else s
  | .reap pass =>
    match s.passes.hget pass with
    | some p =>
      match p.toReap with
      | token :: rest =>
        { s with
          keys.pres := (reapMember s.keys.pres token).1
          passes := s.passes.hset pass { p with toReap := rest } }
      | [] => s
    | none => s
  | .delete pass =>
    match s.passes.hget pass with
    | some p =>
      if p.toReap = [] ∧ p.deleted = false then
        { s with
          keys.stamps := s.keys.stamps.hdelAll p.stale
          passes := s.passes.hset pass { p with deleted := true } }
      else s
    | none => s
  | .vacate pass =>
    match s.passes.hget pass with
    | some p =>
      if p.deleted = true then
        { s with
          keys := if p.hadFreshMembers then s.keys else (Redis.vacate s.keys).1
          passes := s.passes.hdel pass }
      else s
    | none => s
  | .lapse => { s with keys.stamps := ∅ }

/-! ## What a pass deletes -/

/-- The tokens a step reaps or deletes, each with its pass's `now`. -/
def swept (s : ChannelSys User) : ChannelAct User → List (Nat × Text)
  | .reap pass =>
    match s.passes.hget pass with
    | some p => p.toReap.head?.toList.map fun token => (p.now, token)
    | none => []
  | .delete pass =>
    match s.passes.hget pass with
    | some p =>
      if p.toReap = [] ∧ p.deleted = false then p.stale.map fun token => (p.now, token) else []
    | none => []
  | _ => []

/-- The stored stamp, if there is one, is before `now`. -/
def Dead (now : Nat) (stamp : Option Stamp) : Prop :=
  ∀ st, stamp = some st → expired now st = true

instance (now : Nat) (stamp : Option Stamp) : Decidable (Dead now stamp) :=
  decidable_of_iff (stamp.all (expired now) = true) (by cases stamp <;> simp [Dead])

/-- The tokens a pass decided to delete and has not deleted yet. -/
def Pass.pending (p : Pass) : List Text := if p.deleted then [] else p.stale

/-- Some pass holds `token` between its decision and its delete. -/
def ChannelSys.InSweep (s : ChannelSys User) (token : Text) : Prop :=
  ∃ id ∈ s.passes.hkeys, (s.passes.hget id).any (fun p => decide (token ∈ p.pending)) = true

instance (s : ChannelSys User) (token : Text) : Decidable (s.InSweep token) :=
  inferInstanceAs (Decidable (∃ id ∈ _, _))

/-- The tokens the next `HSET` of a tick writes. -/
def ChannelSys.toStamp (s : ChannelSys User) (tick : Nat) : List Text :=
  match s.ticks.hget tick with
  | some ⟨tokens, false⟩ => tokens
  | _ => []

/-- No join or re-stamp writes a token while a pass holds it for stale. -/
def Undisturbed (s : ChannelSys User) : ChannelAct User → Prop
  | .join token _ => ¬ s.InSweep token
  | .restamp tick _ => ∀ token ∈ s.toStamp tick, ¬ s.InSweep token
  | _ => True

instance (s : ChannelSys User) : ∀ a, Decidable (Undisturbed s a)
  | .join _ _ => inferInstanceAs (Decidable (¬ _))
  | .restamp _ _ => inferInstanceAs (Decidable (∀ _ ∈ _, ¬ _))
  | .unsubscribe _ | .presenceJoin _ _ _ _ | .presenceLeave _ _ | .snapshot _ _ | .reindex _
  | .read _ _ _ | .reap _ | .delete _ | .vacate _ | .lapse => isTrue trivial

variable {s : ChannelSys User} {stamps : Hash Text Stamp} {p : Pass}

omit [DecidableEq User] in
theorem not_mem_pending {token : Text} (h : ¬ s.InSweep token) {id : Nat}
    (hp : s.passes.hget id = some p) : token ∉ p.pending := by
  intro hmem
  refine h ⟨id, Hash.mem_hkeys_of_hget hp, ?_⟩
  rw [hp]
  simpa using hmem

/-- Every token the pass still has to delete is dead; what it has to reap it
has to delete. -/
def Pass.Aged (p : Pass) (stamps : Hash Text Stamp) : Prop :=
  (∀ token ∈ p.toReap, token ∈ p.pending) ∧ ∀ token ∈ p.pending, Dead p.now (stamps.hget token)

/-- So it is for every pass under way. -/
def Aged (s : ChannelSys User) : Prop :=
  ∀ id p, s.passes.hget id = some p → p.Aged s.keys.stamps

theorem Pass.Aged.of_shrink {stamps' : Hash Text Stamp} (h : p.Aged stamps)
    (hstamps : ∀ token, stamps'.hget token = stamps.hget token ∨ stamps'.hget token = none) :
    p.Aged stamps' := by
  refine ⟨h.1, ?_⟩
  intro token hmem st hst
  rcases hstamps token with heq | hnone
  · exact h.2 token hmem st (heq ▸ hst)
  · rw [hnone] at hst
    exact absurd hst (by simp)

omit [DecidableEq User] in
/-- A step that only removes stamps and sets at most one pass. -/
theorem Aged.of_shrink {s' : ChannelSys User} (h : Aged s)
    (hstamps : ∀ token, s'.keys.stamps.hget token = s.keys.stamps.hget token ∨
      s'.keys.stamps.hget token = none)
    (hpasses : ∀ id p, s'.passes.hget id = some p → s.passes.hget id = some p ∨
      p.Aged s'.keys.stamps) :
    Aged s' := by
  intro id p hp
  rcases hpasses id p hp with hold | hnew
  · exact (h id p hold).of_shrink hstamps
  · exact hnew

omit [DecidableEq User] in
/-- Writes that touch no pending token age nothing back. -/
theorem Aged.of_untouched {s' : ChannelSys User} (h : Aged s) (hpasses : s'.passes = s.passes)
    (hstamps : ∀ token, ¬ s.InSweep token ∨ s'.keys.stamps.hget token = s.keys.stamps.hget token) :
    Aged s' := by
  intro id p hp
  rw [hpasses] at hp
  obtain ⟨hreap, hdead⟩ := h id p hp
  refine ⟨hreap, ?_⟩
  intro token hmem
  rcases hstamps token with hout | heq
  · exact absurd hmem (not_mem_pending hout hp)
  · rw [heq]
    exact hdead token hmem

theorem dead_of_staleOf {members : List (Text × Stamp)} (henum : stamps.Enumerates members)
    {now : Nat} {token : Text} (hmem : token ∈ staleOf now members) :
    Dead now (stamps.hget token) := by
  obtain ⟨m, hm, rfl⟩ := List.mem_map.mp hmem
  obtain ⟨hin, hexpired⟩ := List.mem_filter.mp hm
  intro st hst
  rw [henum.2.2 m hin, Option.some_inj] at hst
  exact hst ▸ hexpired

/-- A pass just set, or an old one. -/
theorem hget_hset_pass {passes : Hash Nat Pass} {pass id : Nat} {p' : Pass}
    (hp : (passes.hset pass p').hget id = some p) (hnew : p'.Aged stamps) :
    passes.hget id = some p ∨ p.Aged stamps := by
  rw [Hash.hget_hset] at hp
  split at hp
  · exact .inr (Option.some_inj.mp hp ▸ hnew)
  · exact .inl hp

variable (presence : Bool)

/-- A tick renews only tokens that no pass is about to sweep. -/
theorem Aged.restamp {tick expireAt : Nat} (hs : Aged s)
    (ha : Undisturbed s (.restamp tick expireAt)) :
    Aged (channelStep presence s (.restamp tick expireAt)) := by
  simp only [channelStep, Undisturbed, ChannelSys.toStamp] at ha ⊢
  split at ha
  next tokens heq =>
    refine hs.of_untouched rfl fun token => ?_
    rw [Hash.hget_hsetAll]
    by_cases hin : token ∈ tokens
    · exact .inl (ha token hin)
    · rw [if_neg hin]
      exact .inr rfl
  next => exact hs

theorem Aged.read (hs : Aged s) (pass now : Nat) (members : List (Text × Stamp)) :
    Aged (channelStep presence s (.read pass now members)) := by
  simp only [channelStep]
  split
  next henum =>
    -- the new pass holds what it has just seen expired
    refine hs.of_shrink (fun _ => .inl rfl) fun id p hp => hget_hset_pass hp ⟨?_, ?_⟩
    · intro token hmem
      cases presence with
      | true => exact hmem
      | false => exact absurd hmem (by simp)
    · exact fun token hmem => dead_of_staleOf henum hmem
  next => exact hs

theorem Aged.reap (hs : Aged s) (pass : Nat) :
    Aged (channelStep presence s (.reap pass)) := by
  simp only [channelStep]
  split
  next p hp =>
    split
    next token rest hreap =>
      obtain ⟨hsub, hdead⟩ := hs pass p hp
      refine hs.of_shrink (fun _ => .inl rfl) fun id p' hp' => hget_hset_pass hp' ⟨?_, hdead⟩
      intro token' hmem
      refine hsub token' ?_
      rw [hreap]
      exact List.mem_cons_of_mem token hmem
    next => exact hs
  next => exact hs

theorem Aged.delete (hs : Aged s) (pass : Nat) :
    Aged (channelStep presence s (.delete pass)) := by
  simp only [channelStep]
  split
  next p hp =>
    split
    next hready =>
      refine hs.of_shrink (fun token => ?_) fun id p' hp' => hget_hset_pass hp' ⟨?_, ?_⟩
      · dsimp only
        rw [Hash.hget_hdelAll]
        split
        · exact .inr rfl
        · exact .inl rfl
      · rw [hready.1]
        exact fun token hmem => absurd hmem (by simp)
      · exact fun token hmem => absurd hmem (by simp [Pass.pending])
    next => exact hs
  next => exact hs

/-- Only an empty hash goes, and the pass with it. -/
theorem Aged.vacate (hs : Aged s) (pass : Nat) :
    Aged (channelStep presence s (.vacate pass)) := by
  simp only [channelStep]
  split
  next p hp =>
    split
    next =>
      refine hs.of_shrink (fun token => ?_) fun id p' hp' => .inl ?_
      · dsimp only
        split
        · exact .inl rfl
        · rcases vacate_cases s.keys with ⟨-, -, hv⟩ | ⟨-, hv⟩
          · right
            rw [hv]
            exact Hash.hget_empty token
          · left
            rw [hv]
      · dsimp only at hp'
        rw [Hash.hget_hdel] at hp'
        split at hp'
        · exact absurd hp' (by simp)
        · exact hp'
    next => exact hs
  next => exact hs

/-- A token that a pass took for dead is not stamped again. -/
theorem aged_step (s : ChannelSys User) (a : ChannelAct User) (hs : Aged s)
    (ha : Undisturbed s a) : Aged (channelStep presence s a) := by
  cases a with
  | join token =>
    refine hs.of_untouched rfl fun token' => ?_
    by_cases heq : token' = token
    · exact .inl (heq ▸ ha)
    · exact .inr (Hash.hget_hset_ne _ _ heq)
  | unsubscribe token =>
    exact hs.of_shrink (unsubscribe_shrinks s.keys.toMembership token) fun _ _ h => .inl h
  | presenceJoin | presenceLeave | snapshot => exact hs
  | restamp => exact hs.restamp presence ha

  | reindex =>
    simp only [channelStep]
    split <;> exact hs
  | read pass now members => exact hs.read presence pass now members

  | reap pass => exact hs.reap presence pass

  | delete pass => exact hs.delete presence pass

  | vacate pass => exact hs.vacate presence pass

  | lapse => exact hs.of_shrink (fun token => .inr (Hash.hget_empty token)) fun _ _ h => .inl h

omit [DecidableEq User] in
/-- A pass takes out dead members only. -/
theorem Aged.swept_dead (hs : Aged s) (a : ChannelAct User) :
    ∀ d ∈ swept s a, Dead d.1 (s.keys.stamps.hget d.2) := by
  intro d hd
  cases a with
  | reap pass =>
    simp only [swept] at hd
    split at hd
    next p hp =>
      obtain ⟨token, hmem, rfl⟩ := List.mem_map.mp hd
      obtain ⟨hsub, hdead⟩ := hs pass p hp
      exact hdead token (hsub token (List.mem_of_mem_head? (by simpa using hmem)))
    next => exact absurd hd (by simp)
  | delete pass =>
    simp only [swept] at hd
    split at hd
    next p hp =>
      split at hd
      next hready =>
        obtain ⟨token, hmem, rfl⟩ := List.mem_map.mp hd
        refine (hs pass p hp).2 token ?_
        simpa [Pass.pending, hready.2] using hmem
      next => exact absurd hd (by simp)
    next => exact absurd hd (by simp)
  | _ => exact absurd hd (by simp [swept])

/-- In every run from a channel no pass is visiting, in which no join or
re-stamp writes a token that some pass holds for stale: whatever a pass reaps
or deletes has, at that moment, no stamp at or after the pass's `now`. -/
theorem sweep_deletes_only_stale (presence : Bool) (s : ChannelSys User)
    (hquiet : s.passes = ∅) (as : List (ChannelAct User))
    (has : Along (channelStep presence) Undisturbed s as) :
    Along (channelStep presence)
      (fun s a => ∀ d ∈ swept s a, Dead d.1 (s.keys.stamps.hget d.2)) s as := by
  have hs : Aged s := by
    intro id p hp
    rw [hquiet] at hp
    exact absurd hp (by simp)
  exact has.of_invariant (fun s a hs ha => ⟨aged_step presence s a hs ha, hs.swept_dead a⟩) hs

/-- A pass over one stale and one fresh token, with a join of a third in the gap. -/
theorem sweep_deletes_only_stale_join :
    Along (channelStep true) (fun s a => ∀ d ∈ swept s a, Dead d.1 (s.keys.stamps.hget d.2))
      (.empty : ChannelSys Nat)
      [.join ['a'] 5, .join ['b'] 50, .read 0 10 [(['a'], some 5), (['b'], some 50)],
        .join ['c'] 60, .reap 0, .delete 0, .vacate 0] :=
  sweep_deletes_only_stale true .empty rfl _ (by decide)

/-- A heartbeat's re-stamp lands between the pass's read and its delete: the
token deleted is good until 60, long after the pass's 10. -/
theorem sweep_deletes_restamped :
    ¬ Along (channelStep false) (fun s a => ∀ d ∈ swept s a, Dead d.1 (s.keys.stamps.hget d.2))
      (.empty : ChannelSys Nat)
      [.join ['a'] 5, .snapshot 0 [['a']], .read 0 10 [(['a'], some 5)], .restamp 0 60,
        .delete 0] := by
  decide

end Pylon.Redis
