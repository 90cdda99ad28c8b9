import Pylon.Lib.Edge
import Pylon.Redis.Scripts

/-!
# Presence edges are awarded once

Three scripts compete to announce that a user left a channel: the leave that
takes the refcount to zero, the reap that does, and the vacate that drains
the whole roster. They run in any order and with arbitrary tokens and users,
so stray leaves push counters down. Every stored counter stays at least one
(`Counted`), so each user's edges alternate.
-/

namespace Pylon.Redis

open Pylon.Lib

variable {User : Type} [DecidableEq User]

/-- A step on one channel's keys. `others` stands for everything else that
writes them (membership scripts, the sweeper's `HDEL`, reconcile ticks): it
sets the membership hash and the index entry to anything. -/
inductive PresenceAct (User : Type)
  | join (user : User) (userInfo token : Text)
  | leave (user : User) (token : Text)
  | reap (token : Text)
  | vacate
  | others (m : Membership)

/-- Run one step's script. -/
def presenceStep (cap : Int) (k : ChannelKeys User) : PresenceAct User → ChannelKeys User
  | .join user userInfo token => { k with pres := (presenceJoin k.pres user userInfo token cap).1 }
  | .leave user token => { k with pres := (presenceLeave k.pres user token).1 }
  | .reap token => { k with pres := (reapMember k.pres token).1 }
  | .vacate => (vacate k).1
  | .others m => { k with toMembership := m }

/-- The edge a step's reply awards to `u`: `JOIN` returning 1, `LEAVE`
returning 0, a won `REAP`, a place in a won `VACATE`'s roster. -/
def presenceAward (cap : Int) (u : User) (k : ChannelKeys User) :
    PresenceAct User → Option Edge
  | .join user userInfo token =>
    if user = u ∧ (presenceJoin k.pres user userInfo token cap).2 = 1 then some .up else none
  | .leave user token =>
    if user = u ∧ (presenceLeave k.pres user token).2 = 0 then some .down else none
  | .reap token =>
    let r := (reapMember k.pres token).2
    if r.user = some u ∧ r.won = true then some .down else none
  | .vacate =>
    let r := (vacate k).2
    if r.1 = true ∧ u ∈ r.2 then some .down else none
  | .others _ => none

/-- Every stored refcount is positive and the roster is within the cap. -/
structure Counted (cap : Nat) (k : ChannelKeys User) : Prop where
  pos : ∀ u n, k.pres.presusers.hget u = some n → 1 ≤ n
  le : k.pres.presusers.hlen ≤ cap

/-- `u` is on the roster. -/
def Present (u : User) (k : ChannelKeys User) : Prop := u ∈ k.pres.presusers.hkeys

variable {k : ChannelKeys User} {cap : Nat}

theorem Counted.hget_getD (hk : Counted cap k) (u : User) :
    (¬ Present u k ∧ (k.pres.presusers.hget u).getD 0 = 0) ∨
      (Present u k ∧ 1 ≤ (k.pres.presusers.hget u).getD 0) := by
  unfold Present
  rw [Hash.mem_hkeys]
  cases hu : k.pres.presusers.hget u with
  | none => left; simp
  | some n => right; simpa using hk.pos u n hu

/-! ## One step -/

/-- Adding one to the counter of a user the cap lets in is an `up` edge exactly
when it becomes one. -/
theorem awards_increment {k' : ChannelKeys User} (hk : Counted cap k) {user : User} {won : Prop}
    [Decidable won] (hroom : ¬ k.pres.Refuses user cap)
    (husers : k'.pres.presusers =
      k.pres.presusers.hset user ((k.pres.presusers.hget user).getD 0 + 1))
    (hwon : won ↔ (k.pres.presusers.hget user).getD 0 + 1 = 1) (u : User) :
    Counted cap k' ∧ Awards (Present u) k k' (if user = u ∧ won then some .up else none) := by
  have hlevel := hk.hget_getD user
  refine ⟨⟨?_, ?_⟩, ?_⟩
  · intro v n hv
    rw [husers, Hash.hget_hset] at hv
    split at hv
    · obtain rfl : _ = n := by simpa using hv
      omega
    · exact hk.pos v n hv
  · rw [Hash.hlen, husers, Hash.hkeys_hset]
    by_cases hmem : user ∈ k.pres.presusers.hkeys
    · rw [Finset.insert_eq_of_mem hmem]
      exact hk.le
    · -- a new user was let in, so the roster was below the cap
      have hlt : k.pres.presusers.hlen < cap := by
        by_contra hge
        have hno : k.pres.presusers.hexists user = false := by
          rw [← Bool.not_eq_true, Hash.hexists_iff, ← Hash.mem_hkeys]
          exact hmem
        exact hroom ⟨by omega, hno, by omega⟩
      rw [Finset.card_insert_of_notMem hmem]
      exact hlt
  · by_cases hu : user = u
    · subst hu
      have hin : Present user k' := by simp [Present, husers]
      rcases hlevel with ⟨hno, h0⟩ | ⟨hyes, hpos⟩
      · rw [if_pos ⟨rfl, by rw [hwon]; omega⟩]
        exact ⟨hno, hin⟩
      · rw [if_neg (by rw [hwon]; omega)]
        exact iff_of_true hin hyes
    · rw [if_neg (fun h => hu h.1)]
      simp [Awards, Present, husers, Ne.symm hu]

/-- Taking one from `user`'s counter and dropping it at zero, as a leave and a
reap both do, is a `down` edge exactly when the counter was one. -/
theorem awards_decrement {k' : ChannelKeys User} (hk : Counted cap k) {user : User} {won : Prop}
    [Decidable won]
    (husers : k'.pres.presusers =
      if (k.pres.presusers.hget user).getD 0 ≤ 1 then k.pres.presusers.hdel user
      else k.pres.presusers.hset user ((k.pres.presusers.hget user).getD 0 - 1))
    (hwon : won ↔ (k.pres.presusers.hget user).getD 0 = 1) (u : User) :
    Counted cap k' ∧
      Awards (Present u) k k' (if user = u ∧ won then some .down else none) := by
  have hlevel := hk.hget_getD user
  by_cases hle : (k.pres.presusers.hget user).getD 0 ≤ 1
  · rw [if_pos hle] at husers
    refine ⟨⟨?_, ?_⟩, ?_⟩
    · intro v n hv
      rw [husers, Hash.hget_hdel] at hv
      split at hv
      · exact absurd hv (by simp)
      · exact hk.pos v n hv
    · have hcard := @Finset.card_erase_le _ k.pres.presusers.hkeys user _
      rw [Hash.hlen, husers, Hash.hkeys_hdel]
      exact hcard.trans hk.le
    · by_cases hu : user = u
      · subst hu
        have hgone : ¬ Present user k' := by simp [Present, husers]
        rcases hlevel with ⟨hno, h0⟩ | ⟨hyes, hpos⟩
        · rw [if_neg (by rw [hwon]; omega)]
          exact iff_of_false hgone hno
        · rw [if_pos ⟨rfl, by rw [hwon]; omega⟩]
          exact ⟨hyes, hgone⟩
      · rw [if_neg (fun h => hu h.1)]
        simp [Awards, Present, husers, Ne.symm hu]
  · rw [if_neg hle] at husers
    have hyes : Present user k := by
      rcases hlevel with ⟨-, h0⟩ | ⟨hyes, -⟩
      · omega
      · exact hyes
    have hsame : k'.pres.presusers.hkeys = k.pres.presusers.hkeys := by
      rw [husers, Hash.hkeys_hset, Finset.insert_eq_of_mem hyes]
    refine ⟨⟨?_, ?_⟩, ?_⟩
    · intro v n hv
      rw [husers, Hash.hget_hset] at hv
      split at hv
      · obtain rfl : _ = n := by simpa using hv
        omega
      · exact hk.pos v n hv
    · rw [Hash.hlen, hsame]
      exact hk.le
    · rw [if_neg (by rw [hwon]; omega)]
      simp [Awards, Present, hsame]

theorem presenceStep_vacate (cap : Nat) (k : ChannelKeys User) (hk : Counted cap k) (u : User) :
    Counted cap (presenceStep cap k .vacate) ∧
      Awards (Present u) k (presenceStep cap k .vacate) (presenceAward cap u k .vacate) := by
  simp only [presenceStep, presenceAward]
  rcases vacate_cases k with ⟨-, -, hv⟩ | ⟨-, hv⟩
  · -- the drained users are exactly those who stop being present
    rw [hv]
    have hgone : ¬ Present u (ChannelKeys.empty : ChannelKeys User) := by
      simp [Present, ChannelKeys.empty, Presence.empty]
    refine ⟨⟨?_, Nat.zero_le _⟩, ?_⟩
    · intro v n hv
      exact absurd hv (by simp [ChannelKeys.empty, Presence.empty])
    · by_cases hu : u ∈ k.pres.presusers.hkeys
      · rw [if_pos ⟨rfl, hu⟩]
        exact ⟨hu, hgone⟩
      · rw [if_neg (fun h => hu h.2)]
        exact iff_of_false hgone hu
  · rw [hv]
    exact ⟨hk, by simp [Awards]⟩

/-- Every script keeps the invariant and awards exactly `u`'s changes of level. -/
theorem presenceStep_awards (cap : Nat) (u : User) (k : ChannelKeys User)
    (a : PresenceAct User) (hk : Counted cap k) :
    Counted cap (presenceStep cap k a) ∧
      Awards (Present u) k (presenceStep cap k a) (presenceAward cap u k a) := by
  cases a with
  | join user =>
    simp only [presenceStep, presenceAward]
    by_cases href : k.pres.Refuses user cap
    · -- refused: nothing is written and `-1` is no edge
      rw [presenceJoin_refused href]
      exact ⟨hk, by simp [Awards]⟩
    · rw [presenceJoin_accepted href]
      exact awards_increment hk href rfl Iff.rfl u
  | leave user token =>
    refine awards_decrement hk (presenceLeave_presusers k.pres user token) ?_ u
    rw [presenceLeave_reply]
    omega
  | reap token =>
    simp only [presenceStep, presenceAward]
    cases hmem : k.pres.presmembers.hget token with
    | none =>
      rw [reapMember_absent hmem]
      exact ⟨hk, by simp [Awards]⟩
    | some user =>
      obtain ⟨huser, hwon⟩ := reapMember_reply hmem
      simp only [huser, Option.some_inj]
      rw [reapMember_eq_leave hmem]
      exact awards_decrement hk (presenceLeave_presusers k.pres user token) hwon u
  | vacate => exact presenceStep_vacate cap k hk u
  | others => exact ⟨⟨hk.pos, hk.le⟩, Iff.rfl⟩

/-! ## Whole runs -/

/-- The edges a run from the empty channel awards to `u`. -/
def presenceEdges (cap : Nat) (u : User) (as : List (PresenceAct User)) : List Edge :=
  edges (presenceStep cap) (presenceAward cap u) .empty as

theorem counted_empty (cap : Nat) : Counted cap (ChannelKeys.empty : ChannelKeys User) :=
  ⟨fun _ _ h => absurd h (by simp [ChannelKeys.empty, Presence.empty]), Nat.zero_le _⟩

/-- Over every interleaving of the presence scripts on one channel: each
user's edges alternate starting with added, the users whose last edge is
added are the fields of `presusers`, and there are never more than `cap`. -/
theorem presence_edges_exactly_once (cap : Nat) (as : List (PresenceAct User)) :
    (∀ u, Alternates (presenceEdges cap u as)) ∧
      (∀ u, High (presenceEdges cap u as) ↔
        u ∈ (run (presenceStep cap) .empty as).pres.presusers.hkeys) ∧
      (run (presenceStep cap) (.empty : ChannelKeys User) as).pres.presusers.hkeys.card ≤ cap := by
  have hall : Along (presenceStep cap) (fun _ _ => True) (.empty : ChannelKeys User) as :=
    Along.of_forall (fun _ _ => trivial) _ _
  have hedges : ∀ u, Alternates (presenceEdges cap u as) ∧
      (High (presenceEdges cap u as) ↔ Present u (run (presenceStep cap) .empty as)) := by
    intro u
    refine alternates_edges (fun k a hk _ => presenceStep_awards cap u k a hk)
      (counted_empty cap) ?_ hall
    simp [Present, ChannelKeys.empty, Presence.empty]
  refine ⟨fun u => (hedges u).1, fun u => (hedges u).2, ?_⟩
  rcases Finset.eq_empty_or_nonempty
    (run (presenceStep cap) (.empty : ChannelKeys User) as).pres.presusers.hkeys with h | ⟨u, -⟩
  · rw [h]
    exact Nat.zero_le _
  · have hstep := fun k a (hk : Counted cap k) (_ : True) => (presenceStep_awards cap u k a hk).1
    exact (hall.invariant hstep (counted_empty cap)).le

end Pylon.Redis
