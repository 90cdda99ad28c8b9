import Pylon.Redis.PresenceEdges
import Pylon.Redis.PresenceRoster

/-!
# The presence refcount law

The law ties the redundant tables together: a user's counter is the number
of tokens mapped to the user, users with a counter are those with a shown
`user_info`, and what is shown was presented by the earliest-joined token
still there.

A reap pairs its decrement with a removal; a leave decrements whether or not
its token was still in `presmembers`. So the law holds over every run whose
leaves find their own token (or whose user is gone altogether), and a leave
that follows the reap of its own token breaks it.
-/

namespace Pylon.Redis

open Pylon.Lib

variable {User : Type} [DecidableEq User]

/-- One channel's keys with the history the law speaks of: each token's last
accepted join, in join order. -/
structure Recorded (User : Type) where
  keys : ChannelKeys User
  joined : Roster Text User Text

/-- Nothing written, nobody joined. -/
def Recorded.empty : Recorded User := ⟨.empty, .empty⟩

/-- A script step, recorded. A refused join presented nothing. -/
def recordedStep (cap : Int) (s : Recorded User) (a : PresenceAct User) : Recorded User where
  keys := presenceStep cap s.keys a
  joined :=
    match a with
    | .join user userInfo token =>
      if s.keys.pres.Refuses user cap then s.joined else s.joined.join token user userInfo
    | _ => s.joined

/-- The tokens `presmembers` maps to `u`. -/
def Presence.tokensOf (t : Presence User) (u : User) : Finset Text :=
  t.presmembers.hkeys.filter fun token => t.presmembers.hget token = some u

/-- The refcount law. -/
structure RefcountLaw (s : Recorded User) : Prop where
  users : ∀ u, (s.keys.pres.presusers.hget u).getD 0 = (s.keys.pres.tokensOf u).card
  fields : s.keys.pres.presusers.hkeys = s.keys.pres.presinfo.hkeys
  info : ∀ u, s.keys.pres.presinfo.hget u =
    (s.joined.seats.find? fun seat => s.keys.pres.presmembers.hget seat.conn = some u).map
      Seat.info

/-- A leave finds its own token under its own user, or finds neither the token
nor the user; a join brings a token that is not seated and texts without
newlines. -/
def Paired (s : Recorded User) : PresenceAct User → Prop
  | .join _ userInfo token =>
    s.keys.pres.presmembers.hget token = none ∧ '\n' ∉ token ∧ '\n' ∉ userInfo
  | .leave user token =>
    s.keys.pres.presmembers.hget token = some user ∨
      s.keys.pres.presmembers.hget token = none ∧ s.keys.pres.presusers.hget user = none
  | _ => True

instance (s : Recorded User) : ∀ a, Decidable (Paired s a)
  | .join _ _ _ => inferInstanceAs (Decidable (_ ∧ _ ∧ _))
  | .leave _ _ => inferInstanceAs (Decidable (_ ∨ _ ∧ _))
  | .reap _ | .vacate | .others _ => isTrue trivial

/-! ## The invariant -/

/-- The joined seats whose token is still in `presmembers`. -/
def Recorded.live (s : Recorded User) : Roster Text User Text :=
  s.joined.restrict s.keys.pres.presmembers.hexists

/-- The tables hold exactly the live seats. -/
def Held (s : Recorded User) : Prop := Represents s.keys.pres s.live

omit [DecidableEq User] in
theorem live_hdel (members : Hash Text User) (joined : Roster Text User Text) (token : Text) :
    joined.restrict (members.hdel token).hexists =
      (joined.restrict members.hexists).leave token := by
  refine Roster.restrict_leave ?_ ?_
  · simp [Hash.hexists]
  · intro token' hne
    simp [Hash.hexists, Hash.hget_hdel, hne]

/-- A join seats its token, and a leave or a reap takes it off its seat. -/
theorem held_step (cap : Int) (s : Recorded User) (a : PresenceAct User) (hs : Held s)
    (ha : Paired s a) : Held (recordedStep cap s a) := by
  unfold Held Recorded.live at hs ⊢
  cases a with
  | join user userInfo token =>
    obtain ⟨hnew, htoken, hinfo⟩ := ha
    simp only [recordedStep, presenceStep]
    by_cases href : s.keys.pres.Refuses user cap
    · rw [if_pos href, presenceJoin_refused href]
      exact hs
    · rw [if_neg href]
      have hjoin := hs.join href hnew htoken hinfo
      have hlive : (s.joined.join token user userInfo).restrict
          (presenceJoin s.keys.pres user userInfo token cap).1.presmembers.hexists =
          (s.joined.restrict s.keys.pres.presmembers.hexists).join token user userInfo := by
        rw [presenceJoin_accepted href]
        refine Roster.restrict_join ?_ ?_ user userInfo
        · simp [Hash.hexists]
        · intro token' hne
          simp [Hash.hexists, Hash.hget_hset, hne]
      rw [hlive]
      exact hjoin
  | leave _ token =>
    simp only [recordedStep, presenceStep]
    rw [presenceLeave_presmembers, live_hdel]
    rcases ha with hmem | ⟨hmem, huser⟩
    · exact hs.leave hmem
    · rw [Roster.leave_of_userOf_none (hs.members token ▸ hmem)]
      exact hs.leave_gone hmem huser
  | reap token =>
    simp only [recordedStep, presenceStep]
    have hmembers : (reapMember s.keys.pres token).1.presmembers =
        s.keys.pres.presmembers.hdel token := by
      cases hmem : s.keys.pres.presmembers.hget token with
      | none => rw [reapMember_absent hmem, Hash.hdel_of_hget_none hmem]
      | some => rw [reapMember_eq_leave hmem, presenceLeave_presmembers]
    rw [hmembers, live_hdel]
    exact hs.reap token
  | vacate =>
    simp only [recordedStep, presenceStep]
    rcases vacate_cases s.keys with ⟨-, -, hv⟩ | ⟨-, hv⟩
    · -- the tables are gone, so no joined seat is live
      rw [hv]
      have hnone : s.joined.restrict
          (ChannelKeys.empty : ChannelKeys User).pres.presmembers.hexists = .empty := by
        ext1
        simp [Roster.restrict, Roster.empty, ChannelKeys.empty, Presence.empty, Hash.hexists]
      rw [hnone]
      exact Represents.empty
    · rw [hv]
      exact hs
  | others => exact hs

theorem tokensOf_card {t : Presence User} {r : Roster Text User Text} (h : Represents t r)
    (u : User) : (t.tokensOf u).card = (r.of u).length := by
  have hnodup : ((r.of u).map Seat.conn).Nodup :=
    r.nodup.sublist (List.filter_sublist.map Seat.conn)
  have hset : t.tokensOf u = ((r.of u).map Seat.conn).toFinset := by
    ext token
    rw [Presence.tokensOf, Finset.mem_filter, Hash.mem_hkeys, h.members, List.mem_toFinset,
      List.mem_map]
    constructor
    · rintro ⟨-, huser⟩
      obtain ⟨s, hs, hconn, hu⟩ := Roster.userOf_eq_some.mp huser
      exact ⟨s, Roster.mem_of.mpr ⟨hs, hu⟩, hconn⟩
    · rintro ⟨s, hs, rfl⟩
      have huser := Roster.userOf_of_mem_of hs
      exact ⟨by simp [huser], huser⟩
  rw [hset, List.toFinset_card_of_nodup hnodup, List.length_map]

theorem Held.refcountLaw {s : Recorded User} (h : Held s) : RefcountLaw s := by
  have hrep : Represents s.keys.pres s.live := h
  refine ⟨?_, ?_, ?_⟩
  · intro u
    rw [(hrep.rows u).conns, tokensOf_card hrep]
  · ext u
    rw [Hash.mem_hkeys, Hash.mem_hkeys, (hrep.rows u).users, (hrep.rows u).info]
    cases s.live.of u <;> simp
  · intro u
    rw [(hrep.rows u).info]
    rw [← List.head?_filter]
    unfold Recorded.live Roster.of Roster.restrict
    rw [List.filter_filter]
    congr 2
    refine List.filter_congr fun seat hseat => ?_
    -- a joined seat whose token is still held is held by the user who joined
    cases hmem : s.keys.pres.presmembers.hget seat.conn with
    | none => simp [Hash.hexists, hmem]
    | some =>
      have hin : seat ∈ s.live.seats :=
        List.mem_filter.mpr ⟨hseat, by simp [Hash.hexists, hmem]⟩
      have huser : s.live.userOf seat.conn = some seat.user :=
        Roster.userOf_eq_some.mpr ⟨seat, hin, rfl, rfl⟩
      rw [← hrep.members, hmem, Option.some_inj] at huser
      simp [Hash.hexists, hmem, huser]

theorem held_empty : Held (Recorded.empty : Recorded User) := Represents.empty

/-- The law holds after every run whose leaves are paired with a removal. -/
theorem refcount_law_of_paired (cap : Int) (as : List (PresenceAct User))
    (has : Along (recordedStep cap) Paired .empty as) :
    RefcountLaw (run (recordedStep cap) .empty as) :=
  (has.invariant (held_step cap) held_empty).refcountLaw

/-- Two connections of one user, one reaped, the other leaves. -/
theorem refcount_law_of_paired_reap_leave :
    RefcountLaw (run (recordedStep (-1)) (.empty : Recorded Nat)
      [.join 7 ['i'] ['a'], .join 7 ['j'] ['b'], .reap ['a'], .leave 7 ['b']]) :=
  refcount_law_of_paired (-1) _ (by decide)

/-- A leave of the token just reaped takes the counter of the user's other
connection: the user is off the roster while its token is still a member. -/
theorem refcount_law_fails_reap_then_leave :
    ¬ RefcountLaw (run (recordedStep (-1)) (.empty : Recorded Nat)
      [.join 7 ['i'] ['a'], .join 7 ['j'] ['b'], .reap ['a'], .leave 7 ['a']]) := by
  intro h
  exact absurd (h.users 7) (by decide)

end Pylon.Redis
