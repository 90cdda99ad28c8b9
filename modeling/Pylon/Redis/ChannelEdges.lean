import Pylon.Lib.Edge
import Pylon.Redis.Sweeper

/-!
# Channel edges

`channel_occupied` is decided from the length of the membership hash,
`channel_vacated` from the removal of the index entry. The two change
together in every script, but the sweeper's delete empties the hash and
leaves the entry, and a reconcile tick fills the hash and adds the entry in
two commands. So the edges alternate as long as no join finds the channel indexed
and without another token, and no reconcile write finds it not indexed (`Ordered`).
-/

namespace Pylon.Redis

open Pylon.Lib

variable {User : Type} [DecidableEq User]

/-- The edge a step's reply awards: a join returning 1, a winning unsubscribe,
a winning vacate. -/
def channelAward (s : ChannelSys User) : ChannelAct User → Option Edge
  | .join token expireAt =>
    if (membershipJoin s.keys.toMembership token expireAt).2 = 1 then some .up else none
  | .unsubscribe token =>
    if (unsubscribe s.keys.toMembership token).2.2 = true then some .down else none
  | .vacate pass =>
    match s.passes.hget pass with
    | some p =>
      if p.deleted = true ∧ p.hadFreshMembers = false ∧ (vacate s.keys).2.1 = true then some .down
      else none
    | none => none
  | _ => none

/-- A join that finds the channel indexed finds another token too; a reconcile
write finds the channel indexed. -/
def Ordered (s : ChannelSys User) : ChannelAct User → Prop
  | .join token _ => s.keys.indexed = true → (s.keys.stamps.hdel token).hlen ≠ 0
  | .restamp tick _ => s.toStamp tick ≠ [] → s.keys.indexed = true
  | .reindex tick => (s.ticks.hget tick).any (·.stamped) = true → s.keys.indexed = true
  | _ => True

instance (s : ChannelSys User) : ∀ a, Decidable (Ordered s a)
  | .join _ _ => inferInstanceAs (Decidable (_ → _))
  | .restamp _ _ => inferInstanceAs (Decidable (_ → _))
  | .reindex _ => inferInstanceAs (Decidable (_ → _))
  | .unsubscribe _ | .presenceJoin _ _ _ _ | .presenceLeave _ _ | .snapshot _ _
  | .read _ _ _ | .reap _ | .delete _ | .vacate _ | .lapse => isTrue trivial

/-- A channel with a token is indexed. -/
def Indexed (s : ChannelSys User) : Prop :=
  ∀ token, s.keys.stamps.hget token ≠ none → s.keys.indexed = true

/-- The level the edges report. -/
def Occupied (s : ChannelSys User) : Prop := s.keys.indexed = true

/-! ## A token hash and its index entry

The scripts of channels and of users work on the same two keys. `Moves` is what
each of them owes, whoever the subject is. -/

/-- A subject with a token is indexed. -/
def Membership.Covered (m : Membership) : Prop :=
  ∀ token, m.stamps.hget token ≠ none → m.indexed = true

/-- A step from `m` to `m'` keeps the tokens covered, and `award` is the change
of the index entry. -/
def Membership.Moves (m m' : Membership) (award : Option Edge) : Prop :=
  m'.Covered ∧ Awards (fun m : Membership => m.indexed = true) m m' award

theorem Membership.covered_empty : Membership.empty.Covered := by
  intro token hget
  exact absurd (Hash.hget_empty token) hget

variable {m : Membership}

/-- A covered subject without the index entry has no token. -/
theorem Membership.Covered.hlen_hdel (hm : m.Covered) (hidx : m.indexed = false) (token : Text) :
    (m.stamps.hdel token).hlen = 0 := by
  rw [Hash.hlen_eq_zero]
  ext1 token'
  rw [Hash.hget_hdel, Hash.hget_empty]
  split
  · rfl
  · by_contra hget
    have hin := hm token' hget
    rw [hidx] at hin
    cases hin

/-- A step that adds no token and leaves the index entry alone. -/
theorem Membership.Covered.quiet {m' : Membership} (hm : m.Covered)
    (hstamps : ∀ token, m'.stamps.hget token = m.stamps.hget token ∨ m'.stamps.hget token = none)
    (hidx : m'.indexed = m.indexed) : m.Moves m' none := by
  refine ⟨?_, by simp [Awards, hidx]⟩
  intro token hget
  rw [hidx]
  rcases hstamps token with heq | hnone
  · exact hm token (heq ▸ hget)
  · exact absurd hnone hget

theorem Membership.Covered.same (hm : m.Covered) : m.Moves m none :=
  ⟨hm, Iff.rfl⟩

/-- Clearing both keys awards `down` exactly when the subject was indexed. -/
theorem Membership.moves_cleared (m : Membership) :
    m.Moves .empty (if m.indexed = true then some .down else none) := by
  refine ⟨covered_empty, ?_⟩
  split
  next h => exact ⟨h, Bool.false_ne_true⟩
  next h => exact iff_of_false Bool.false_ne_true h

theorem Membership.moves_down (hidx : m.indexed = true) : m.Moves .empty (some .down) := by
  simpa [hidx] using m.moves_cleared

/-- A join that finds the subject indexed has to find another token too. -/
theorem Membership.Covered.join (hm : m.Covered) (token : Text) (expireAt : Nat)
    (hother : m.indexed = true → (m.stamps.hdel token).hlen ≠ 0) :
    m.Moves (membershipJoin m token expireAt).1
      (if (membershipJoin m token expireAt).2 = 1 then some .up else none) := by
  refine ⟨fun _ _ => rfl, ?_⟩
  simp only [membershipJoin_count_eq_one]
  cases hidx : m.indexed with
  | true =>
    rw [if_neg (hother hidx)]
    exact iff_of_true rfl hidx
  | false =>
    -- not indexed, so the hash was empty and this token is its first
    rw [if_pos (hm.hlen_hdel hidx token)]
    exact ⟨by simp [hidx], rfl⟩

/-- A tick's `HSET` writes tokens only of an indexed subject. -/
theorem Membership.Covered.restamp (hm : m.Covered) (tokens : List Text) (stamp : Stamp)
    (hidx : tokens ≠ [] → m.indexed = true) :
    m.Moves { m with stamps := m.stamps.hsetAll tokens stamp } none := by
  refine ⟨?_, Iff.rfl⟩
  intro token hget
  rw [Hash.hget_hsetAll] at hget
  split at hget
  next hin => exact hidx (List.ne_nil_of_mem hin)
  next => exact hm token hget

/-- A tick's `SADD` of an indexed subject. -/
theorem Membership.moves_reindex (hidx : m.indexed = true) :
    m.Moves { m with indexed := true } none :=
  ⟨fun _ _ => rfl, iff_of_true rfl hidx⟩

/-! ## Every script awards the changes of the index entry -/

theorem unsubscribe_awards (presence : Bool) (s : ChannelSys User) (token : Text)
    (hs : Indexed s) :
    Indexed (channelStep presence s (.unsubscribe token)) ∧
      Awards Occupied s (channelStep presence s (.unsubscribe token))
        (channelAward s (.unsubscribe token)) := by
  have hshrink := unsubscribe_shrinks s.keys.toMembership token
  simp only [channelStep, channelAward]
  rcases unsubscribe_cases s.keys.toMembership token with ⟨-, heq⟩ | ⟨-, heq⟩
  · rw [heq]
    exact s.keys.toMembership.moves_cleared
  · rw [heq] at hshrink ⊢
    exact Membership.Covered.quiet hs hshrink rfl

theorem vacate_awards (presence : Bool) (s : ChannelSys User) (pass : Nat) (hs : Indexed s) :
    Indexed (channelStep presence s (.vacate pass)) ∧
      Awards Occupied s (channelStep presence s (.vacate pass))
        (channelAward s (.vacate pass)) := by
  simp only [channelStep, channelAward]
  cases hp : s.passes.hget pass with
  | none => exact Membership.Covered.same hs
  | some p =>
    cases hdel : p.deleted with
    | false =>
      simp only [hdel, Bool.false_eq_true, false_and, if_false]
      exact Membership.Covered.same hs
    | true =>
      cases hfresh : p.hadFreshMembers with
      | true =>
        simp only [hdel, hfresh, Bool.true_eq_false, true_and, false_and, if_false]
        exact Membership.Covered.same hs
      | false =>
        simp only [hdel, hfresh, true_and, if_true]
        rcases vacate_cases s.keys with ⟨-, hidx, hv⟩ | ⟨-, hv⟩
        · rw [hv]
          simp only [if_true]
          exact Membership.moves_down hidx
        · rw [hv]
          exact Membership.Covered.same hs

/-- A script awards an edge exactly when it changes the occupancy. -/
theorem channelStep_awards (presence : Bool) (s : ChannelSys User) (a : ChannelAct User)
    (hs : Indexed s) (ha : Ordered s a) :
    Indexed (channelStep presence s a) ∧
      Awards Occupied s (channelStep presence s a) (channelAward s a) := by
  cases a with
  | join token expireAt => exact Membership.Covered.join hs token expireAt ha
  | unsubscribe token => exact unsubscribe_awards presence s token hs
  | vacate pass => exact vacate_awards presence s pass hs
  | restamp _ expireAt =>
    simp only [channelStep, channelAward]
    split
    next tokens htick =>
      refine Membership.Covered.restamp hs tokens (some expireAt) fun hne => ha ?_
      rwa [ChannelSys.toStamp, htick]
    next => exact ⟨hs, Iff.rfl⟩
  | reindex =>
    simp only [channelStep, channelAward]
    split
    next tokens htick =>
      exact Membership.moves_reindex (ha (by rw [htick]; rfl))
    next => exact ⟨hs, Iff.rfl⟩
  | delete =>
    simp only [channelStep, channelAward]
    repeat' split
    · refine Membership.Covered.quiet hs (fun token => ?_) rfl
      rw [Hash.hget_hdelAll]
      split
      · exact .inr rfl
      · exact .inl rfl
    all_goals exact ⟨hs, Iff.rfl⟩
  | lapse => exact Membership.Covered.quiet hs (fun token => .inr (Hash.hget_empty token)) rfl
  | presenceJoin | presenceLeave | snapshot => exact ⟨hs, Iff.rfl⟩
  | read =>
    simp only [channelStep, channelAward]
    split <;> exact ⟨hs, Iff.rfl⟩
  | reap =>
    simp only [channelStep, channelAward]
    repeat' split
    all_goals exact ⟨hs, Iff.rfl⟩

/-- The edges a run from a channel without keys awards. -/
def channelEdges (presence : Bool) (as : List (ChannelAct User)) : List Edge :=
  edges (channelStep presence) channelAward .empty as

/-- In every run whose joins and reconcile writes are ordered, occupied and
vacated alternate, and the last edge tells whether the channel is indexed. -/
theorem channel_edges_alternate (presence : Bool) (as : List (ChannelAct User))
    (has : Along (channelStep presence) Ordered .empty as) :
    Alternates (channelEdges presence as) ∧
      (High (channelEdges presence as) ↔
        (run (channelStep presence) .empty as).keys.indexed = true) :=
  alternates_edges (s := .empty) (channelStep_awards presence) Membership.covered_empty
    (by simp [Occupied, ChannelSys.empty, ChannelKeys.empty, Membership.empty]) has

/-- Two nodes, a crashed one swept, the channel emptied and joined again. -/
theorem channel_edges_alternate_swept :
    channelEdges true
        ([.join ['a'] 5, .join ['b'] 50, .read 0 10 [(['a'], some 5), (['b'], some 50)], .reap 0,
          .delete 0, .vacate 0, .unsubscribe ['b'], .join ['c'] 60] : List (ChannelAct Nat)) =
      [.up, .down, .up] ∧
    Alternates (channelEdges true
        ([.join ['a'] 5, .join ['b'] 50, .read 0 10 [(['a'], some 5), (['b'], some 50)], .reap 0,
          .delete 0, .vacate 0, .unsubscribe ['b'], .join ['c'] 60] : List (ChannelAct Nat))) :=
  ⟨by decide, (channel_edges_alternate true _ (by decide)).1⟩

/-- The sweeper deletes the last (stale) token, a node joins before the
`VACATE`: the join returns 1 again, and `channel_occupied` is announced twice
with no `channel_vacated` between. -/
theorem channel_edges_repeat_occupied :
    channelEdges false
        ([.join ['a'] 5, .read 0 10 [(['a'], some 5)], .delete 0, .join ['b'] 60, .vacate 0] :
          List (ChannelAct Nat)) = [.up, .up] ∧
      ¬ Alternates (channelEdges false
        ([.join ['a'] 5, .read 0 10 [(['a'], some 5)], .delete 0, .join ['b'] 60, .vacate 0] :
          List (ChannelAct Nat))) := by
  decide

end Pylon.Redis
