import Pylon.Redis.ChannelEdges

/-!
# Watch edges

A signed-in user's watchers are told when the user comes online and goes
offline, cluster-wide. `online` is decided from the length of the binding hash
`usr` after a sign-in. `offline` is decided in two ways: a sign-out looks at
the length that is left, the sweeper's `USER_REAP` at whether its own `SREM`
removed the `users` entry. The two agree as long as a sign-out still finds the user
in the `users` index, a sign-in that does finds another binding too, and so do the
two writes of a reconcile tick find the user there (`UserOrdered`).
-/

namespace Pylon.Redis

open Pylon.Lib

/-! ## `USER_REAP_LUA` -/

/-- `string.match(token, '^([^:]+):')`. -/
def nodePrefix (token : Text) : Option Text :=
  let node := token.takeWhile (· ≠ ':')
  if node ≠ [] ∧ node.length < token.length then some node else none

/-- The variables of the loop. -/
structure ReapLoop where
  usr : Hash Text Stamp
  deadNode : Text
  fresh : Nat

/-- One binding of the loop. -/
def reapBinding (now : Nat) (loop : ReapLoop) (binding : Text × Stamp) : ReapLoop :=
  if expired now binding.2 = false then { loop with fresh := loop.fresh + 1 }
  else
    { loop with
      deadNode := if loop.deadNode = [] then (nodePrefix binding.1).getD [] else loop.deadNode
      usr := loop.usr.hdel binding.1 }

/-- `USER_REAP_LUA`, where `bindings` is the reply of its `HGETALL`; returns
`{won, dead_node}`. -/
def userReap (m : Membership) (now : Nat) (bindings : List (Text × Stamp)) :
    Membership × (Bool × Text) :=
  let loop := bindings.foldl (reapBinding now) ⟨m.stamps, [], 0⟩
  if 0 < loop.fresh then (⟨loop.usr, m.indexed⟩, (false, []))
  else if m.indexed = false then (⟨∅, false⟩, (false, []))
  else (⟨∅, false⟩, (true, loop.deadNode))

/-! ## Runs -/

/-- One user's keys, and the reconcile ticks that have the user in their
snapshot. -/
structure UserSys where
  keys : Membership
  ticks : Hash Nat Tick

def UserSys.empty : UserSys := ⟨.empty, ∅⟩

/-- The scripts and commands on a user's keys: a reconcile tick takes its
snapshot, later re-stamps, later adds the index entry. -/
inductive UserAct
  | signin (token : Text) (expireAt : Nat)
  | signout (token : Text)
  | reap (now : Nat) (bindings : List (Text × Stamp))
  | snapshot (tick : Nat) (tokens : List Text)
  | restamp (tick expireAt : Nat)
  | reindex (tick : Nat)

/-- One script or command. A `reap` whose `bindings` are not what `HGETALL` may
reply, and a tick's write out of its order, do nothing. -/
def userStep (s : UserSys) : UserAct → UserSys
  | .signin token expireAt => { s with keys := (membershipJoin s.keys token expireAt).1 }
  | .signout token => { s with keys := (userSignout s.keys token).1 }
  | .reap now bindings =>
    if s.keys.stamps.Enumerates bindings then { s with keys := (userReap s.keys now bindings).1 }
    else s
  | .snapshot tick tokens => { s with ticks := s.ticks.hset tick ⟨tokens, false⟩ }
  | .restamp tick expireAt =>
    match s.ticks.hget tick with
    | some ⟨tokens, false⟩ =>
      { keys := { s.keys with stamps := s.keys.stamps.hsetAll tokens (some expireAt) }
        ticks := s.ticks.hset tick ⟨tokens, true⟩ }
    | _ => s
  | .reindex tick =>
    match s.ticks.hget tick with
    | some ⟨_, true⟩ => { keys := { s.keys with indexed := true }, ticks := s.ticks.hdel tick }
    | _ => s

/-- The edge a script's reply publishes: `online` is `up`, `offline` is `down`. -/
def watchAward (s : UserSys) : UserAct → Option Edge
  | .signin token expireAt =>
    if (membershipJoin s.keys token expireAt).2 = 1 then some .up else none
  | .signout token => if (userSignout s.keys token).2 = 0 then some .down else none
  | .reap now bindings =>
    if s.keys.stamps.Enumerates bindings ∧ (userReap s.keys now bindings).2.1 = true then
      some .down
    else none
  | _ => none

/-- The published edges of a run from a user without keys. -/
def watchEdges (as : List UserAct) : List Edge :=
  edges userStep watchAward .empty as

/-- The tokens the next `HSET` of a tick writes. -/
def UserSys.toStamp (s : UserSys) (tick : Nat) : List Text :=
  match s.ticks.hget tick with
  | some ⟨tokens, false⟩ => tokens
  | _ => []

/-- A sign-in that finds the user indexed finds another binding too; a sign-out
and a reconcile write find the user indexed. -/
def UserOrdered (s : UserSys) : UserAct → Prop
  | .signin token _ => s.keys.indexed = true → (s.keys.stamps.hdel token).hlen ≠ 0
  | .signout _ => s.keys.indexed = true
  | .restamp tick _ => s.toStamp tick ≠ [] → s.keys.indexed = true
  | .reindex tick => (s.ticks.hget tick).any (·.stamped) = true → s.keys.indexed = true
  | .reap _ _ | .snapshot _ _ => True

instance (s : UserSys) : ∀ a, Decidable (UserOrdered s a)
  | .signin _ _ => inferInstanceAs (Decidable (_ → _))
  | .signout _ => inferInstanceAs (Decidable (_ = true))
  | .restamp _ _ => inferInstanceAs (Decidable (_ → _))
  | .reindex _ => inferInstanceAs (Decidable (_ → _))
  | .reap _ _ | .snapshot _ _ => isTrue trivial

/-! ## Every script awards the changes of the index entry -/

/-- A user with a binding is in the index. -/
def Bound (s : UserSys) : Prop := ∀ token, s.keys.stamps.hget token ≠ none → s.keys.indexed = true

/-- The level the edges report. -/
def Online (s : UserSys) : Prop := s.keys.indexed = true

theorem signout_awards (s : UserSys) (token : Text) (hs : Bound s)
    (ha : UserOrdered s (.signout token)) :
    Bound (userStep s (.signout token)) ∧
      Awards Online s (userStep s (.signout token)) (watchAward s (.signout token)) := by
  have hshrink := userSignout_shrinks s.keys token
  by_cases hlen : (s.keys.stamps.hdel token).hlen = 0
  · have hout : userSignout s.keys token = (.empty, 0) := by
      simp [userSignout, hlen, Membership.empty]
    simp only [userStep, watchAward, hout, if_true]
    exact Membership.moves_down ha
  · have hout : userSignout s.keys token =
        (⟨s.keys.stamps.hdel token, s.keys.indexed⟩, (s.keys.stamps.hdel token).hlen) := by
      simp [userSignout, hlen]
    rw [hout] at hshrink
    simp only [userStep, watchAward, hout, if_neg hlen]
    exact Membership.Covered.quiet hs hshrink rfl

theorem reapBinding_shrinks (now : Nat) (bindings : List (Text × Stamp)) (loop : ReapLoop)
    (token : Text) :
    (bindings.foldl (reapBinding now) loop).usr.hget token = loop.usr.hget token ∨
      (bindings.foldl (reapBinding now) loop).usr.hget token = none := by
  induction bindings generalizing loop with
  | nil => exact .inl rfl
  | cons binding _ ih =>
    rw [List.foldl_cons]
    rcases ih (reapBinding now loop binding) with hkept | hgone
    · rw [hkept]
      unfold reapBinding
      split
      · exact .inl rfl
      · dsimp only
        rw [Hash.hget_hdel]
        split
        · exact .inr rfl
        · exact .inl rfl
    · exact .inr hgone

/-- A reap leaves a user with a fresh binding, or clears the keys: then it won
exactly when the user was indexed. -/
theorem userReap_cases (m : Membership) (now : Nat) (bindings : List (Text × Stamp)) :
    (∃ usr : Hash Text Stamp,
      (∀ token, usr.hget token = m.stamps.hget token ∨ usr.hget token = none) ∧
        userReap m now bindings = (⟨usr, m.indexed⟩, (false, []))) ∨
      (m.indexed = false ∧ userReap m now bindings = (.empty, (false, []))) ∨
      (m.indexed = true ∧ ∃ deadNode, userReap m now bindings = (.empty, (true, deadNode))) := by
  unfold userReap
  dsimp only
  split
  · exact .inl ⟨_, reapBinding_shrinks now bindings ⟨m.stamps, [], 0⟩, rfl⟩
  · cases hidx : m.indexed with
    | false => exact .inr (.inl ⟨rfl, rfl⟩)
    | true => exact .inr (.inr ⟨rfl, _, rfl⟩)

theorem reap_awards (s : UserSys) (now : Nat) (bindings : List (Text × Stamp)) (hs : Bound s) :
    Bound (userStep s (.reap now bindings)) ∧
      Awards Online s (userStep s (.reap now bindings)) (watchAward s (.reap now bindings)) := by
  simp only [userStep, watchAward]
  by_cases hreply : s.keys.stamps.Enumerates bindings
  · simp only [hreply, true_and, if_true]
    rcases userReap_cases s.keys now bindings with
      ⟨usr, hshrink, heq⟩ | ⟨hidx, heq⟩ | ⟨hidx, deadNode, heq⟩
    · rw [heq]
      exact Membership.Covered.quiet hs hshrink rfl
    · rw [heq]
      exact Membership.Covered.quiet hs (fun token => .inr (Hash.hget_empty token)) hidx.symm
    · rw [heq]
      exact Membership.moves_down hidx
  · simp only [hreply, false_and, if_false]
    exact ⟨hs, Iff.rfl⟩

theorem userStep_awards (s : UserSys) (a : UserAct) (hs : Bound s) (ha : UserOrdered s a) :
    Bound (userStep s a) ∧ Awards Online s (userStep s a) (watchAward s a) := by
  cases a with
  | signin token expireAt => exact Membership.Covered.join hs token expireAt ha
  | signout token => exact signout_awards s token hs ha
  | reap now bindings => exact reap_awards s now bindings hs
  | snapshot => exact ⟨hs, Iff.rfl⟩
  | restamp _ expireAt =>
    simp only [userStep, watchAward]
    split
    next tokens htick =>
      refine Membership.Covered.restamp hs tokens (some expireAt) fun hne => ha ?_
      rwa [UserSys.toStamp, htick]
    next => exact ⟨hs, Iff.rfl⟩
  | reindex =>
    simp only [userStep, watchAward]
    split
    next tokens htick =>
      exact Membership.moves_reindex (ha (by rw [htick]; rfl))
    next => exact ⟨hs, Iff.rfl⟩

/-- In every run whose sign-ins, sign-outs and reconcile writes are ordered,
online and offline alternate, and the last edge tells whether the user is
indexed. -/
theorem watch_edges_alternate (as : List UserAct) (has : Along userStep UserOrdered .empty as) :
    Alternates (watchEdges as) ∧
      (High (watchEdges as) ↔ (run userStep .empty as).keys.indexed = true) := by
  apply alternates_edges userStep_awards _ _ has
  · exact Membership.covered_empty
  · exact Bool.false_ne_true

/-- Two connections; one node crashes and is reaped, the other re-stamps and
signs out. -/
theorem watch_edges_alternate_restamped :
    let as : List UserAct :=
      [.signin ['a'] 5, .signin ['b'] 9, .snapshot 0 [['b']], .restamp 0 90, .reindex 0,
        .reap 10 [(['a'], some 5), (['b'], some 90)], .signout ['b'], .signin ['c'] 95]
    watchEdges as = [.up, .down, .up] ∧ Alternates (watchEdges as) := by
  intro as
  exact ⟨by decide, (watch_edges_alternate as (by decide)).1⟩

/-- The sweeper reaps the user's last, stale binding and publishes offline; the
connection's own sign-out comes late, finds no binding and publishes offline
once more. -/
theorem watch_edges_repeat_offline :
    let as : List UserAct := [.signin ['a'] 5, .reap 10 [(['a'], some 5)], .signout ['a']]
    watchEdges as = [.up, .down, .down] ∧ ¬ Alternates (watchEdges as) := by
  decide

end Pylon.Redis
