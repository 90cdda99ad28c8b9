import Pylon.Channel.State

/-!
# The node-local registries

`Registry` maps `(app, channel)` to a `ChannelState`, `UserRegistry` maps
`(app, user)` to the sockets signed in as that user, and `WatchRegistry`, the
other half of that type, to the sockets that watch the user. All drop an entry
that has become empty. What other components ask of them is which sockets are
in (`has`, `watchersOf`) and the edges an operation reports.
-/

namespace Pylon.Channel

open Pylon.Lib

variable {Sid Info : Type} [DecidableEq Sid] [BEq Info]

/-- An `(app, channel)` or `(app, user)` pair. -/
abbrev Key := String × String

structure SubscribeOutcome (Info : Type) where
  subscriptionCount : Nat
  presence : Option (PresenceJoin Info)
  occupied : Bool

structure UnsubscribeOutcome where
  subscriptionCount : Nat
  presence : Option PresenceLeave
  vacated : Bool

/-- Channel states by `(app, channel)`. -/
structure Registry (Sid Info : Type) where
  channels : Hash Key (ChannelState Sid Info)

namespace Registry

def empty : Registry Sid Info := ⟨∅⟩

/-- `Registry::subscribe`. -/
def subscribe (reg : Registry Sid Info) (key : Key) (sid : Sid)
    (member : Option (PresenceMember Info)) : Registry Sid Info × SubscribeOutcome Info :=
  let state := (reg.channels.hget key).getD .empty
  let wasEmpty := state.subscriptionCount == 0
  let r := state.add key.2 sid member
  let count := r.1.subscriptionCount
  (⟨reg.channels.hset key r.1⟩, ⟨count, r.2, wasEmpty && count == 1⟩)

/-- `Registry::unsubscribe`, with its removal of an entry left empty. -/
def unsubscribe (reg : Registry Sid Info) (key : Key) (sid : Sid) :
    Registry Sid Info × UnsubscribeOutcome :=
  match reg.channels.hget key with
  | some state =>
    let r := state.remove sid
    let channels := if r.1.isEmpty then reg.channels.hdel key else reg.channels.hset key r.1
    (⟨channels⟩, ⟨r.1.subscriptionCount, r.2, r.1.isEmpty⟩)
  | none => (reg, ⟨0, none, false⟩)

/-- The subscriber entry of `sid` in a channel. -/
def subscriber (reg : Registry Sid Info) (key : Key) (sid : Sid) :
    Option (Option (PresenceMember Info)) :=
  (reg.channels.hget key).bind fun state => state.subscribers.hget sid

/-- `sid` is subscribed to the channel. -/
def has (reg : Registry Sid Info) (key : Key) (sid : Sid) : Bool :=
  (reg.subscriber key sid).isSome

/-- The `user_count` of `channel_summary`. -/
def userCount (reg : Registry Sid Info) (key : Key) : Option Nat :=
  (reg.channels.hget key).bind ChannelState.userCount

/-- `Registry::presence_members`. -/
def presenceMembers (reg : Registry Sid Info) (key : Key) : List (PresenceMember Info) :=
  ((reg.channels.hget key).map ChannelState.members).getD []

/-- `Registry::roster_frame`: the frame of a channel with presence users, cached in
its state. -/
def rosterFrame (reg : Registry Sid Info) (key : Key) :
    Registry Sid Info × Option (RosterFrame Info) :=
  match reg.channels.hget key with
  | none => (reg, none)
  | some state =>
    if state.userCount.isSome then
      let r := state.cachedRosterFrame key.2
      (⟨reg.channels.hset key r.1⟩, some r.2)
    else (reg, none)

/-- `groups` is a reply `local_members` may give: every non-empty channel once,
with each of its sockets once. -/
def Lists (reg : Registry Sid Info) (groups : List (Key × List Sid)) : Prop :=
  (groups.map Prod.fst).Nodup ∧
    (groups.map Prod.fst).toFinset =
      reg.channels.hkeys.filter (fun key =>
        (reg.channels.hget key).any (fun st => !st.isEmpty) = true) ∧
    ∀ g ∈ groups, g.2.Nodup ∧
      g.2.toFinset = ((reg.channels.hget g.1).map (·.subscribers.hkeys)).getD ∅

instance (reg : Registry Sid Info) (groups : List (Key × List Sid)) :
    Decidable (reg.Lists groups) :=
  inferInstanceAs (Decidable (_ ∧ _ ∧ ∀ _ ∈ _, _ ∧ _))

variable {reg : Registry Sid Info}

section

omit [BEq Info]

theorem has_of_lists {groups : List (Key × List Sid)} (h : reg.Lists groups) {g : Key × List Sid}
    (hg : g ∈ groups) {sid : Sid} (hsid : sid ∈ g.2) : reg.has g.1 sid = true := by
  have hkeys := (h.2.2 g hg).2
  rw [← List.mem_toFinset, hkeys] at hsid
  unfold has subscriber
  cases hget : reg.channels.hget g.1 with
  | none => simp [hget] at hsid
  | some =>
    rw [hget] at hsid
    simpa [Option.isSome_iff_ne_none, Hash.mem_hkeys] using hsid

/-- The listing names every subscriber. -/
theorem lists_of_has {groups : List (Key × List Sid)} (h : reg.Lists groups) {key : Key} {sid : Sid}
    (hhas : reg.has key sid = true) : ∃ g ∈ groups, g.1 = key ∧ sid ∈ g.2 := by
  obtain ⟨-, hkeys, hsids⟩ := h
  cases hget : reg.channels.hget key with
  | none => simp [has, subscriber, hget] at hhas
  | some st =>
    have hin : sid ∈ st.subscribers.hkeys := by
      simpa [has, subscriber, hget, Option.isSome_iff_ne_none, Hash.mem_hkeys] using hhas
    have hnonempty : st.isEmpty = false := by
      have hlen : st.subscribers.hlen ≠ 0 := fun h0 => by
        rw [Hash.hlen_eq_zero.mp h0] at hin
        simp at hin
      simpa [ChannelState.isEmpty] using hlen
    have hkey : key ∈ groups.map Prod.fst := by
      rw [← List.mem_toFinset, hkeys]
      refine Finset.mem_filter.mpr ⟨Hash.mem_hkeys_of_hget hget, ?_⟩
      simp [hget, hnonempty]
    obtain ⟨g, hg, rfl⟩ := List.mem_map.mp hkey
    refine ⟨g, hg, rfl, ?_⟩
    rw [← List.mem_toFinset, (hsids g hg).2, hget]
    exact hin

@[simp] theorem subscriber_empty (key : Key) (sid : Sid) :
    (empty : Registry Sid Info).subscriber key sid = none := by
  simp [empty, subscriber]

end

theorem subscriber_subscribe (reg : Registry Sid Info) (key key' : Key) (sid sid' : Sid)
    (member : Option (PresenceMember Info)) :
    (reg.subscribe key sid member).1.subscriber key' sid' =
      if key' = key ∧ sid' = sid then some member else reg.subscriber key' sid' := by
  unfold subscribe subscriber
  rw [Hash.hget_hset]
  by_cases hkey : key' = key
  · subst hkey
    rw [if_pos rfl, Option.bind_some, add_subscribers, Hash.hget_hset]
    by_cases hsid : sid' = sid
    · simp [hsid]
    · simp only [hsid, and_false, if_false]
      rw [Hash.hget_hdel_ne _ hsid]
      cases reg.channels.hget key' <;> simp [ChannelState.empty]
  · simp [hkey]

/-- A channel dropped with its last subscriber reads as one that this subscriber left. -/
theorem subscriber_unsubscribe (reg : Registry Sid Info) (key key' : Key) (sid sid' : Sid) :
    (reg.unsubscribe key sid).1.subscriber key' sid' =
      if key' = key ∧ sid' = sid then none else reg.subscriber key' sid' := by
  unfold unsubscribe subscriber
  cases hget : reg.channels.hget key with
  | none =>
    by_cases h : key' = key ∧ sid' = sid
    · rw [if_pos h, h.1, hget]
      rfl
    · rw [if_neg h]
  | some state =>
    -- an entry left empty reads the same as no entry
    have hentry : ((if (state.remove sid).1.isEmpty = true then reg.channels.hdel key
        else reg.channels.hset key (state.remove sid).1).hget key').bind
          (fun state => state.subscribers.hget sid') =
        if key' = key then (state.subscribers.hdel sid).hget sid'
        else (reg.channels.hget key').bind fun state => state.subscribers.hget sid' := by
      by_cases hkey : key' = key
      · subst hkey
        rw [if_pos rfl]
        split
        next hempty =>
          have hnone : (state.remove sid).1.subscribers = ∅ := by
            rw [← Hash.hlen_eq_zero]
            simpa [ChannelState.isEmpty] using hempty
          rw [← remove_subscribers, hnone]
          simp
        next => simp
      · rw [if_neg hkey]
        split
        · rw [Hash.hget_hdel_ne _ hkey]
        · rw [Hash.hget_hset_ne _ _ hkey]
    rw [hentry]
    by_cases hkey : key' = key
    · subst hkey
      rw [if_pos rfl, Hash.hget_hdel, hget]
      by_cases hsid : sid' = sid <;> simp [hsid]
    · simp [hkey]

/-- A leave is a presence leave exactly when the socket was in as a member. -/
theorem unsubscribe_presence_isSome (reg : Registry Sid Info) (key : Key) (sid : Sid) :
    (reg.unsubscribe key sid).2.presence.isSome = (reg.subscriber key sid).join.isSome := by
  unfold unsubscribe subscriber
  cases hget : reg.channels.hget key with
  | none => rfl
  | some state =>
    dsimp only [Option.bind_some]
    unfold ChannelState.remove
    rcases state.subscribers.hget sid with _ | _ | member
    · rfl
    · rfl
    · dsimp only
      split <;> rfl

theorem has_subscribe (reg : Registry Sid Info) (key key' : Key) (sid sid' : Sid)
    (member : Option (PresenceMember Info)) :
    (reg.subscribe key sid member).1.has key' sid' =
      if key' = key ∧ sid' = sid then true else reg.has key' sid' := by
  unfold has
  rw [subscriber_subscribe]
  split <;> rfl

theorem has_unsubscribe (reg : Registry Sid Info) (key key' : Key) (sid sid' : Sid) :
    (reg.unsubscribe key sid).1.has key' sid' =
      if key' = key ∧ sid' = sid then false else reg.has key' sid' := by
  unfold has
  rw [subscriber_unsubscribe]
  split <;> rfl

/-- The subscription count of a channel; a channel that is not there has none. -/
def count (reg : Registry Sid Info) (key : Key) : Nat :=
  ((reg.channels.hget key).map (·.subscriptionCount)).getD 0

theorem count_subscribe (reg : Registry Sid Info) (key : Key) (sid : Sid)
    (member : Option (PresenceMember Info)) :
    (reg.subscribe key sid member).2.subscriptionCount =
      (reg.subscribe key sid member).1.count key := by
  simp [subscribe, count]

theorem count_unsubscribe (reg : Registry Sid Info) (key : Key) (sid : Sid) :
    (reg.unsubscribe key sid).2.subscriptionCount = (reg.unsubscribe key sid).1.count key := by
  unfold unsubscribe count
  cases hget : reg.channels.hget key with
  | none => simp [hget]
  | some =>
    dsimp only
    split
    next hempty =>
      -- an entry left empty is dropped
      rw [Hash.hget_hdel_self]
      simpa [ChannelState.isEmpty, ChannelState.subscriptionCount] using hempty
    next =>
      rw [Hash.hget_hset_self]
      rfl

omit [BEq Info] in
theorem count_eq_zero (reg : Registry Sid Info) (key : Key) :
    reg.count key = 0 ↔ ∀ sid, reg.has key sid = false := by
  unfold count has subscriber
  cases hget : reg.channels.hget key with
  | none => simp
  | some =>
    simp only [Option.map_some, Option.getD_some, Option.bind_some,
      ChannelState.subscriptionCount, Hash.hlen_eq_zero]
    constructor
    · intro hnone sid
      rw [hnone, Hash.hget_empty]
      rfl
    · intro hall
      ext1 sid
      rw [Hash.hget_empty]
      exact Option.isNone_iff_eq_none.mp (by simpa using hall sid)

theorem count_subscribe_first {key : Key} (hnone : reg.count key = 0) (sid : Sid)
    (member : Option (PresenceMember Info)) : (reg.subscribe key sid member).1.count key = 1 := by
  have hsubs : ((reg.channels.hget key).getD .empty).subscribers = ∅ := by
    cases hget : reg.channels.hget key with
    | none => rfl
    | some =>
      rw [← Hash.hlen_eq_zero]
      simpa [count, hget, ChannelState.subscriptionCount] using hnone
  simp only [subscribe, count, Hash.hget_hset_self, Option.map_some,
    Option.getD_some, ChannelState.subscriptionCount, add_subscribers, hsubs]
  rw [Hash.hlen_hset_eq_one]
  intro sid' hget
  rw [Hash.hget_hdel, Hash.hget_empty] at hget
  simp at hget

omit [BEq Info] in
theorem subscriber_rosterFrame (reg : Registry Sid Info) (key key' : Key) (sid : Sid) :
    (reg.rosterFrame key).1.subscriber key' sid = reg.subscriber key' sid := by
  unfold rosterFrame
  cases hget : reg.channels.hget key with
  | none => rfl
  | some =>
    dsimp only
    split
    · unfold subscriber
      rw [Hash.hget_hset]
      by_cases hkey : key' = key
      · rw [if_pos hkey, hkey, hget]
        unfold ChannelState.cachedRosterFrame
        split <;> rfl
      · rw [if_neg hkey]
    · rfl

end Registry

/-- Signed-in sockets by `(app, user)`. -/
structure UserRegistry (Sid : Type) where
  users : Hash Key (Finset Sid)

namespace UserRegistry

def empty : UserRegistry Sid := ⟨∅⟩

/-- `UserRegistry::signin`; returns `first_for_user`. -/
def signin (reg : UserRegistry Sid) (key : Key) (sid : Sid) : UserRegistry Sid × Bool :=
  let entry := (reg.users.hget key).getD ∅
  (⟨reg.users.hset key (insert sid entry)⟩, entry.card == 0)

/-- `UserRegistry::signout`; returns `last_for_user`. -/
def signout (reg : UserRegistry Sid) (key : Key) (sid : Sid) : UserRegistry Sid × Bool :=
  match reg.users.hget key with
  | none => (reg, false)
  | some entry =>
    let left := entry.erase sid
    if left.card = 0 then (⟨reg.users.hdel key⟩, true) else (⟨reg.users.hset key left⟩, false)

/-- `sid` is signed in as the user. -/
def has (reg : UserRegistry Sid) (key : Key) (sid : Sid) : Bool :=
  decide (sid ∈ (reg.users.hget key).getD ∅)

/-- `groups` is a reply `local_user_bindings` may give. -/
def Lists (reg : UserRegistry Sid) (groups : List (Key × List Sid)) : Prop :=
  (groups.map Prod.fst).Nodup ∧
    (groups.map Prod.fst).toFinset =
      reg.users.hkeys.filter (fun key => (reg.users.hget key).any (fun e => e.card != 0) = true) ∧
    ∀ g ∈ groups, g.2.Nodup ∧ g.2.toFinset = (reg.users.hget g.1).getD ∅

instance (reg : UserRegistry Sid) (groups : List (Key × List Sid)) : Decidable (reg.Lists groups) :=
  inferInstanceAs (Decidable (_ ∧ _ ∧ ∀ _ ∈ _, _ ∧ _))

theorem has_of_lists {reg : UserRegistry Sid} {groups : List (Key × List Sid)}
    (h : reg.Lists groups) {g : Key × List Sid} (hg : g ∈ groups) {sid : Sid} (hsid : sid ∈ g.2) :
    reg.has g.1 sid = true := by
  rw [← List.mem_toFinset, (h.2.2 g hg).2] at hsid
  simpa [has] using hsid

/-- The listing names every signed-in socket. -/
theorem lists_of_has {reg : UserRegistry Sid} {groups : List (Key × List Sid)}
    (h : reg.Lists groups) {key : Key} {sid : Sid} (hhas : reg.has key sid = true) :
    ∃ g ∈ groups, g.1 = key ∧ sid ∈ g.2 := by
  obtain ⟨-, hkeys, hsids⟩ := h
  cases hget : reg.users.hget key with
  | none => simp [has, hget] at hhas
  | some entry =>
    have hin : sid ∈ entry := by simpa [has, hget] using hhas
    have hcard : entry.card ≠ 0 := Finset.card_ne_zero_of_mem hin
    have hkey : key ∈ groups.map Prod.fst := by
      rw [← List.mem_toFinset, hkeys]
      refine Finset.mem_filter.mpr ⟨Hash.mem_hkeys_of_hget hget, ?_⟩
      simpa [hget] using hcard
    obtain ⟨g, hg, rfl⟩ := List.mem_map.mp hkey
    refine ⟨g, hg, rfl, ?_⟩
    rw [← List.mem_toFinset, (hsids g hg).2, hget]
    exact hin

theorem has_signin (reg : UserRegistry Sid) (key key' : Key) (sid sid' : Sid) :
    (reg.signin key sid).1.has key' sid' =
      if key' = key ∧ sid' = sid then true else reg.has key' sid' := by
  unfold signin has
  rw [Hash.hget_hset]
  by_cases hkey : key' = key
  · by_cases hsid : sid' = sid <;> simp [hkey, hsid]
  · simp [hkey]

/-- A user dropped with the last socket reads as one that this socket left. -/
theorem has_signout (reg : UserRegistry Sid) (key key' : Key) (sid sid' : Sid) :
    (reg.signout key sid).1.has key' sid' =
      if key' = key ∧ sid' = sid then false else reg.has key' sid' := by
  unfold signout has
  cases hget : reg.users.hget key with
  | none =>
    by_cases hkey : key' = key
    · simp [hkey, hget]
    · simp [hkey]
  | some entry =>
    by_cases hkey : key' = key
    · subst hkey
      by_cases hempty : (entry.erase sid).card = 0
      · -- nobody left: every other socket was absent before too
        have hall : ∀ sid', sid' ≠ sid → sid' ∉ entry := by
          intro sid' hne hin
          have : sid' ∈ entry.erase sid := Finset.mem_erase.mpr ⟨hne, hin⟩
          rw [Finset.card_eq_zero.mp hempty] at this
          exact absurd this (by simp)
        by_cases hsid : sid' = sid
        · simp [hempty, hsid]
        · simp [hempty, hsid, hget, hall sid' hsid]
      · by_cases hsid : sid' = sid
        · simp [hempty, hsid]
        · simp [hempty, hsid, hget]
    · dsimp only
      split <;> simp [hkey, Hash.hget_hdel_ne, Hash.hget_hset_ne]

end UserRegistry

/-- Watching sockets by `(app, user)`, and what each socket watches. -/
structure WatchRegistry (Sid : Type) where
  watchers : Hash Key (Finset Sid)
  watching : Hash (String × Sid) (List String)

namespace WatchRegistry

def empty : WatchRegistry Sid := ⟨∅, ∅⟩

/-- The sockets that watch a user. -/
def watchersOf (reg : WatchRegistry Sid) (key : Key) : Finset Sid :=
  (reg.watchers.hget key).getD ∅

/-- One turn of the loop of `unwatch`; a set left empty is removed and its user
reported. -/
def unwatchUser (app : String) (sid : Sid) (r : WatchRegistry Sid × List String) (w : String) :
    WatchRegistry Sid × List String :=
  match r.1.watchers.hget (app, w) with
  | none => r
  | some set =>
    if set.erase sid = ∅ then
      ({ r.1 with watchers := r.1.watchers.hdel (app, w) }, r.2 ++ [w])
    else ({ r.1 with watchers := r.1.watchers.hset (app, w) (set.erase sid) }, r.2)

/-- `UserRegistry::unwatch`; returns the users nobody watches any more. -/
def unwatch (reg : WatchRegistry Sid) (app : String) (sid : Sid) :
    WatchRegistry Sid × List String :=
  match reg.watching.hget (app, sid) with
  | none => (reg, [])
  | some watched =>
    watched.foldl (unwatchUser app sid) ({ reg with watching := reg.watching.hdel (app, sid) }, [])

/-- One turn of the loop of `watch`; a user whose set was empty is reported. -/
def watchUser (app : String) (sid : Sid) (r : WatchRegistry Sid × List String) (w : String) :
    WatchRegistry Sid × List String :=
  let entry := r.1.watchersOf (app, w)
  ({ r.1 with watchers := r.1.watchers.hset (app, w) (insert sid entry) },
    if entry = ∅ then r.2 ++ [w] else r.2)

/-- `UserRegistry::watch`, which drops the connection's earlier watches without
reporting them; returns the users watched for the first time. -/
def watch (reg : WatchRegistry Sid) (app : String) (sid : Sid) (watched : List String) :
    WatchRegistry Sid × List String :=
  let r := watched.foldl (watchUser app sid) ((reg.unwatch app sid).1, [])
  ({ r.1 with watching := r.1.watching.hset (app, sid) watched }, r.2)

theorem watchersOf_unwatchUser (app : String) (sid : Sid) (r : WatchRegistry Sid × List String)
    (w : String) (key : Key) : (unwatchUser app sid r w).1.watchersOf key ⊆ r.1.watchersOf key := by
  unfold unwatchUser
  split
  · exact Finset.Subset.refl _
  next set hget =>
    split
    · intro s hs
      simp only [watchersOf, Hash.hget_hdel] at hs ⊢
      split at hs
      · exact absurd hs (Finset.notMem_empty s)
      · exact hs
    · intro s hs
      simp only [watchersOf, Hash.hget_hset] at hs ⊢
      split at hs
      next heq =>
        rw [heq, hget]
        exact Finset.mem_of_mem_erase hs
      next => exact hs

theorem watchersOf_unwatch (reg : WatchRegistry Sid) (app : String) (sid : Sid) (key : Key) :
    (reg.unwatch app sid).1.watchersOf key ⊆ reg.watchersOf key := by
  have hloop : ∀ (ws : List String) (r : WatchRegistry Sid × List String),
      (ws.foldl (unwatchUser app sid) r).1.watchersOf key ⊆ r.1.watchersOf key := by
    intro ws
    induction ws with
    | nil => exact fun r => Finset.Subset.refl _
    | cons w _ ih =>
      intro r
      exact (ih _).trans (watchersOf_unwatchUser app sid r w key)
  unfold unwatch
  split
  · exact Finset.Subset.refl _
  · exact hloop _ _

/-- A user watched after a `watch` was watched before it or is reported. -/
theorem watchersOf_watch {reg : WatchRegistry Sid} {app : String} {sid : Sid}
    {watched : List String} {key : Key}
    (hafter : (reg.watch app sid watched).1.watchersOf key ≠ ∅) :
    reg.watchersOf key ≠ ∅ ∨ (key.1 = app ∧ key.2 ∈ (reg.watch app sid watched).2) := by
  have hloop : ∀ (ws : List String) (r : WatchRegistry Sid × List String),
      (ws.foldl (watchUser app sid) r).1.watchersOf key ≠ ∅ →
        (r.1.watchersOf key ≠ ∅ ∨ (key.1 = app ∧ key.2 ∈ r.2) ∨
          key.1 = app ∧ key.2 ∈ (ws.foldl (watchUser app sid) r).2) ∧
        ∀ w ∈ r.2, w ∈ (ws.foldl (watchUser app sid) r).2 := by
    intro ws
    induction ws with
    | nil => exact fun r h => ⟨.inl h, fun _ hw => hw⟩
    | cons w _ ih =>
      intro r h
      obtain ⟨hcases, hkept⟩ := ih (watchUser app sid r w) h
      have hgrow : ∀ w' ∈ r.2, w' ∈ (watchUser app sid r w).2 := by
        intro w' hw'
        unfold watchUser
        dsimp only
        split
        · exact List.mem_append_left _ hw'
        · exact hw'
      refine ⟨?_, fun w' hw' => hkept w' (hgrow w' hw')⟩
      rcases hcases with hbefore | ⟨happ, hin⟩ | hin
      · by_cases heq : key = (app, w)
        · subst heq
          by_cases hempty : r.1.watchersOf (app, w) = ∅
          · -- the first watcher of the user, reported here
            have hnew : w ∈ (watchUser app sid r w).2 := by simp [watchUser, hempty]
            exact .inr (.inr ⟨rfl, hkept w hnew⟩)
          · exact .inl hempty
        · left
          have hsame : (watchUser app sid r w).1.watchersOf key = r.1.watchersOf key := by
            simp only [watchUser, watchersOf, Hash.hget_hset_ne _ _ heq]
          rwa [hsame] at hbefore
      · exact .inr (.inr ⟨happ, hkept _ hin⟩)
      · exact .inr (.inr hin)
  obtain ⟨hcases, -⟩ := hloop watched ((reg.unwatch app sid).1, []) hafter
  rcases hcases with hbefore | ⟨-, hin⟩ | hin
  · left
    intro hnone
    apply hbefore
    rw [← Finset.subset_empty, ← hnone]
    exact watchersOf_unwatch reg app sid key
  · exact absurd hin List.not_mem_nil
  · exact .inr hin

end WatchRegistry

end Pylon.Channel
