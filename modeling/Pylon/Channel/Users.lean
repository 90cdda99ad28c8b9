import Pylon.Channel.Registry

/-!
# Who is in a presence channel

The distinct users of a channel, as the registry holds them, and what a subscribe or an
unsubscribe does to them.

* **bounds** — a subscribe adds at most the joining user, an unsubscribe adds nobody;
* **edges** — `first_for_user` and `last_for_user` tell exactly when a user comes or
  goes. This needs the users table to agree with the subscribers (`Rostered`), which
  every operation keeps.
-/

namespace Pylon.Channel

open Pylon.Lib

variable {Sid Info : Type} [DecidableEq Sid] [BEq Info]

/-! ## One channel -/

namespace ChannelState

variable (st : ChannelState Sid Info)

theorem users_reseatUserInfo (userId : String) (oldest : Sid) :
    (st.reseatUserInfo userId oldest).users.hkeys = st.users.hkeys := by
  unfold reseatUserInfo
  split
  · rfl
  · split
    · rfl
    next user huser =>
      split
      · rfl
      · rw [Hash.hkeys_hset, Finset.insert_eq_self]
        exact Hash.mem_hkeys_of_hget huser

omit [BEq Info] in
theorem users_retainConns (users : Hash String (PresenceUser Sid Info)) (userId : String)
    (sid : Sid) : (retainConns users userId sid).1.hkeys = users.hkeys := by
  unfold retainConns
  split
  next user huser =>
    rw [Hash.hkeys_hset, Finset.insert_eq_self]
    exact Hash.mem_hkeys_of_hget huser
  next => rfl

theorem users_remove (sid : Sid) : (st.remove sid).1.users.hkeys ⊆ st.users.hkeys := by
  unfold remove
  split
  · exact Finset.Subset.refl _
  · exact Finset.Subset.refl _
  next member _ =>
    dsimp only
    split
    · rw [Hash.hkeys_hdel, users_retainConns]
      exact Finset.erase_subset _ _
    · rw [users_reseatUserInfo, users_retainConns]

theorem users_add (channel : String) (sid : Sid) (m : PresenceMember Info) :
    (st.add channel sid (some m)).1.users.hkeys ⊆ insert m.userId st.users.hkeys := by
  simp only [add, cachedRosterFrame_users, pushConn, Hash.hkeys_hset]
  exact Finset.insert_subset_insert _ (users_remove st sid)

omit [DecidableEq Sid] [BEq Info] in
theorem any_members (u : String) :
    st.members.any (fun m => m.userId == u) = true ↔ u ∈ st.users.hkeys := by
  unfold members
  rw [List.any_eq_true]
  constructor
  · rintro ⟨m, hm, heq⟩
    obtain ⟨id, hid, hrow⟩ := List.mem_filterMap.mp hm
    obtain ⟨user, -, rfl⟩ := Option.map_eq_some_iff.mp hrow
    rw [← beq_iff_eq.mp heq]
    exact mem_inOrder.mp hid
  · intro hu
    obtain ⟨user, huser⟩ := Option.ne_none_iff_exists'.mp (Hash.mem_hkeys.mp hu)
    refine ⟨⟨u, user.userInfo⟩, List.mem_filterMap.mpr ⟨u, mem_inOrder.mpr hu, ?_⟩,
      beq_self_eq_true u⟩
    rw [huser]
    rfl

end ChannelState

variable {st : ChannelState Sid Info} {r : Roster Sid String Info}

/-- A user is in the table while one of their connections has a seat. -/
theorem Tracks.mem_users (h : Tracks st r) (u : String) : u ∈ st.users.hkeys ↔ r.count u ≠ 0 := by
  have hrow := h.users u
  rw [Hash.mem_hkeys, Roster.count]
  cases hget : st.users.hget u with
  | none =>
    rw [hget] at hrow
    simp [show r.of u = [] from hrow]
  | some =>
    rw [hget] at hrow
    obtain ⟨-, s, hhead, -⟩ := hrow
    cases hseats : r.of u with
    | nil => simp [hseats] at hhead
    | cons => simp

theorem Tracks.of_isEmpty (h : Tracks st r) (hempty : st.isEmpty = true) :
    Tracks (.empty : ChannelState Sid Info) r := by
  have hsubs : st.subscribers = ∅ := by
    rw [← Hash.hlen_eq_zero]
    simpa [ChannelState.isEmpty] using hempty
  have hseats : r = .empty := by
    ext1
    refine List.eq_nil_iff_forall_not_mem.mpr fun s hs => ?_
    have hseat := h.members s.conn
    rw [Roster.seatOf_eq_some.mpr ⟨hs, rfl⟩, hsubs] at hseat
    simp at hseat
  rw [hseats]
  exact .empty

theorem Tracks.add_none [ReflBEq Info] (h : Tracks st r) (channel : String) (sid : Sid) :
    Tracks (st.add channel sid none).1 (r.leave sid) := by
  obtain ⟨hleft, -⟩ := h.remove sid
  refine ⟨fun c => ?_, hleft.users⟩
  rw [add_subscribers, Hash.hget_hset]
  split
  next hc => rw [hc, Roster.seatOf_leave, if_pos rfl]; rfl
  next hc =>
    rw [← remove_subscribers]
    exact hleft.members c

namespace Registry

/-! ## The users of a channel -/

/-- The state of a channel; one that is not there is empty. -/
def state (reg : Registry Sid Info) (key : Key) : ChannelState Sid Info :=
  (reg.channels.hget key).getD .empty

/-- The distinct users of a channel. -/
def usersIn (reg : Registry Sid Info) (key : Key) : Finset String := (reg.state key).users.hkeys

omit [DecidableEq Sid] [BEq Info] in
theorem userCount_getD (reg : Registry Sid Info) (key : Key) :
    (reg.userCount key).getD 0 = (reg.usersIn key).card := by
  unfold userCount usersIn state
  cases reg.channels.hget key with
  | none => rfl
  | some =>
    simp only [Option.bind_some, Option.getD_some, ChannelState.userCount]
    split
    next hzero => exact hzero.symm
    next => rfl

omit [DecidableEq Sid] [BEq Info] in
theorem any_presenceMembers (reg : Registry Sid Info) (key : Key) (u : String) :
    (reg.presenceMembers key).any (fun m => m.userId == u) = true ↔ u ∈ reg.usersIn key := by
  unfold presenceMembers usersIn state
  cases reg.channels.hget key with
  | none => simp [ChannelState.empty]
  | some st => exact st.any_members u

theorem state_subscribe (reg : Registry Sid Info) (key key' : Key) (sid : Sid)
    (member : Option (PresenceMember Info)) :
    (reg.subscribe key sid member).1.state key' =
      if key' = key then ((reg.state key).add key.2 sid member).1 else reg.state key' := by
  unfold subscribe state
  rw [Hash.hget_hset]
  split <;> rfl

/-- An emptied channel reads as the empty one. -/
theorem state_unsubscribe (reg : Registry Sid Info) (key key' : Key) (sid : Sid) :
    (reg.unsubscribe key sid).1.state key' =
      if key' = key then
        if ((reg.state key).remove sid).1.isEmpty then .empty else ((reg.state key).remove sid).1
      else reg.state key' := by
  unfold unsubscribe state
  cases hget : reg.channels.hget key with
  | none =>
    by_cases hkey : key' = key
    · rw [if_pos hkey, hkey]
      simp [hget, ChannelState.remove, ChannelState.empty]
    · rw [if_neg hkey]
  | some =>
    dsimp only [Option.getD_some]
    by_cases hkey : key' = key
    · rw [if_pos hkey, hkey]
      split
      · rw [Hash.hget_hdel_self]; rfl
      · rw [Hash.hget_hset_self]; rfl
    · rw [if_neg hkey]
      split
      · rw [Hash.hget_hdel_ne _ hkey]
      · rw [Hash.hget_hset_ne _ _ hkey]

omit [DecidableEq Sid] [BEq Info] in
theorem state_rosterFrame (reg : Registry Sid Info) (key key' : Key) :
    ((reg.rosterFrame key).1.state key').users = (reg.state key').users ∧
      ((reg.rosterFrame key).1.state key').subscribers = (reg.state key').subscribers := by
  unfold rosterFrame state
  cases hget : reg.channels.hget key with
  | none => exact ⟨rfl, rfl⟩
  | some st =>
    dsimp only
    split
    · rw [Hash.hget_hset]
      by_cases hkey : key' = key
      · rw [if_pos hkey, hkey, hget]
        exact cachedRosterFrame_users st key.2
      · rw [if_neg hkey]
        exact ⟨rfl, rfl⟩
    · exact ⟨rfl, rfl⟩

theorem usersIn_subscribe_ne (reg : Registry Sid Info) {key key' : Key} (hne : key' ≠ key)
    (sid : Sid) (member : Option (PresenceMember Info)) :
    (reg.subscribe key sid member).1.usersIn key' = reg.usersIn key' := by
  unfold usersIn
  rw [state_subscribe, if_neg hne]

theorem usersIn_subscribe (reg : Registry Sid Info) (key : Key) (sid : Sid)
    (m : PresenceMember Info) :
    (reg.subscribe key sid (some m)).1.usersIn key ⊆ insert m.userId (reg.usersIn key) := by
  unfold usersIn
  rw [state_subscribe, if_pos rfl]
  exact ChannelState.users_add _ key.2 sid m

theorem usersIn_subscribe_none (reg : Registry Sid Info) (key key' : Key) (sid : Sid) :
    (reg.subscribe key sid none).1.usersIn key' ⊆ reg.usersIn key' := by
  unfold usersIn
  rw [state_subscribe]
  split
  next hkey =>
    rw [hkey]
    exact ChannelState.users_remove _ sid
  next => exact Finset.Subset.refl _

theorem usersIn_unsubscribe_ne (reg : Registry Sid Info) {key key' : Key} (hne : key' ≠ key)
    (sid : Sid) : (reg.unsubscribe key sid).1.usersIn key' = reg.usersIn key' := by
  unfold usersIn
  rw [state_unsubscribe, if_neg hne]

theorem usersIn_unsubscribe (reg : Registry Sid Info) (key key' : Key) (sid : Sid) :
    (reg.unsubscribe key sid).1.usersIn key' ⊆ reg.usersIn key' := by
  unfold usersIn
  rw [state_unsubscribe]
  split
  next hkey =>
    rw [hkey]
    split
    · exact Finset.empty_subset _
    · exact ChannelState.users_remove _ sid
  next => exact Finset.Subset.refl _

omit [DecidableEq Sid] [BEq Info] in
theorem usersIn_rosterFrame (reg : Registry Sid Info) (key key' : Key) :
    (reg.rosterFrame key).1.usersIn key' = reg.usersIn key' := by
  unfold usersIn
  rw [(state_rosterFrame reg key key').1]

/-! ## Edges -/

/-- Every channel holds a roster. -/
def Rostered (reg : Registry Sid Info) : Prop := ∀ key, ∃ r, Tracks (reg.state key) r

theorem Rostered.empty : (empty : Registry Sid Info).Rostered := fun _ => ⟨.empty, .empty⟩

variable {reg : Registry Sid Info}

theorem Rostered.rosterFrame (h : reg.Rostered) (key : Key) : (reg.rosterFrame key).1.Rostered := by
  intro key'
  obtain ⟨husers, hsubs⟩ := state_rosterFrame reg key key'
  obtain ⟨r, hr⟩ := h key'
  refine ⟨r, fun c => ?_, fun u => ?_⟩
  · rw [hsubs]
    exact hr.members c
  · rw [husers]
    exact hr.users u

section

variable [ReflBEq Info]

theorem Rostered.subscribe (h : reg.Rostered) (key : Key) (sid : Sid)
    (member : Option (PresenceMember Info)) : (reg.subscribe key sid member).1.Rostered := by
  intro key'
  rw [state_subscribe]
  split
  · obtain ⟨r, hr⟩ := h key
    cases member with
    | none => exact ⟨_, hr.add_none key.2 sid⟩
    | some m => exact ⟨_, (hr.add key.2 sid m).1⟩
  · exact h key'

theorem Rostered.unsubscribe (h : reg.Rostered) (key : Key) (sid : Sid) :
    (reg.unsubscribe key sid).1.Rostered := by
  intro key'
  rw [state_unsubscribe]
  split
  · obtain ⟨r, hr⟩ := h key
    have hleft := (hr.remove sid).1
    split
    next hempty => exact ⟨_, hleft.of_isEmpty hempty⟩
    next => exact ⟨_, hleft⟩
  · exact h key'

omit [BEq Info] [ReflBEq Info] in
theorem subscriber_eq (reg : Registry Sid Info) (key : Key) (sid : Sid) :
    reg.subscriber key sid = (reg.state key).subscribers.hget sid := by
  unfold subscriber state
  cases reg.channels.hget key with
  | none => simp [ChannelState.empty]
  | some => rfl

/-- A member's join. The connection must not be in the channel as another user: it would
take that user's seat, and nobody is told. -/
theorem Rostered.subscribe_member (h : reg.Rostered) {key : Key} {sid : Sid}
    {m : PresenceMember Info}
    (hown : ∀ m', reg.subscriber key sid = some (some m') → m'.userId = m.userId) :
    ∃ join, (reg.subscribe key sid (some m)).2.presence = some join ∧ join.member = m ∧
      (join.firstForUser = false → m.userId ∈ reg.usersIn key) ∧
      ∀ u, u ∈ (reg.subscribe key sid (some m)).1.usersIn key ↔
        u = m.userId ∨ u ∈ reg.usersIn key := by
  obtain ⟨r, hr⟩ := h key
  obtain ⟨hjoined, hfirst⟩ := hr.add key.2 sid m
  obtain ⟨join, hjoin, hreport⟩ := Option.map_eq_some_iff.mp hfirst
  have hseat : ∀ u, r.userOf sid = some u → u = m.userId := by
    intro u hu
    rw [userOf_eq_member (hr.members sid)] at hu
    obtain ⟨m', hm', rfl⟩ := Option.map_eq_some_iff.mp hu
    refine hown m' ?_
    rw [subscriber_eq]
    exact Option.join_eq_some_iff.mp hm'
  refine ⟨join, hjoin, ?_, fun hlater => ?_, fun u => ?_⟩
  · have hmember : ((reg.state key).add key.2 sid (some m)).2.map PresenceJoin.member =
        some m := rfl
    rw [hjoin] at hmember
    exact Option.some_inj.mp hmember
  · -- another connection of the user has a seat
    rw [usersIn, hr.mem_users]
    rw [hlater] at hreport
    have hleft : (r.leave sid).count m.userId ≠ 0 := fun hzero => by simp [hzero] at hreport
    refine fun hzero => hleft ?_
    rw [Roster.count, Roster.of_leave, List.length_eq_zero_iff.mp hzero]
    rfl
  · rw [usersIn, state_subscribe, if_pos rfl, hjoined.mem_users, usersIn, hr.mem_users,
      Roster.count, Roster.of_join]
    by_cases hu : u = m.userId
    · simp [hu]
    · have hother : (r.leave sid).of u = r.of u :=
        Roster.of_leave_ne fun hsid => hu (hseat u hsid)
      simp [hu, hother, Roster.count]

/-- A join without a member, by a connection that is no member. -/
theorem Rostered.subscribe_plain (h : reg.Rostered) {key : Key} {sid : Sid}
    (hown : ∀ m', reg.subscriber key sid ≠ some (some m')) :
    (reg.subscribe key sid none).2.presence = none ∧
      (reg.subscribe key sid none).1.usersIn key = reg.usersIn key := by
  obtain ⟨r, hr⟩ := h key
  refine ⟨rfl, ?_⟩
  ext1 u
  have hnone : r.userOf sid = none := by
    rw [userOf_eq_member (hr.members sid), Option.map_eq_none_iff]
    cases hjoin : ((reg.state key).subscribers.hget sid).join with
    | none => rfl
    | some m' =>
      refine absurd ?_ (hown m')
      rw [subscriber_eq]
      exact Option.join_eq_some_iff.mp hjoin
  rw [usersIn, state_subscribe, if_pos rfl, (hr.add_none key.2 sid).mem_users, usersIn,
    hr.mem_users, Roster.leave_of_userOf_none hnone]

/-- A leave takes a user away exactly when it reports their last connection. -/
theorem Rostered.mem_usersIn_unsubscribe (h : reg.Rostered) (key : Key) (sid : Sid) (u : String) :
    u ∈ (reg.unsubscribe key sid).1.usersIn key ↔
      u ∈ reg.usersIn key ∧ ∀ leave, (reg.unsubscribe key sid).2.presence = some leave →
        leave.lastForUser = true → leave.userId ≠ u := by
  obtain ⟨r, hr⟩ := h key
  obtain ⟨hleft, hreport⟩ := hr.remove sid
  have hafter : u ∈ (reg.unsubscribe key sid).1.usersIn key ↔ (r.leave sid).count u ≠ 0 := by
    rw [usersIn, state_unsubscribe, if_pos rfl]
    split
    next hempty => exact (hleft.of_isEmpty hempty).mem_users u
    next => exact hleft.mem_users u
  have hpresence : (reg.unsubscribe key sid).2.presence =
      (r.userOf sid).map fun u => ⟨(r.leave sid).count u == 0, u⟩ := by
    rw [← hreport]
    unfold Registry.unsubscribe state
    cases hget : reg.channels.hget key with
    | none => simp [ChannelState.remove, ChannelState.empty]
    | some => rfl
  rw [hafter, usersIn, hr.mem_users, hpresence]
  cases hof : r.userOf sid with
  | none => simp [Roster.leave_of_userOf_none hof]
  | some v =>
    by_cases hv : v = u
    · subst hv
      have hcount := Roster.count_leave hof
      simp only [Option.map_some, Option.some.injEq, forall_eq', beq_iff_eq, ne_eq,
        not_true_eq_false, imp_false]
      omega
    · have hother : (r.leave sid).of u = r.of u :=
        Roster.of_leave_ne fun heq => hv (Option.some_inj.mp (hof.symm.trans heq))
      simp [Roster.count, hother, hv]

end

end Registry

end Pylon.Channel
