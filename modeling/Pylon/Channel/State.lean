import Pylon.Lib.Hash
import Pylon.Lib.Roster
import Mathlib.Data.Finset.Sort
import Mathlib.Data.String.Basic

/-!
# One channel's node-local state

`ChannelState` is a node's view of one `(app, channel)`: its subscribers and,
for presence, the distinct users with their connections in join order. A
mailbox is named by its socket, so a subscriber is its presence member, if
any. Two caches ride along: the fan-out snapshot of the membership, and the
acknowledgement frame of the current roster, kept here as the event it
encodes.

`Tracks` relates the state to the abstract roster: `add` is `Roster.join`,
`remove` is `Roster.leave`. `user_info` is a JSON value compared with the
value type's own `==`.
-/

namespace Pylon.Channel

open Pylon.Lib

variable {Sid Info : Type} [DecidableEq Sid] [BEq Info]

/-- A set of names in their order, the one walk of it that is fixed. -/
def inOrder (names : Finset String) : List String := names.sort (· ≤ ·)

@[simp] theorem mem_inOrder {names : Finset String} {name : String} :
    name ∈ inOrder names ↔ name ∈ names :=
  Finset.mem_sort (· ≤ ·)

theorem toFinset_inOrder (names : Finset String) : (inOrder names).toFinset = names :=
  Finset.sort_toFinset names (· ≤ ·)

/-- A presence channel member, as parsed from the client's `channel_data`. -/
structure PresenceMember (Info : Type) where
  userId : String
  userInfo : Info
  deriving DecidableEq

/-- One distinct user: the shown `user_info`, and the live connections in join
order. -/
structure PresenceUser (Sid Info : Type) where
  userInfo : Info
  conns : List Sid
  deriving DecidableEq

/-- The `subscription_succeeded` event of a presence channel, before encoding. -/
structure RosterFrame (Info : Type) where
  channel : String
  count : Nat
  ids : List String
  hash : List (String × Info)
  deriving DecidableEq

/-- A channel's subscribers and presence users, with their caches. -/
structure ChannelState (Sid Info : Type) where
  subscribers : Hash Sid (Option (PresenceMember Info))
  users : Hash String (PresenceUser Sid Info)
  snapshot : Option (Hash Sid (Option (PresenceMember Info)))
  rosterFrame : Option (RosterFrame Info)

structure PresenceJoin (Info : Type) where
  firstForUser : Bool
  rosterFrame : RosterFrame Info
  member : PresenceMember Info

structure PresenceLeave where
  lastForUser : Bool
  userId : String

/-- A `ServerEvent` as a fan-out sees it: encoded already, or still to be. -/
inductive FanoutEvent (Event Frame : Type) where
  | raw (frame : Frame)
  | other (event : Event)

/-- A channel's half of a broadcast. -/
structure Fanout (Sid Info Frame : Type) where
  frame : Frame
  snapshot : Hash Sid (Option (PresenceMember Info))
  except : Option Sid
  parallel : Bool

/-- `PARALLEL_THRESHOLD`. -/
def parallelThreshold : Nat := 256

namespace ChannelState

/-- `ChannelState::default`. -/
def empty : ChannelState Sid Info := ⟨∅, ∅, none, none⟩

/-- `reseat_user_info`: show the `user_info` of `oldest`. -/
def reseatUserInfo (st : ChannelState Sid Info) (userId : String) (oldest : Sid) :
    ChannelState Sid Info :=
  match (st.subscribers.hget oldest).join with
  | none => st
  | some m =>
    match st.users.hget userId with
    | none => st
    | some user =>
      if user.userInfo == m.userInfo then st
      else
        { st with
          users := st.users.hset userId { user with userInfo := m.userInfo }
          rosterFrame := none }

/-- Drop `sid` from the connections of `userId`; returns the oldest one left. -/
def retainConns (users : Hash String (PresenceUser Sid Info)) (userId : String) (sid : Sid) :
    Hash String (PresenceUser Sid Info) × Option Sid :=
  match users.hget userId with
  | some u =>
    let conns := u.conns.filter fun s => s ≠ sid
    (users.hset userId { u with conns := conns }, conns.head?)
  | none => (users, none)

/-- `ChannelState::remove`. -/
def remove (st : ChannelState Sid Info) (sid : Sid) :
    ChannelState Sid Info × Option PresenceLeave :=
  match st.subscribers.hget sid with
  | none => (st, none)
  | some none =>
    ({ st with subscribers := st.subscribers.hdel sid, snapshot := none }, none)
  | some (some member) =>
    let r := retainConns st.users member.userId sid
    let st' : ChannelState Sid Info :=
      { st with subscribers := st.subscribers.hdel sid, snapshot := none, users := r.1 }
    match r.2 with
    | none =>
      ({ st' with users := st'.users.hdel member.userId, rosterFrame := none },
        some ⟨true, member.userId⟩)
    | some oldest => (st'.reseatUserInfo member.userId oldest, some ⟨false, member.userId⟩)

/-- `roster`: one walk of the users in id order. -/
def roster (st : ChannelState Sid Info) (channel : String) : RosterFrame Info :=
  let ids := inOrder st.users.hkeys
  { channel := channel
    count := st.users.hlen
    ids := ids
    hash := ids.filterMap fun id => (st.users.hget id).map fun u => (id, u.userInfo) }

/-- `cached_roster_frame`: the cached frame, built if there is none. -/
def cachedRosterFrame (st : ChannelState Sid Info) (channel : String) :
    ChannelState Sid Info × RosterFrame Info :=
  match st.rosterFrame with
  | some frame => (st, frame)
  | none => ({ st with rosterFrame := some (st.roster channel) }, st.roster channel)

/-- The users table after `sid` joins as `m`, and whether it is the user's only
connection. -/
def pushConn (users : Hash String (PresenceUser Sid Info)) (m : PresenceMember Info) (sid : Sid) :
    Hash String (PresenceUser Sid Info) × Bool :=
  let u := (users.hget m.userId).getD ⟨m.userInfo, []⟩
  let conns := u.conns ++ [sid]
  (users.hset m.userId { u with conns := conns }, conns.length == 1)

/-- `ChannelState::add`: a re-add replaces the socket's previous membership. -/
def add (st : ChannelState Sid Info) (channel : String) (sid : Sid)
    (member : Option (PresenceMember Info)) :
    ChannelState Sid Info × Option (PresenceJoin Info) :=
  let st := (st.remove sid).1
  let st' : ChannelState Sid Info :=
    { st with subscribers := st.subscribers.hset sid member, snapshot := none }
  match member with
  | none => (st', none)
  | some m =>
    let r := pushConn st.users m sid
    let st' : ChannelState Sid Info :=
      { st' with users := r.1, rosterFrame := if r.2 then none else st'.rosterFrame }
    let c := st'.cachedRosterFrame channel
    (c.1, some ⟨r.2, c.2, m⟩)

/-- `ChannelState::fanout`: the frame, encoded once, and the membership
snapshot, taken now if there is none. -/
def fanout {Event Frame : Type} (encode : Event → Frame) (st : ChannelState Sid Info)
    (event : FanoutEvent Event Frame) (except : Option Sid) :
    ChannelState Sid Info × Fanout Sid Info Frame :=
  let snapshot := st.snapshot.getD st.subscribers
  ({ st with snapshot := some snapshot },
    { frame := match event with
        | .raw frame => frame
        | .other event => encode event
      snapshot := snapshot
      except := except
      parallel := parallelThreshold < st.subscribers.hlen })

/-- `subscription_count`. -/
def subscriptionCount (st : ChannelState Sid Info) : Nat := st.subscribers.hlen

/-- `is_empty`. -/
def isEmpty (st : ChannelState Sid Info) : Bool := st.subscribers.hlen == 0

/-- `user_count`: `None` when there is no presence user. -/
def userCount (st : ChannelState Sid Info) : Option Nat :=
  if st.users.hlen = 0 then none else some st.users.hlen

/-- `members`: the distinct users, in id order. -/
def members (st : ChannelState Sid Info) : List (PresenceMember Info) :=
  (inOrder st.users.hkeys).filterMap fun id =>
    (st.users.hget id).map fun u => ⟨id, u.userInfo⟩

end ChannelState

/-! ## The state tracks a roster -/

/-- The users-table entry of a user whose seats are `ss`: the connections in
join order, and a `user_info` equal to the oldest one's. -/
def UserRow : Option (PresenceUser Sid Info) → List (Seat Sid String Info) → Prop
  | none, ss => ss = []
  | some u, ss =>
    u.conns = ss.map Seat.conn ∧ ∃ s, ss.head? = some s ∧ (u.userInfo == s.info) = true

/-- The subscribers' presence members and the users table hold the roster `r`. -/
structure Tracks (st : ChannelState Sid Info) (r : Roster Sid String Info) : Prop where
  members : ∀ c, (st.subscribers.hget c).join = (r.seatOf c).map fun s => ⟨s.user, s.info⟩
  users : ∀ u, UserRow (st.users.hget u) (r.of u)

theorem Tracks.empty : Tracks (.empty : ChannelState Sid Info) .empty where
  members := fun c => by simp [ChannelState.empty, Roster.seatOf, Roster.empty]
  users := fun u => by simp [ChannelState.empty, UserRow]

variable {st : ChannelState Sid Info} {r : Roster Sid String Info} {userId : String}

/-- After a reseat to the oldest seat the user's row shows it. -/
theorem reseatUserInfo_row [ReflBEq Info] {s : Seat Sid String Info}
    {ss : List (Seat Sid String Info)} {u : PresenceUser Sid Info}
    (hmem : (st.subscribers.hget s.conn).join = some ⟨s.user, s.info⟩)
    (hu : st.users.hget userId = some u) (hconns : u.conns = (s :: ss).map Seat.conn) :
    UserRow ((st.reseatUserInfo userId s.conn).users.hget userId) (s :: ss) := by
  unfold ChannelState.reseatUserInfo
  rw [hmem]
  dsimp only
  rw [hu]
  dsimp only
  split
  next heq =>
    rw [hu]
    exact ⟨hconns, s, rfl, heq⟩
  next =>
    rw [Hash.hget_hset_self]
    exact ⟨hconns, s, rfl, ReflBEq.rfl⟩

theorem reseatUserInfo_subscribers (st : ChannelState Sid Info) (userId : String) (oldest : Sid) :
    (st.reseatUserInfo userId oldest).subscribers = st.subscribers := by
  unfold ChannelState.reseatUserInfo
  repeat' split
  all_goals rfl

theorem reseatUserInfo_users_ne (st : ChannelState Sid Info) {u : String} (oldest : Sid)
    (hne : u ≠ userId) : (st.reseatUserInfo userId oldest).users.hget u = st.users.hget u := by
  unfold ChannelState.reseatUserInfo
  repeat' split
  all_goals first | rfl | exact Hash.hget_hset_ne _ _ hne

@[simp] theorem remove_subscribers (st : ChannelState Sid Info) (sid : Sid) :
    (st.remove sid).1.subscribers = st.subscribers.hdel sid := by
  unfold ChannelState.remove
  split
  next h => exact (Hash.hdel_of_hget_none h).symm
  next => rfl
  next =>
    dsimp only
    split
    · rfl
    · exact reseatUserInfo_subscribers _ _ _

omit [BEq Info] in
theorem userOf_eq_member {c : Sid}
    (hmem : (st.subscribers.hget c).join = (r.seatOf c).map fun s => ⟨s.user, s.info⟩) :
    r.userOf c = ((st.subscribers.hget c).join).map PresenceMember.userId := by
  rw [hmem, Option.map_map]
  rfl

/-- Retaining the other connections of a seated user leaves the seats the
roster keeps. -/
theorem Tracks.retainConns (h : Tracks st r) {sid : Sid} (hof : r.userOf sid = some userId) :
    ∃ u, st.users.hget userId = some u ∧
      ChannelState.retainConns st.users userId sid =
        (st.users.hset userId { u with conns := ((r.leave sid).of userId).map Seat.conn },
          (((r.leave sid).of userId).map Seat.conn).head?) := by
  obtain ⟨seat, hin, -, huser⟩ := Roster.userOf_eq_some.mp hof
  have hrow := h.users userId
  cases hu : st.users.hget userId with
  | none =>
    -- the departing seat is one of the user's, so the row exists
    have hseat : seat ∈ r.of userId := Roster.mem_of.mpr ⟨hin, huser⟩
    rw [hu] at hrow
    rw [show r.of userId = [] from hrow] at hseat
    exact absurd hseat (by simp)
  | some u =>
    rw [hu] at hrow
    have hleft : u.conns.filter (fun s => s ≠ sid) =
        ((r.leave sid).of userId).map Seat.conn := by
      rw [hrow.1, Roster.of_leave, List.filter_map]
      rfl
    exact ⟨u, rfl, by simp only [ChannelState.retainConns, hu, hleft]⟩

/-- A user's row goes with the last of their connections. -/
theorem Tracks.remove_member [ReflBEq Info] (h : Tracks st r) {sid : Sid} {m : PresenceMember Info}
    (hget : st.subscribers.hget sid = some (some m)) (hof : r.userOf sid = some m.userId)
    (hmembers : ∀ c, ((st.subscribers.hdel sid).hget c).join =
      ((r.leave sid).seatOf c).map fun s => ⟨s.user, s.info⟩) :
    (∀ u, UserRow ((st.remove sid).1.users.hget u) ((r.leave sid).of u)) ∧
      (st.remove sid).2 = some ⟨(r.leave sid).count m.userId == 0, m.userId⟩ := by
  obtain ⟨u, hu, hretain⟩ := h.retainConns hof
  have hother : ∀ v, v ≠ m.userId → (r.leave sid).of v = r.of v := by
    intro v hv
    refine Roster.of_leave_ne ?_
    rw [hof]
    exact fun heq => hv (Option.some_inj.mp heq).symm
  simp only [ChannelState.remove, hget, hretain]
  cases hss : (r.leave sid).of m.userId with
  | nil =>
    refine ⟨?_, by simp [Roster.count, hss]⟩
    intro v
    by_cases hv : v = m.userId
    · rw [hv, hss]
      simp [UserRow]
    · rw [hother v hv]
      simpa [Hash.hget_hdel_ne _ hv] using h.users v
  | cons s =>
    refine ⟨?_, by simp [Roster.count, hss]⟩
    intro v
    have hold := hmembers s.conn
    rw [Roster.seatOf_of_mem_of (by rw [hss]; exact List.mem_cons_self)] at hold
    by_cases hv : v = m.userId
    · rw [hv, hss]
      exact reseatUserInfo_row hold (Hash.hget_hset_self _ _ _) rfl
    · rw [hother v hv]
      simp only [List.map_cons, List.head?_cons]
      rw [reseatUserInfo_users_ne _ _ hv, Hash.hget_hset_ne _ _ hv]
      exact h.users v

/-- The leave a removal reports, and the roster left behind. -/
theorem Tracks.remove [ReflBEq Info] (h : Tracks st r) (sid : Sid) :
    Tracks (st.remove sid).1 (r.leave sid) ∧
      (st.remove sid).2 = (r.userOf sid).map fun u => ⟨(r.leave sid).count u == 0, u⟩ := by
  have hof := userOf_eq_member (h.members sid)
  have hmembers : ∀ c, ((st.subscribers.hdel sid).hget c).join =
      ((r.leave sid).seatOf c).map fun s => ⟨s.user, s.info⟩ := by
    intro c
    rw [Hash.hget_hdel, Roster.seatOf_leave]
    split
    · rfl
    · exact h.members c
  cases hsub : (st.subscribers.hget sid).join with
  | none =>
    -- no member: the presence users are untouched
    have hnone : r.userOf sid = none := by rw [hof, hsub]; rfl
    have hremove : (st.remove sid).1.users = st.users ∧ (st.remove sid).2 = none := by
      unfold ChannelState.remove
      split
      next => exact ⟨rfl, rfl⟩
      next => exact ⟨rfl, rfl⟩
      next m hm => rw [hm] at hsub; exact absurd hsub (by simp)
    refine ⟨⟨?_, ?_⟩, ?_⟩
    · rw [remove_subscribers]
      exact hmembers
    · intro u
      rw [hremove.1, Roster.leave_of_userOf_none hnone]
      exact h.users u
    · rw [hremove.2, hnone]
      rfl
  | some m =>
    have hget : st.subscribers.hget sid = some (some m) := Option.join_eq_some_iff.mp hsub
    rw [hsub] at hof
    obtain ⟨husers, hreport⟩ := h.remove_member hget hof hmembers
    refine ⟨⟨?_, husers⟩, ?_⟩
    · rw [remove_subscribers]
      exact hmembers
    · rw [hreport, hof]
      rfl

omit [DecidableEq Sid] in
theorem pushConn_row [ReflBEq Info] {users : Hash String (PresenceUser Sid Info)}
    {m : PresenceMember Info} {ss : List (Seat Sid String Info)}
    (hrow : UserRow (users.hget m.userId) ss) (sid : Sid) :
    UserRow ((ChannelState.pushConn users m sid).1.hget m.userId)
        (ss ++ [⟨sid, m.userId, m.userInfo⟩]) ∧
      (ChannelState.pushConn users m sid).2 = (ss.length == 0) := by
  unfold ChannelState.pushConn
  cases hu : users.hget m.userId with
  | none =>
    rw [hu] at hrow
    rw [show ss = [] from hrow]
    simp [UserRow]
  | some =>
    rw [hu] at hrow
    obtain ⟨hconns, s, hhead, hinfo⟩ := hrow
    cases ss with
    | nil => exact absurd hhead (by simp)
    | cons s' =>
      obtain rfl : s' = s := by simpa using hhead
      simp [UserRow, hconns, hinfo]

omit [DecidableEq Sid] [BEq Info] in
@[simp] theorem cachedRosterFrame_users (st : ChannelState Sid Info) (channel : String) :
    (st.cachedRosterFrame channel).1.users = st.users ∧
      (st.cachedRosterFrame channel).1.subscribers = st.subscribers := by
  unfold ChannelState.cachedRosterFrame
  split <;> exact ⟨rfl, rfl⟩

@[simp] theorem add_subscribers (st : ChannelState Sid Info) (channel : String) (sid : Sid)
    (member : Option (PresenceMember Info)) :
    (st.add channel sid member).1.subscribers = (st.subscribers.hdel sid).hset sid member := by
  cases member with
  | none | some => simp [ChannelState.add]

/-- A member's join: the roster gains its seat last, and the report says
whether it is the user's only one. -/
theorem Tracks.add [ReflBEq Info] (h : Tracks st r) (channel : String) (sid : Sid)
    (m : PresenceMember Info) :
    Tracks (st.add channel sid (some m)).1 (r.join sid m.userId m.userInfo) ∧
      (st.add channel sid (some m)).2.map PresenceJoin.firstForUser =
        some ((r.leave sid).count m.userId == 0) := by
  obtain ⟨hleft, -⟩ := h.remove sid
  obtain ⟨hrow, hfirst⟩ := pushConn_row (hleft.users m.userId) sid
  refine ⟨⟨?_, ?_⟩, ?_⟩
  · intro c
    rw [add_subscribers, Roster.seatOf_join, Hash.hget_hset]
    split
    · rfl
    next hc =>
      rw [Hash.hget_hdel_ne _ hc]
      exact h.members c
  · intro u
    rw [Roster.of_join]
    simp only [ChannelState.add, cachedRosterFrame_users]
    by_cases hu : u = m.userId
    · rw [hu, if_pos rfl]
      exact hrow
    · rw [if_neg hu, List.append_nil]
      unfold ChannelState.pushConn
      rw [Hash.hget_hset_ne _ _ hu]
      exact hleft.users u
  · simp only [ChannelState.add, hfirst, Option.map_some]
    rfl

end Pylon.Channel
