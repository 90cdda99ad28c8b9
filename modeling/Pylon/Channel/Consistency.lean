import Pylon.Channel.Users
import Pylon.Lib.Trace

/-!
# A channel's state over whole histories

What the subscribers, the users table and the two caches of a `ChannelState` hold after any
sequence of adds and removes, with the caches read in between.

The measure is the `Attendance`: the sockets in the order of their latest add, each with the
member it was added as. Three things are carried along every history (`Sound`):

* the users table holds the roster the attendance seats (`Tracks`);
* the subscribers are the attendance;
* `Cached` — a cache that is filled holds what filling it now would give. The roster frame
  depends on the ids and the shown `user_info` only (`roster_congr`), so a connection that
  comes to or leaves a user with others keeps it, unless the user is reseated.
-/

namespace Pylon.Channel

open Pylon.Lib

variable {Sid Info Event Frame : Type}

/-! ## The caches -/

/-- Each cache that is filled holds what filling it now would give. -/
structure Cached (channel : String) (st : ChannelState Sid Info) : Prop where
  frame : ∀ frame, st.rosterFrame = some frame → frame = st.roster channel
  snapshot : ∀ subs, st.snapshot = some subs → subs = st.subscribers

variable {st : ChannelState Sid Info} {channel : String}

/-- The roster shows only the ids and their `user_info`. -/
theorem roster_congr {st' : ChannelState Sid Info} (channel : String)
    (h : ∀ u, (st'.users.hget u).map PresenceUser.userInfo =
      (st.users.hget u).map PresenceUser.userInfo) :
    st'.roster channel = st.roster channel := by
  have hkeys : st'.users.hkeys = st.users.hkeys := by
    ext u
    rw [Hash.mem_hkeys, Hash.mem_hkeys, ne_eq, ne_eq, ← Option.map_eq_none_iff, h,
      Option.map_eq_none_iff]
  have hrow : ∀ u, (st'.users.hget u).map (fun user => (u, user.userInfo)) =
      (st.users.hget u).map fun user => (u, user.userInfo) := by
    intro u
    have := congrArg (Option.map (Prod.mk u)) (h u)
    simpa [Option.map_map, Function.comp_def] using this
  unfold ChannelState.roster Hash.hlen
  simp only [hkeys, hrow]

theorem Cached.empty (channel : String) : Cached channel (.empty : ChannelState Sid Info) where
  frame := fun _ h => absurd h (by simp [ChannelState.empty])
  snapshot := fun _ h => absurd h (by simp [ChannelState.empty])

/-- A state that keeps the roster and drops the snapshot may keep the frame. -/
theorem Cached.of_roster {st' : ChannelState Sid Info} (h : Cached channel st)
    (hsnap : st'.snapshot = none) (hframe : st'.rosterFrame = st.rosterFrame)
    (hroster : st'.roster channel = st.roster channel) : Cached channel st' where
  frame := fun frame hf => by rw [hroster]; exact h.frame frame (hframe ▸ hf)
  snapshot := fun _ hs => absurd (hsnap ▸ hs) (by simp)

theorem Cached.of_none (hsnap : st.snapshot = none) (hframe : st.rosterFrame = none) :
    Cached channel st where
  frame := fun _ hf => absurd (hframe ▸ hf) (by simp)
  snapshot := fun _ hs => absurd (hsnap ▸ hs) (by simp)

theorem Cached.cachedRosterFrame (h : Cached channel st) :
    Cached channel (st.cachedRosterFrame channel).1 := by
  unfold ChannelState.cachedRosterFrame
  split
  · exact h
  · exact ⟨fun frame hf => (Option.some.inj hf).symm, h.snapshot⟩

theorem Cached.fanout (h : Cached channel st) (encode : Event → Frame)
    (event : FanoutEvent Event Frame) (except : Option Sid) :
    Cached channel (st.fanout encode event except).1 := by
  refine ⟨h.frame, fun subs hs => ?_⟩
  obtain rfl : st.snapshot.getD st.subscribers = subs := Option.some.inj hs
  cases hsnap : st.snapshot with
  | none => rfl
  | some old => exact h.snapshot old hsnap

/-- A connection that is not its user's first changes no `user_info`. -/
theorem pushConn_userInfo {users : Hash String (PresenceUser Sid Info)} {m : PresenceMember Info}
    {sid : Sid} (hmore : (ChannelState.pushConn users m sid).2 = false) (u : String) :
    ((ChannelState.pushConn users m sid).1.hget u).map PresenceUser.userInfo =
      (users.hget u).map PresenceUser.userInfo := by
  unfold ChannelState.pushConn at *
  cases hold : users.hget m.userId with
  | none => simp [hold] at hmore
  | some =>
    dsimp only
    rw [Hash.hget_hset]
    split
    next hu => rw [hu, hold]; rfl
    next => rfl

variable [DecidableEq Sid]

theorem retainConns_userInfo (users : Hash String (PresenceUser Sid Info)) (userId : String)
    (sid : Sid) (u : String) :
    ((ChannelState.retainConns users userId sid).1.hget u).map PresenceUser.userInfo =
      (users.hget u).map PresenceUser.userInfo := by
  unfold ChannelState.retainConns
  split
  next user huser =>
    rw [Hash.hget_hset]
    split
    next hu => rw [hu, huser]; rfl
    next => rfl
  next => rfl

section Changes

variable [BEq Info] {st : ChannelState Sid Info}

/-- Showing another `user_info` drops the frame; otherwise nothing changes. -/
theorem Cached.reseatUserInfo {channel : String} (h : Cached channel st)
    (hsnap : st.snapshot = none) (userId : String) (oldest : Sid) :
    Cached channel (st.reseatUserInfo userId oldest) := by
  unfold ChannelState.reseatUserInfo
  split
  · exact h
  · split
    · exact h
    · split
      · exact h
      · exact .of_none hsnap rfl

theorem Cached.remove {channel : String} (h : Cached channel st) (sid : Sid) :
    Cached channel (st.remove sid).1 := by
  unfold ChannelState.remove
  split
  · exact h
  · exact h.of_roster rfl rfl rfl
  next member _ =>
    dsimp only
    split
    · exact .of_none rfl rfl
    · refine Cached.reseatUserInfo ?_ rfl _ _
      exact h.of_roster rfl rfl
        (roster_congr channel (retainConns_userInfo st.users member.userId sid))

theorem Cached.add {channel : String} (h : Cached channel st) (sid : Sid)
    (member : Option (PresenceMember Info)) : Cached channel (st.add channel sid member).1 := by
  have hleft := h.remove sid
  cases member with
  | none => exact hleft.of_roster rfl rfl rfl
  | some m =>
    unfold ChannelState.add
    dsimp only
    refine Cached.cachedRosterFrame ?_
    cases hfirst : (ChannelState.pushConn (st.remove sid).1.users m sid).2 with
    | true => exact .of_none rfl rfl
    | false => exact hleft.of_roster rfl rfl (roster_congr channel (pushConn_userInfo hfirst))

end Changes

/-! ## Histories -/

/-- One use of a channel's state; the last two fill a cache. -/
inductive StateAct (Sid Info Event Frame : Type) where
  | add (sid : Sid) (member : Option (PresenceMember Info))
  | remove (sid : Sid)
  | rosterFrame
  | fanout (event : FanoutEvent Event Frame) (except : Option Sid)

/-- The sockets of a channel in the order of their latest add, with their current members. -/
abbrev Attendance (Sid Info : Type) := List (Sid × Option (PresenceMember Info))

namespace Attendance

def leave (l : Attendance Sid Info) (sid : Sid) : Attendance Sid Info :=
  l.filter fun p => p.1 ≠ sid

def attend (l : Attendance Sid Info) : StateAct Sid Info Event Frame → Attendance Sid Info
  | .add sid member => l.leave sid ++ [(sid, member)]
  | .remove sid => l.leave sid
  | .rosterFrame => l
  | .fanout _ _ => l

/-- What `sid` was last added as, if it is still there. -/
def current (l : Attendance Sid Info) (sid : Sid) : Option (Option (PresenceMember Info)) :=
  (l.find? fun p => p.1 = sid).map Prod.snd

/-- The seat a presence member takes. -/
def seat (p : Sid × Option (PresenceMember Info)) : Option (Seat Sid String Info) :=
  p.2.map fun m => ⟨p.1, m.userId, m.userInfo⟩

/-- The seats of the sockets whose current member is `u`, in the order of their latest add. -/
def seatsOf (l : Attendance Sid Info) (u : String) : List (Seat Sid String Info) :=
  (l.filterMap seat).filter fun s => s.user = u

/-- How many sockets have `u` as their current member. -/
def headcount (l : Attendance Sid Info) (u : String) : Nat := (l.seatsOf u).length

theorem current_leave (l : Attendance Sid Info) (sid c : Sid) :
    (l.leave sid).current c = if c = sid then none else l.current c := by
  unfold current leave
  rw [List.find?_filter]
  split
  next hc =>
    rw [List.find?_eq_none.mpr, Option.map_none]
    intro p _
    by_cases hp : p.1 = c <;> simp [hp, hc]
  next hc =>
    congr 2
    funext p
    by_cases hp : p.1 = c <;> simp [hp, hc]

theorem current_add (l : Attendance Sid Info) (sid c : Sid)
    (member : Option (PresenceMember Info)) :
    Attendance.current (l.leave sid ++ [(sid, member)]) c =
      if c = sid then some member else l.current c := by
  have hleave := current_leave l sid c
  unfold current at hleave ⊢
  rw [List.find?_append, Option.map_or, hleave]
  by_cases hc : c = sid
  · simp [hc]
  · simp [hc, Ne.symm hc]

/-- The roster `r` seats the presence members of `l`. -/
def Seats (r : Roster Sid String Info) (l : Attendance Sid Info) : Prop :=
  r.seats = l.filterMap seat

variable {r : Roster Sid String Info} {l : Attendance Sid Info}

theorem Seats.leave (h : Seats r l) (sid : Sid) : Seats (r.leave sid) (l.leave sid) := by
  unfold Seats Roster.leave Roster.restrict Attendance.leave at *
  dsimp only
  rw [h, List.filter_filterMap, List.filterMap_filter]
  refine List.filterMap_congr fun p _ => ?_
  obtain ⟨c, _ | m⟩ := p
  · simp [seat]
  · by_cases hc : c = sid <;> simp [seat, hc]

theorem Seats.add_some (h : Seats r l) (sid : Sid) (m : PresenceMember Info) :
    Seats (r.join sid m.userId m.userInfo) (l.leave sid ++ [(sid, some m)]) := by
  have hleave : (r.leave sid).seats = (l.leave sid).filterMap seat := h.leave sid
  simp [Seats, Roster.join, hleave, seat]

theorem Seats.add_none (h : Seats r l) (sid : Sid) :
    Seats (r.leave sid) (l.leave sid ++ [(sid, none)]) := by
  have hleave : (r.leave sid).seats = (l.leave sid).filterMap seat := h.leave sid
  simp [Seats, hleave, seat]

omit [DecidableEq Sid] in
theorem Seats.of_eq (h : Seats r l) (u : String) : r.of u = l.seatsOf u := by
  rw [Roster.of, h, seatsOf]

omit [DecidableEq Sid] in
theorem Seats.count_eq (h : Seats r l) (u : String) : r.count u = l.headcount u := by
  rw [Roster.count, h.of_eq, headcount]

end Attendance

variable [BEq Info]

/-- The state of `channel` after one use of it. -/
def stateStep (encode : Event → Frame) (channel : String) (st : ChannelState Sid Info) :
    StateAct Sid Info Event Frame → ChannelState Sid Info
  | .add sid member => (st.add channel sid member).1
  | .remove sid => (st.remove sid).1
  | .rosterFrame => (st.cachedRosterFrame channel).1
  | .fanout event except => (st.fanout encode event except).1

/-! ## Whole histories -/

/-- The state holds the attendance `l`, and its caches are good. -/
structure Sound (channel : String) (st : ChannelState Sid Info) (l : Attendance Sid Info) :
    Prop where
  seated : ∃ r, Tracks st r ∧ Attendance.Seats r l
  subscribers : ∀ sid, st.subscribers.hget sid = l.current sid
  cached : Cached channel st

theorem Sound.empty (channel : String) : Sound channel (.empty : ChannelState Sid Info) [] where
  seated := ⟨.empty, .empty, rfl⟩
  subscribers := fun _ => by simp [ChannelState.empty, Attendance.current]
  cached := .empty channel

variable {l : Attendance Sid Info}

theorem Sound.remove [ReflBEq Info] (h : Sound channel st l) (sid : Sid) :
    Sound channel (st.remove sid).1 (l.leave sid) := by
  obtain ⟨r, htracks, hseats⟩ := h.seated
  refine ⟨⟨r.leave sid, (htracks.remove sid).1, hseats.leave sid⟩, fun c => ?_, h.cached.remove sid⟩
  rw [remove_subscribers, Hash.hget_hdel, Attendance.current_leave, h.subscribers]

theorem Sound.add [ReflBEq Info] (h : Sound channel st l) (sid : Sid)
    (member : Option (PresenceMember Info)) :
    Sound channel (st.add channel sid member).1 (l.leave sid ++ [(sid, member)]) := by
  obtain ⟨r, htracks, hseats⟩ := h.seated
  refine ⟨?_, fun c => ?_, h.cached.add sid member⟩
  · cases member with
    | none => exact ⟨r.leave sid, htracks.add_none channel sid, hseats.add_none sid⟩
    | some m => exact ⟨_, (htracks.add channel sid m).1, hseats.add_some sid m⟩
  · rw [add_subscribers, Hash.hget_hset, Attendance.current_add, Hash.hget_hdel, h.subscribers]
    split <;> rfl

/-- Each operation on a channel is one change of its attendance. -/
theorem Sound.step [ReflBEq Info] (h : Sound channel st l) (encode : Event → Frame)
    (a : StateAct Sid Info Event Frame) :
    Sound channel (stateStep encode channel st a) (l.attend a) := by
  cases a with
  | add sid member => exact h.add sid member
  | remove sid => exact h.remove sid
  | rosterFrame =>
    obtain ⟨r, htracks, hseats⟩ := h.seated
    obtain ⟨husers, hsubs⟩ := cachedRosterFrame_users st channel
    refine ⟨⟨r, ⟨?_, ?_⟩, hseats⟩, ?_, h.cached.cachedRosterFrame⟩
    · intro c
      rw [stateStep, hsubs]
      exact htracks.members c
    · intro u
      rw [stateStep, husers]
      exact htracks.users u
    · intro sid
      rw [stateStep, hsubs]
      exact h.subscribers sid
  | fanout event except =>
    obtain ⟨r, htracks, hseats⟩ := h.seated
    exact ⟨⟨r, ⟨htracks.members, htracks.users⟩, hseats⟩, h.subscribers,
      h.cached.fanout encode event except⟩

theorem Sound.run [ReflBEq Info] (encode : Event → Frame)
    (as : List (StateAct Sid Info Event Frame)) :
    ∀ {st : ChannelState Sid Info} {l : Attendance Sid Info}, Sound channel st l →
      Sound channel (Lib.run (stateStep encode channel) st as)
        (Lib.run Attendance.attend l as) := by
  induction as with
  | nil => exact id
  | cons a _ ih => exact fun h => ih (h.step encode a)

/-- What the state shows of the attendance `l`. -/
structure Consistent (channel : String) (st : ChannelState Sid Info) (l : Attendance Sid Info) :
    Prop where
  /-- The subscribers are the sockets that are there, with their current members. -/
  subscribers : ∀ sid, st.subscribers.hget sid = l.current sid
  /-- A user's connections are the sockets whose current member they are, in order. -/
  conns : ∀ u user, st.users.hget u = some user → user.conns = (l.seatsOf u).map Seat.conn
  /-- A user shows the `user_info` of the first of them. -/
  userInfo : ∀ u user, st.users.hget u = some user →
    ∃ s, (l.seatsOf u).head? = some s ∧ (user.userInfo == s.info) = true
  /-- Nobody is listed without a connection. -/
  nonempty : ∀ u user, st.users.hget u = some user → user.conns ≠ []
  /-- Nobody with a connection is missing. -/
  missing : ∀ u, st.users.hget u = none → l.seatsOf u = []
  /-- A roster frame that is kept is the one that would be encoded now. -/
  frame : ∀ frame, st.rosterFrame = some frame → frame = st.roster channel
  /-- A snapshot that is kept is the current membership. -/
  snapshot : ∀ subs, st.snapshot = some subs → subs = st.subscribers

theorem Sound.consistent (h : Sound channel st l) : Consistent channel st l := by
  obtain ⟨r, htracks, hseats⟩ := h.seated
  have hrow : ∀ u, UserRow (st.users.hget u) (l.seatsOf u) := by
    intro u
    rw [← hseats.of_eq]
    exact htracks.users u
  have hsome : ∀ u user, st.users.hget u = some user →
      user.conns = (l.seatsOf u).map Seat.conn ∧
        ∃ s, (l.seatsOf u).head? = some s ∧ (user.userInfo == s.info) = true := by
    intro u user huser
    have := hrow u
    rwa [huser] at this
  refine ⟨h.subscribers, fun u user hu => (hsome u user hu).1,
    fun u user hu => (hsome u user hu).2, ?_, ?_, h.cached.frame, h.cached.snapshot⟩
  · intro u user huser hnil
    obtain ⟨hconns, s, hhead, -⟩ := hsome u user huser
    rw [hnil, eq_comm, List.map_eq_nil_iff] at hconns
    simp [hconns] at hhead
  · intro u hu
    have := hrow u
    rwa [hu] at this

/-- A removal reports the last connection of exactly the user it takes from one to none. -/
theorem Sound.last_iff [ReflBEq Info] (h : Sound channel st l) (sid : Sid) (u : String) :
    (∃ leave, (st.remove sid).2 = some leave ∧ leave.userId = u ∧ leave.lastForUser = true) ↔
      l.headcount u = 1 ∧ (l.leave sid).headcount u = 0 := by
  obtain ⟨r, htracks, hseats⟩ := h.seated
  rw [(htracks.remove sid).2, ← hseats.count_eq, ← (hseats.leave sid).count_eq]
  constructor
  · rintro ⟨leave, hleave, rfl, hlast⟩
    obtain ⟨u, hof, rfl⟩ := Option.map_eq_some_iff.mp hleave
    have hzero : (r.leave sid).count u = 0 := by simpa using hlast
    have hone : r.count u = 1 := by rw [← Roster.count_leave hof, hzero]
    exact ⟨hone, hzero⟩
  · rintro ⟨hone, hzero⟩
    have hof : r.userOf sid = some u := by
      by_contra hne
      rw [Roster.count, Roster.of_leave_ne hne, ← Roster.count] at hzero
      omega
    exact ⟨_, by rw [hof]; rfl, rfl, by simpa using hzero⟩

/-- An addition reports the first connection of exactly the user it takes from none, once
the socket's earlier membership is gone, to one. -/
theorem Sound.first_iff [ReflBEq Info] (h : Sound channel st l) (sid : Sid)
    (member : Option (PresenceMember Info)) (u : String) :
    (∃ join, (st.add channel sid member).2 = some join ∧ join.member.userId = u ∧
        join.firstForUser = true) ↔
      (l.leave sid).headcount u = 0 ∧
        Attendance.headcount (l.leave sid ++ [(sid, member)]) u = 1 := by
  obtain ⟨r, htracks, hseats⟩ := h.seated
  rw [← (hseats.leave sid).count_eq]
  cases member with
  | none =>
    rw [← (hseats.add_none sid).count_eq]
    constructor
    · rintro ⟨join, hjoin, -⟩
      exact absurd hjoin (by simp [ChannelState.add])
    · rintro ⟨hzero, hone⟩
      omega
  | some m =>
    rw [← (hseats.add_some sid m).count_eq]
    have hcount : (r.join sid m.userId m.userInfo).count u =
        (r.leave sid).count u + if u = m.userId then 1 else 0 := by
      rw [Roster.count, Roster.of_join, List.length_append, ← Roster.count]
      split <;> rfl
    obtain ⟨join, hjoin, hfirst⟩ := Option.map_eq_some_iff.mp (htracks.add channel sid m).2
    have hmember : join.member = m := by
      rw [← Option.some.inj hjoin]
    rw [hcount, hjoin]
    constructor
    · rintro ⟨reported, hreported, rfl, htrue⟩
      obtain rfl := Option.some.inj hreported
      rw [htrue] at hfirst
      have hzero : (r.leave sid).count m.userId = 0 := by simpa using hfirst.symm
      rw [hmember, hzero, if_pos rfl]
      exact ⟨rfl, rfl⟩
    · rintro ⟨hzero, hone⟩
      have hu : u = m.userId := by
        by_contra hne
        rw [if_neg hne] at hone
        omega
      exact ⟨join, rfl, by rw [hmember, hu], by rw [hfirst, ← hu, hzero]; rfl⟩

/-- After any history of adds and removes, whatever caches were filled on the way, the
users table, the subscribers and the caches show the attendance; and the next removal or
addition reports a user's last or first connection exactly on the step from one to none
or from none to one. An addition first removes the socket: the report of that half, which
`add` drops, is `remove`'s. -/
theorem channel_state_consistent [ReflBEq Info] (encode : Event → Frame) (channel : String)
    (as : List (StateAct Sid Info Event Frame)) :
    let st := Lib.run (stateStep encode channel) (.empty : ChannelState Sid Info) as
    let l := Lib.run Attendance.attend ([] : Attendance Sid Info) as
    Consistent channel st l ∧ ∀ sid u,
      ((∃ leave, (st.remove sid).2 = some leave ∧ leave.userId = u ∧ leave.lastForUser = true) ↔
        l.headcount u = 1 ∧ (l.leave sid).headcount u = 0) ∧
      ∀ member,
        (∃ join, (st.add channel sid member).2 = some join ∧ join.member.userId = u ∧
            join.firstForUser = true) ↔
          (l.leave sid).headcount u = 0 ∧
            Attendance.headcount (l.leave sid ++ [(sid, member)]) u = 1 := by
  have hsound := (Sound.empty channel).run encode as
  exact ⟨hsound.consistent, fun sid u =>
    ⟨hsound.last_iff sid u, fun member => hsound.first_iff sid member u⟩⟩

/-- Socket 1 joins `ann`, who is there on socket 0 with other data; the membership and the
roster are read; then socket 0 comes back as `bob`, so `ann` shows what socket 1 presented. -/
theorem channel_state_consistent_reseat :
    let as : List (StateAct Nat Nat Unit Unit) :=
      [.add 0 (some ⟨"ann", 7⟩), .add 1 (some ⟨"ann", 8⟩), .fanout (.other ()) none,
        .rosterFrame, .add 0 (some ⟨"bob", 9⟩)]
    let st := Lib.run (stateStep id "presence-room") (.empty : ChannelState Nat Nat) as
    let l := Lib.run Attendance.attend ([] : Attendance Nat Nat) as
    l.seatsOf "ann" = [⟨1, "ann", 8⟩] ∧ Consistent "presence-room" st l ∧
      ∃ leave, (st.remove 1).2 = some leave ∧ leave.userId = "ann" ∧ leave.lastForUser = true :=
  ⟨by decide,
    (channel_state_consistent id "presence-room" _).1,
    ((channel_state_consistent id "presence-room" _).2 1 "ann").1.mpr ⟨by decide, by decide⟩⟩

end Pylon.Channel
