import Pylon.Lib.Trace
import Pylon.Channel.State
import Pylon.Redis.PresenceRoster

/-!
# Cluster presence refines single-node presence

Feed the same joins and leaves, in script order, to the Redis tables and to
one `ChannelState`. The Lua side keeps join order in a packed string it
prunes lazily; the Rust side keeps vectors it reseats eagerly. Both hold the
same abstract roster (`Twin.Agree`), so counts, shown `user_info` and the
first/last edges coincide.

The scripts store the serialized `user_info`; `encode` is that serializer.
The node-local state skips a rewrite when the new value is `==` to the old
one, so the shown values agree up to the value type's own equality.
-/

namespace Pylon.Redis

open Pylon.Lib Pylon.Channel

variable {Info : Type} [BEq Info] (encode : Info → Text)

/-- A `PRESENCE_JOIN` or `PRESENCE_LEAVE` run, and the same operation on the
`ChannelState`. -/
inductive TwinAct (Info : Type)
  | join (user : String) (userInfo : Info) (token : Text)
  | leave (user : String) (token : Text)

/-- The cluster tables and one node-local state side by side, with the user
each connected token joined as. -/
structure Twin (Info : Type) where
  tables : Presence String
  state : ChannelState Text Info
  held : Hash Text String

namespace Twin

def empty : Twin Info := ⟨.empty, .empty, ∅⟩

/-- Run one operation on both sides. -/
def step (cap : Int) (channel : String) (s : Twin Info) : TwinAct Info → Twin Info
  | .join user userInfo token =>
    { tables := (presenceJoin s.tables user (encode userInfo) token cap).1
      state := (s.state.add channel token (some ⟨user, userInfo⟩)).1
      held := s.held.hset token user }
  | .leave user token =>
    { tables := (presenceLeave s.tables user token).1
      state := (s.state.remove token).1
      held := s.held.hdel token }

/-- Each token alternates join and leave of one user, no join meets the cap,
and no text contains a newline. -/
def Alternating (cap : Int) (s : Twin Info) : TwinAct Info → Prop
  | .join user userInfo token =>
    s.held.hget token = none ∧ ¬ s.tables.Refuses user cap ∧
      '\n' ∉ token ∧ '\n' ∉ encode userInfo
  | .leave user token => s.held.hget token = some user

instance (cap : Int) (s : Twin Info) : ∀ a, Decidable (s.Alternating encode cap a)
  | .join _ _ _ => inferInstanceAs (Decidable (_ ∧ _ ∧ _ ∧ _))
  | .leave _ _ => inferInstanceAs (Decidable (_ = _))

/-- Both sides hold one roster. -/
def Agree (s : Twin Info) : Prop :=
  ∃ r : Roster Text String Info, Represents s.tables (r.mapInfo encode) ∧ Tracks s.state r ∧
    ∀ token, s.held.hget token = r.userOf token

theorem agree_empty : Agree encode (empty : Twin Info) :=
  ⟨.empty, Represents.empty, Tracks.empty, fun token => by simp [empty]⟩

theorem agree_step [ReflBEq Info] (cap : Int) (channel : String) (s : Twin Info)
    (a : TwinAct Info) (hs : s.Agree encode) (ha : s.Alternating encode cap a) :
    (s.step encode cap channel a).Agree encode := by
  obtain ⟨r, hrep, htracks, hheld⟩ := hs
  cases a with
  | join user userInfo token =>
    obtain ⟨hnew, hroom, htoken, hinfo⟩ := ha
    have hmem : s.tables.presmembers.hget token = none := by
      rw [hrep.members, Roster.userOf_mapInfo, ← hheld, hnew]
    refine ⟨r.join token user userInfo, ?_, (htracks.add channel token ⟨user, userInfo⟩).1, ?_⟩
    · rw [Roster.mapInfo_join]
      exact hrep.join hroom hmem htoken hinfo
    · intro token'
      rw [Roster.userOf_join, ← hheld]
      exact Hash.hget_hset _ _ _ _
  | leave user token =>
    have hmem : s.tables.presmembers.hget token = some user := by
      rw [hrep.members, Roster.userOf_mapInfo, ← hheld]
      exact ha
    refine ⟨r.leave token, ?_, (htracks.remove token).1, ?_⟩
    · rw [Roster.mapInfo_leave]
      exact hrep.leave hmem
    · intro token'
      rw [Roster.userOf_leave, ← hheld]
      exact Hash.hget_hdel _ _ _

/-! ## What agreement gives -/

/-- `presinfo[u]` is the serialized value of the user's oldest surviving
connection, and the state shows an equal value; or both have nothing. -/
def SameInfo (s : Twin Info) (u : String) : Prop :=
  match s.tables.presinfo.hget u, s.state.users.hget u with
  | none, none => True
  | some text, some user =>
    ∃ oldest m, user.conns.head? = some oldest ∧
      s.state.subscribers.hget oldest = some (some m) ∧
      text = encode m.userInfo ∧ (user.userInfo == m.userInfo) = true
  | _, _ => False

/-- `JOIN` returns 1 exactly when the state reports the user's first
connection; `LEAVE` returns 0 exactly when it reports the last. -/
def SameEdge (cap : Int) (channel : String) (s : Twin Info) : TwinAct Info → Prop
  | .join user userInfo token =>
    (presenceJoin s.tables user (encode userInfo) token cap).2 = 1 ↔
      (s.state.add channel token (some ⟨user, userInfo⟩)).2.map PresenceJoin.firstForUser =
        some true
  | .leave user token =>
    (presenceLeave s.tables user token).2 = 0 ↔
      (s.state.remove token).2.map PresenceLeave.lastForUser = some true

variable {s : Twin Info}

theorem Agree.count (h : s.Agree encode) (u : String) :
    s.tables.presusers.hget u =
      (s.state.users.hget u).map fun user => (user.conns.length : Int) := by
  obtain ⟨r, hrep, htracks, -⟩ := h
  have hrow := htracks.users u
  rw [(hrep.rows u).users, Roster.of_mapInfo]
  cases hu : s.state.users.hget u with
  | none =>
    rw [hu] at hrow
    rw [show r.of u = [] from hrow]
    rfl
  | some =>
    rw [hu] at hrow
    obtain ⟨hconns, seat, hhead, -⟩ := hrow
    have hne : r.of u ≠ [] := by
      intro h
      rw [h] at hhead
      exact absurd hhead (by simp)
    simp [hne, hconns]

theorem Agree.info (h : s.Agree encode) (u : String) : s.SameInfo encode u := by
  obtain ⟨r, hrep, htracks, -⟩ := h
  have hrow := htracks.users u
  unfold SameInfo
  rw [(hrep.rows u).info, Roster.of_mapInfo, List.head?_map, Option.map_map]
  cases hu : s.state.users.hget u with
  | none =>
    rw [hu] at hrow
    rw [show r.of u = [] from hrow]
    trivial
  | some =>
    rw [hu] at hrow
    obtain ⟨hconns, seat, hhead, hinfo⟩ := hrow
    have hin : seat ∈ r.of u := List.mem_of_mem_head? hhead
    have hmem := htracks.members seat.conn
    rw [Roster.seatOf_of_mem_of hin] at hmem
    rw [hhead]
    refine ⟨seat.conn, ⟨seat.user, seat.info⟩, ?_, ?_, rfl, hinfo⟩
    · rw [hconns, List.head?_map, hhead]
      rfl
    · exact Option.join_eq_some_iff.mp hmem

/-- Both sides report the same edge. -/
theorem Agree.edge [ReflBEq Info] (h : s.Agree encode) {cap : Int} (channel : String)
    (a : TwinAct Info) (ha : s.Alternating encode cap a) : s.SameEdge encode cap channel a := by
  obtain ⟨r, hrep, htracks, hheld⟩ := h
  have hcount : ∀ (r : Roster Text String Info) u, (r.mapInfo encode).count u = r.count u := by
    intro r u
    rw [Roster.count, Roster.of_mapInfo, List.length_map, Roster.count]
  cases a with
  | join user userInfo token =>
    obtain ⟨hnew, hroom, -, -⟩ := ha
    have hleave : r.leave token = r := Roster.leave_of_userOf_none (hheld token ▸ hnew)
    have hfirst := (htracks.add channel token ⟨user, userInfo⟩).2
    rw [hleave] at hfirst
    simp only [SameEdge, hrep.join_reply hroom, hcount, hfirst]
    simp
  | leave user token =>
    have hof : r.userOf token = some user := (hheld token).symm.trans ha
    have hmem : s.tables.presmembers.hget token = some user := by
      rw [hrep.members, Roster.userOf_mapInfo, hof]
    have hlast := (htracks.remove token).2
    rw [hof] at hlast
    simp only [SameEdge, hrep.leave_reply hmem, ← Roster.mapInfo_leave, hcount, hlast]
    simp

end Twin

/-- After every alternating run the refcounts are the state's connection
counts, the shown `user_info` agree, and the next operation's script reply
and state report name the same edge. -/
theorem presence_refines_channelState [ReflBEq Info] (cap : Int) (channel : String)
    (as : List (TwinAct Info))
    (has : Along (Twin.step encode cap channel) (Twin.Alternating encode cap) .empty as) :
    let s := run (Twin.step encode cap channel) .empty as
    (∀ u, s.tables.presusers.hget u =
        (s.state.users.hget u).map fun user => (user.conns.length : Int)) ∧
      (∀ u, s.SameInfo encode u) ∧
      (∀ a, s.Alternating encode cap a → s.SameEdge encode cap channel a) := by
  have hagree := has.invariant (Twin.agree_step encode cap channel) (Twin.agree_empty encode)
  exact ⟨hagree.count, hagree.info, hagree.edge encode channel⟩

/-- Two users, a rejoin and an out-of-order departure. -/
theorem presence_refines_channelState_rejoin :
    let s := run (Twin.step (fun b : Bool => if b then ['t'] else ['f']) (-1) "presence-c") .empty
      [.join "u" true ['a'], .join "u" false ['b'], .join "v" true ['c'], .leave "u" ['a'],
        .join "u" true ['a'], .leave "u" ['b']]
    (∀ u, s.tables.presusers.hget u =
        (s.state.users.hget u).map fun user => (user.conns.length : Int)) ∧
      (∀ u, s.SameInfo (fun b : Bool => if b then ['t'] else ['f']) u) ∧
      (∀ a, s.Alternating (fun b : Bool => if b then ['t'] else ['f']) (-1) a →
        s.SameEdge (fun b : Bool => if b then ['t'] else ['f']) (-1) "presence-c" a) :=
  presence_refines_channelState _ (-1) "presence-c" _ (by decide)

end Pylon.Redis
