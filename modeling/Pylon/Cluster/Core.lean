import Pylon.Channel.Registry
import Pylon.Redis.Scripts
import Mathlib.Logic.Function.Basic

/-!
# A node of the cluster

A node keeps its own registries; what it tells the cluster goes through one
bridge. A worker's operation has two halves:

* **the local half** — `subscribe`, `unsubscribe`, `signin`, `signout` on the
  registries, at once, yielding the command for the bridge;
* **the cluster half** — the bridge's Redis operations for that command, in
  order (`program`), each awaited before the next. A presence join's verdict
  decides what follows it.

Redis holds, per channel and per user, the keys of `Redis.Scripts`; a
connection's token is its node's id and its socket id.
-/

namespace Pylon.Cluster

open Pylon.Lib Pylon.Redis Pylon.Channel

variable {Info : Type} [BEq Info]

/-- What the bridge is configured with. -/
structure Config (Info : Type) where
  nodeId : Text
  maxPresenceMembers : Nat
  /-- the serializer of `user_info` -/
  encode : Info → Text

/-- `member_token`. -/
def memberToken (nodeId sid : Text) : Text := nodeId ++ ':' :: sid

theorem memberToken_inj {nodeId sid sid' : Text}
    (h : memberToken nodeId sid = memberToken nodeId sid') : sid = sid' := by
  simpa [memberToken] using h

/-! ## Redis -/

/-- Whatever has a membership hash: a channel (`occ`) or a user (`usr`). -/
inductive Subject
  | channel (key : Key)
  | user (key : Key)
  deriving DecidableEq

/-- The keys of all channels and users, and the `apps` index. -/
structure Keyspace where
  channels : Key → ChannelKeys String
  users : Key → Membership
  apps : Finset String

namespace Keyspace

def empty : Keyspace := ⟨fun _ => .empty, fun _ => .empty, ∅⟩

def membership (ks : Keyspace) : Subject → Membership
  | .channel key => (ks.channels key).toMembership
  | .user key => ks.users key

def setMembership (ks : Keyspace) (m : Membership) : Subject → Keyspace
  | .channel key =>
    { ks with
      channels := Function.update ks.channels key { ks.channels key with toMembership := m } }
  | .user key => { ks with users := Function.update ks.users key m }

def setPresence (ks : Keyspace) (key : Key) (t : Presence String) : Keyspace :=
  { ks with channels := Function.update ks.channels key { ks.channels key with pres := t } }

variable (ks : Keyspace)

@[simp] theorem membership_setMembership (m : Membership) (s s' : Subject) :
    (ks.setMembership m s).membership s' = if s' = s then m else ks.membership s' := by
  cases s with
  | channel key =>
    cases s' with
    | channel key' =>
      by_cases h : key' = key
      · subst h; simp [setMembership, membership]
      · simp [setMembership, membership, h]
    | user => simp [setMembership, membership]
  | user key =>
    cases s' with
    | channel => simp [setMembership, membership]
    | user key' =>
      by_cases h : key' = key
      · subst h; simp [setMembership, membership]
      · simp [setMembership, membership, h]

@[simp] theorem membership_setPresence (key : Key) (t : Presence String) (s : Subject) :
    (ks.setPresence key t).membership s = ks.membership s := by
  cases s with
  | channel key' =>
    by_cases h : key' = key
    · subst h; simp [setPresence, membership]
    · simp [setPresence, membership, h]
  | user => rfl

@[simp] theorem pres_setPresence (key key' : Key) (t : Presence String) :
    ((ks.setPresence key t).channels key').pres = if key' = key then t
      else (ks.channels key').pres := by
  by_cases h : key' = key
  · subst h; simp [setPresence]
  · simp [setPresence, h]

@[simp] theorem pres_setMembership (m : Membership) (s : Subject) (key : Key) :
    ((ks.setMembership m s).channels key).pres = (ks.channels key).pres := by
  cases s with
  | channel key' =>
    by_cases h : key = key'
    · subst h; simp [setMembership]
    · simp [setMembership, h]
  | user => rfl

end Keyspace

/-! ## The local half -/

/-- The commands a worker fires at the bridge. -/
inductive ClusterCmd (Info : Type)
  | subscribe (key : Key) (sid : Text) (nodeFirst : Bool)
  | unsubscribe (key : Key) (sid : Text) (nodeLast : Bool)
  | presenceSubscribe (key : Key) (member : PresenceMember Info) (sid : Text) (nodeFirst : Bool)
  | presenceLeave (key : Key) (userId : String) (sid : Text) (nodeLast : Bool)
  | signin (key : Key) (sid : Text) (nodeFirst : Bool)
  | signout (key : Key) (sid : Text) (nodeLast : Bool)

/-- The node's registries, the pub/sub channels it is subscribed to, and Redis. -/
structure Core (Info : Type) where
  registry : Registry Text Info
  users : UserRegistry Text
  tracked : Finset Subject
  redis : Keyspace

namespace Core

def empty : Core Info := ⟨.empty, .empty, ∅, .empty⟩

/-- The node has a local member of the subject: `has_local_subscribers` for a
channel, `is_user_online` for a user. -/
def anyLocal (c : Core Info) : Subject → Bool
  | .channel key => ((c.registry.channels.hget key).map (·.subscriptionCount)).getD 0 != 0
  | .user key => ((c.users.users.hget key).getD ∅).card != 0

/-- The socket is a local member of the subject. -/
def isLocal (c : Core Info) (sid : Text) : Subject → Bool
  | .channel key => c.registry.has key sid
  | .user key => c.users.has key sid

/-- `ClusterAdapter::subscribe`. -/
def subscribe (c : Core Info) (key : Key) (sid : Text) (member : Option (PresenceMember Info)) :
    Core Info × ClusterCmd Info :=
  let r := c.registry.subscribe key sid member
  let nodeFirst := r.2.subscriptionCount == 1
  ({ c with registry := r.1 },
    match member with
    | some m => .presenceSubscribe key m sid nodeFirst
    | none => .subscribe key sid nodeFirst)

/-- `ClusterAdapter::unsubscribe`: a leave is a presence leave when the local
registry says so. -/
def unsubscribe (c : Core Info) (key : Key) (sid : Text) : Core Info × ClusterCmd Info :=
  let r := c.registry.unsubscribe key sid
  let nodeLast := r.2.subscriptionCount == 0
  ({ c with registry := r.1 },
    match r.2.presence with
    | some leave => .presenceLeave key leave.userId sid nodeLast
    | none => .unsubscribe key sid nodeLast)

/-- `ClusterAdapter::signin_user`. -/
def signin (c : Core Info) (key : Key) (sid : Text) : Core Info × ClusterCmd Info :=
  let r := c.users.signin key sid
  ({ c with users := r.1 }, .signin key sid r.2)

/-- `ClusterAdapter::signout_user`. -/
def signout (c : Core Info) (key : Key) (sid : Text) : Core Info × ClusterCmd Info :=
  let r := c.users.signout key sid
  ({ c with users := r.1 }, .signout key sid r.2)

end Core

/-! ## The cluster half -/

/-- One operation of the bridge. `refuse` and `acknowledge` send into the joining
connection's mailbox and touch nothing here. -/
inductive BridgeOp (Info : Type)
  | subChannel (s : Subject)
  | checkLast (s : Subject)
  | unsubChannel (s : Subject)
  | membershipJoin (s : Subject) (sid : Text)
  | indexApp (app : String)
  | unsubscribe (key : Key) (sid : Text)
  | userSignout (key : Key) (sid : Text)
  | presenceJoin (key : Key) (member : PresenceMember Info) (sid : Text)
  | refuse (key : Key) (sid : Text)
  | undoJoin (key : Key) (sid : Text)
  | acknowledge (key : Key) (sid : Text)
  | presenceLeave (key : Key) (userId : String) (sid : Text)

/-- The operations `handle_cmd` awaits for a command, up to the first verdict. -/
def program : ClusterCmd Info → List (BridgeOp Info)
  | .subscribe key sid nodeFirst =>
    (if nodeFirst then [.subChannel (.channel key)] else []) ++
      [.membershipJoin (.channel key) sid, .indexApp key.1]
  | .unsubscribe key sid nodeLast =>
    (if nodeLast then [.checkLast (.channel key)] else []) ++ [.unsubscribe key sid]
  | .presenceSubscribe key member sid nodeFirst =>
    (if nodeFirst then [.subChannel (.channel key)] else []) ++ [.presenceJoin key member sid]
  | .presenceLeave key userId sid nodeLast =>
    .presenceLeave key userId sid ::
      ((if nodeLast then [.checkLast (.channel key)] else []) ++ [.unsubscribe key sid])
  | .signin key sid nodeFirst =>
    (if nodeFirst then [.subChannel (.user key)] else []) ++
      [.indexApp key.1, .membershipJoin (.user key) sid]
  | .signout key sid nodeLast =>
    (if nodeLast then [.checkLast (.user key)] else []) ++ [.userSignout key sid]

/-- Run one operation; returns what the bridge awaits next because of it. -/
def execOp (cfg : Config Info) (expireAt : Nat) (c : Core Info) :
    BridgeOp Info → Core Info × List (BridgeOp Info)
  | .subChannel s => ({ c with tracked := insert s c.tracked }, [])
  | .checkLast s => (c, if c.anyLocal s then [] else [.unsubChannel s])
  | .unsubChannel s => ({ c with tracked := c.tracked.erase s }, [])
  | .membershipJoin s sid =>
    let m := (membershipJoin (c.redis.membership s) (memberToken cfg.nodeId sid) expireAt).1
    ({ c with redis := c.redis.setMembership m s }, [])
  | .indexApp app => ({ c with redis.apps := insert app c.redis.apps }, [])
  | .unsubscribe key sid =>
    let m := (Redis.unsubscribe (c.redis.membership (.channel key)) (memberToken cfg.nodeId sid)).1
    ({ c with redis := c.redis.setMembership m (.channel key) }, [])
  | .userSignout key sid =>
    let m := (Redis.userSignout (c.redis.membership (.user key)) (memberToken cfg.nodeId sid)).1
    ({ c with redis := c.redis.setMembership m (.user key) }, [])
  | .presenceJoin key member sid =>
    let r := presenceJoin (c.redis.channels key).pres member.userId (cfg.encode member.userInfo)
      (memberToken cfg.nodeId sid) cfg.maxPresenceMembers
    ({ c with redis := c.redis.setPresence key r.1 },
      if r.2 < 0 then [.refuse key sid, .undoJoin key sid]
      else [.membershipJoin (.channel key) sid, .indexApp key.1, .acknowledge key sid])
  | .refuse _ _ => (c, [])
  | .undoJoin key sid =>
    let r := c.registry.unsubscribe key sid
    ({ c with registry := r.1 },
      if r.2.subscriptionCount == 0 then [.unsubChannel (.channel key)] else [])
  | .acknowledge _ _ => (c, [])
  | .presenceLeave key userId sid =>
    let t := (presenceLeave (c.redis.channels key).pres userId (memberToken cfg.nodeId sid)).1
    ({ c with redis := c.redis.setPresence key t }, [])

end Pylon.Cluster
