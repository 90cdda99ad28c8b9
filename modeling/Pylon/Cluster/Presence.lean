import Pylon.Cluster.Core
import Pylon.Lib.Optimistic
import Pylon.Transport.Session

/-!
# Presence on a clustered node

The workers' sessions, the bridge and Redis together. A presence subscribe is
committed in the node's registry at once and then queued for the bridge
(`cluster/adapter.rs`), which may do something of its own between the two; the
bridge runs `PRESENCE_JOIN` and, when the cluster cap refuses, sends a
`subscription_error` and undoes the local join (`cluster/bridge.rs`); the session
gives the channel up when it drains that error.

Of any one socket the oldest command is queued, and taken, first. A socket belongs to one
worker, so its commands keep their order, while those of different workers may
reach the queue in another order than that of their local operations; taking the
command at the front is the case of a queue in that order.

Seen from one socket and one channel all of this is a `Place`, whose `FairRun`
matches every step (`place_step`).
-/

namespace Pylon.Cluster

open Pylon.Channel Pylon.Lib Pylon.Protocol Pylon.Redis Pylon.Transport Pylon.Ws

variable {Value : Type} [BEq Value]

/-- `posting` holds the commands whose local half is done and which are not in the queue
yet, `answers` the last answer to each connection's joins. -/
structure Hub (Value : Type) where
  core : Core Value
  posting : List (ClusterCmd Value) := []
  queue : List (ClusterCmd Value) := []
  running : List (BridgeOp Value) := []
  answers : Hash (Key × Text) Bool := ∅

/-- The local half of an operation; its command is still to be queued. -/
def Hub.issue (h : Hub Value) (r : Core Value × ClusterCmd Value) : Hub Value :=
  { h with core := r.1, posting := h.posting ++ [r.2] }

/-- The adapter of a clustered node. A repeated acknowledgement is asked of the
bridge, which answers into the mailbox later. -/
def clusterAdapter : Adapter (Hub Value) Value where
  subscribe h key sid member :=
    (h.issue (h.core.subscribe key sid member), (h.core.registry.subscribe key sid member).2)
  unsubscribe h key sid :=
    (h.issue (h.core.unsubscribe key sid), (h.core.registry.unsubscribe key sid).2)
  userCount h key := h.core.registry.userCount key
  presenceMembers h key := h.core.registry.presenceMembers key
  resendPresenceAck h _ _ := (h, none)
  signinUser h key sid := (h.issue (h.core.signin key sid), (h.core.users.signin key sid).2)
  signoutUser h key sid := (h.issue (h.core.signout key sid), (h.core.users.signout key sid).2)

/-- The connection a command is about. -/
def ClusterCmd.sid : ClusterCmd Value → Text
  | .subscribe _ sid _ | .unsubscribe _ sid _ | .presenceSubscribe _ _ sid _
  | .presenceLeave _ _ sid _ | .signin _ sid _ | .signout _ sid _ => sid

/-- The socket's oldest command enters the bridge's queue. -/
def Hub.enqueue (h : Hub Value) (sid : Text) : Hub Value :=
  match h.posting.find? (fun cmd => cmd.sid = sid) with
  | some cmd =>
    { h with
      posting := h.posting.eraseP (fun cmd => cmd.sid = sid)
      queue := h.queue ++ [cmd] }
  | none => h

/-- The bridge takes the socket's oldest command, once it is done with the last. -/
def Hub.take (h : Hub Value) (sid : Text) : Hub Value :=
  match h.running, h.queue.find? (fun cmd => cmd.sid = sid) with
  | [], some cmd =>
    { h with queue := h.queue.eraseP (fun cmd => cmd.sid = sid), running := program cmd }
  | _, _ => h

/-- The script's reply to a join, as `cluster_presence_join` reads it. -/
def Core.admits (cfg : Config Value) (c : Core Value) (key : Key) (member : PresenceMember Value)
    (sid : Text) : Bool :=
  decide (0 ≤ (presenceJoin (c.redis.channels key).pres member.userId
    (cfg.encode member.userInfo) (memberToken cfg.nodeId sid) cfg.maxPresenceMembers).2)

/-- The bridge runs the next operation of its command. -/
def Hub.exec (cfg : Config Value) (expireAt : Nat) (h : Hub Value) : Hub Value :=
  match h.running with
  | [] => h
  | op :: rest =>
    let r := execOp cfg expireAt h.core op
    { h with
      core := r.1
      running := r.2 ++ rest
      answers := match op with
        | .presenceJoin key member sid =>
          h.answers.hset (key, sid) (h.core.admits cfg key member sid)
        | _ => h.answers }

/-- What the operation sends into the mailbox of the joining connection. -/
def BridgeOp.sends (roster : PresencePayload Value) :
    BridgeOp Value → Option (Text × ServerEvent Value)
  | .refuse key sid =>
    some (sid, .subscriptionError key.2 "LimitReached" "Presence channel is full" 4004)
  | .acknowledge key sid => some (sid, .subscriptionSucceeded key.2 (some roster))
  | _ => none

/-- A step of the node or of another one. `roster` is the roster read for an
acknowledgement. -/
inductive ClusterAct (Value : Type)
  | worker (a : Act Value)
  | enqueue (sid : Text)
  | take (sid : Text)
  | exec (expireAt : Nat) (roster : PresencePayload Value)
  | remoteJoin (key : Key) (userId : String) (userInfo token : Text)
  | remoteLeave (key : Key) (userId : String) (token : Text)

/-- Another node's script on a channel's presence tables. -/
def remotely (cfg : Config Value) (n : Node (Hub Value) Value) (key : Key) (token : Text)
    (script : Presence String → Presence String) : Node (Hub Value) Value :=
  if (cfg.nodeId ++ [':']) <+: token then n
  else
    let redis := n.adapter.core.redis
    let t := script (redis.channels key).pres
    { n with adapter.core.redis := redis.setPresence key t }

def clusterStep (cfg : Config Value) (out : Outside Value) (maxMessageBytes : Nat)
    (n : Node (Hub Value) Value) : ClusterAct Value → Node (Hub Value) Value
  | .worker a => n.step clusterAdapter out maxMessageBytes a
  | .enqueue sid => { n with adapter := n.adapter.enqueue sid }
  | .take sid => { n with adapter := n.adapter.take sid }
  | .exec expireAt roster =>
    let n' := { n with adapter := n.adapter.exec cfg expireAt }
    match n.adapter.running.head?.bind (·.sends roster) with
    | some (sid, event) => n'.send sid event
    | none => n'
  | .remoteJoin key userId userInfo token =>
    remotely cfg n key token fun t =>
      (presenceJoin t userId userInfo token cfg.maxPresenceMembers).1
  | .remoteLeave key userId token =>
    remotely cfg n key token fun t => (presenceLeave t userId token).1

/-! ## One place -/

/-- What an operation of the bridge means to one socket in one channel. -/
inductive Phase where
  | join
  | leave
  | refuse
  | takeBack
  deriving DecidableEq

def BridgeOp.phase (key : Key) (sid : Text) : BridgeOp Value → Option Phase
  | .presenceJoin key' _ sid' => if key' = key ∧ sid' = sid then some .join else none
  | .presenceLeave key' _ sid' => if key' = key ∧ sid' = sid then some .leave else none
  | .refuse key' sid' => if key' = key ∧ sid' = sid then some .refuse else none
  | .undoJoin key' sid' => if key' = key ∧ sid' = sid then some .takeBack else none
  | _ => none

def ClusterCmd.request (key : Key) (sid : Text) : ClusterCmd Value → Option Request
  | .presenceSubscribe key' _ sid' _ => if key' = key ∧ sid' = sid then some .join else none
  | .presenceLeave key' _ sid' _ => if key' = key ∧ sid' = sid then some .leave else none
  | _ => none

/-- Where the bridge stands with the socket and the channel. -/
def Hub.phases (h : Hub Value) (key : Key) (sid : Text) : List Phase :=
  h.running.filterMap (·.phase key sid)

/-- The request the bridge has begun but not decided. -/
def begun : List Phase → List Request
  | .join :: _ => [.join]
  | .leave :: _ => [.leave]
  | _ => []

def denialOf : List Phase → Option Denial
  | .refuse :: _ => some .decided
  | .takeBack :: _ => some .notified
  | _ => none

/-- The session has the channel. -/
def wants (ctx : Option (ConnectionContext Value)) (key : Key) : Bool :=
  ctx.any fun c => decide (key.1 = c.app.id ∧ key.2 ∈ c.subscribed)

/-- A refusal of the channel waits in the session's mailbox. -/
def told (ctx : Option (ConnectionContext Value)) (key : Key) : Bool :=
  ctx.any fun c => decide (key.1 = c.app.id ∧ key.2 ∈ refused c.mailbox.events)

/-- The place of a socket in a channel, given the session's state if it lives. -/
def Hub.place (cfg : Config Value) (h : Hub Value) (ctx : Option (ConnectionContext Value))
    (key : Key) (sid : Text) : Lib.Place where
  wanted := wants ctx key
  held := h.core.registry.has key sid
  granted := (h.core.redis.channels key).pres.presmembers.hexists (memberToken cfg.nodeId sid)
  requests := begun (h.phases key sid) ++ (h.queue ++ h.posting).filterMap (·.request key sid)
  denial := denialOf (h.phases key sid)
  notice := told ctx key
  answer := h.answers.hget (key, sid)

def place (cfg : Config Value) (n : Node (Hub Value) Value) (key : Key) (sid : Text) : Lib.Place :=
  n.adapter.place cfg ((n.entries.hget sid).map (·.ctx)) key sid

/-! ## What a worker's command does to a place -/

/-- Whoever is in a presence channel is in as a member. -/
def Hub.Membered (h : Hub Value) : Prop :=
  ∀ key sid member, (ChannelInfo.of key.2).auth = .presence →
    h.core.registry.subscriber key sid = some member → member.isSome

omit [BEq Value] in
theorem refused_append (events events' : List (ServerEvent Value)) :
    refused (events ++ events') = refused events ++ refused events' :=
  List.filterMap_append

omit [BEq Value] in
theorem Posted.refused_eq {m m' : Mailbox Value} (h : Posted m m') :
    refused m'.events = refused m.events := by
  obtain ⟨-, events, hevents, hnone⟩ := h
  have hempty : refused events = [] := List.filterMap_eq_nil_iff.mpr hnone
  rw [hevents, refused_append, hempty, List.append_nil]

variable {s s' : Scope (Hub Value) Value} {key : Key} {t : Presence String} {cfg : Config Value}
  {sid' : Text}

omit [BEq Value] in
theorem place_congr (cfg : Config Value) (h : Hub Value)
    {ctx ctx' : Option (ConnectionContext Value)} (hwants : wants ctx' key = wants ctx key)
    (htold : told ctx' key = told ctx key) (sid : Text) :
    h.place cfg ctx' key sid = h.place cfg ctx key sid := by
  simp only [Hub.place, hwants, htold]

omit [BEq Value] in
theorem place_quiet (cfg : Config Value) (h : Ws.Quiet s s') (key : Key) (sid : Text) :
    s'.adapter.place cfg (some s'.ctx) key sid = s.adapter.place cfg (some s.ctx) key sid := by
  rw [h.adapter]
  refine place_congr cfg s.adapter ?_ ?_ sid
  · simp only [wants, Option.any_some, h.same.app, h.subscribed]
  · simp only [told, Option.any_some, h.same.app, Posted.refused_eq h.posted]

variable {h : Hub Value}

omit [BEq Value] in
/-- A command about something else is no request for the place. -/
theorem place_issue {r : Core Value × ClusterCmd Value} {sid : Text}
    (hrequest : r.2.request key sid = none)
    (hheld : r.1.registry.has key sid = h.core.registry.has key sid)
    (hredis : r.1.redis = h.core.redis) (ctx : Option (ConnectionContext Value)) :
    (h.issue r).place cfg ctx key sid = h.place cfg ctx key sid := by
  simp [Hub.place, Hub.issue, Hub.phases, hrequest, hheld, hredis, List.filterMap_append]

theorem idle_place (cfg : Config Value) {h' : Hub Value} (hidle : Idle clusterAdapter sid' h h')
    (ctx : Option (ConnectionContext Value)) (key : Key) (sid : Text) :
    h'.place cfg ctx key sid = h.place cfg ctx key sid := by
  cases hidle with
  | none | resend => rfl
  | signin | signout => exact place_issue rfl rfl rfl ctx

theorem request_subscribe (c : Core Value) (key key' : Key) (sid sid' : Text)
    (member : Option (PresenceMember Value)) :
    (c.subscribe key sid member).2.request key' sid' =
      if key = key' ∧ sid = sid' ∧ member.isSome then some .join else none := by
  cases member with
  | none | some => simp [Core.subscribe, ClusterCmd.request]

theorem request_unsubscribe (c : Core Value) (key key' : Key) (sid sid' : Text) :
    (c.unsubscribe key sid).2.request key' sid' =
      if key = key' ∧ sid = sid' ∧ (c.registry.subscriber key sid).join.isSome then some .leave
      else none := by
  rw [← Registry.unsubscribe_presence_isSome]
  unfold Core.unsubscribe
  dsimp only
  cases (c.registry.unsubscribe key sid).2.presence with
  | none | some => simp [ClusterCmd.request]

/-- A command moves no place of another connection. -/
theorem dispatched_place_other (cfg : Config Value) (h : Dispatched clusterAdapter s s')
    {sid : Text} (hne : sid ≠ s.ctx.socketId) (ctx : Option (ConnectionContext Value)) (key : Key) :
    s'.adapter.place cfg ctx key sid = s.adapter.place cfg ctx key sid := by
  cases h with
  | quiet _ idle rest =>
    rw [rest.adapter]
    exact idle_place cfg idle ctx key sid
  | refused _ _ _ _ rest =>
    subst rest
    rfl
  | joined _ member _ _ rest =>
    rw [rest.adapter]
    refine place_issue ?_ ?_ rfl ctx
    · rw [request_subscribe, if_neg (fun h => hne h.2.1.symm)]
    · show (s.adapter.core.registry.subscribe _ _ member).1.has key sid = _
      rw [Registry.has_subscribe, if_neg (fun h => hne h.2)]
  | left _ _ rest =>
    rw [rest.adapter]
    refine place_issue ?_ ?_ rfl ctx
    · rw [request_unsubscribe, if_neg (fun h => hne h.2.1.symm)]
    · show (s.adapter.core.registry.unsubscribe _ _).1.has key sid = _
      rw [Registry.has_unsubscribe, if_neg (fun h => hne h.2)]

omit [BEq Value] in
/-- An event in the mailbox is noticed if it refuses the channel and there is room. -/
def delivered (ctx : Option (ConnectionContext Value)) (event : ServerEvent Value) (key : Key) :
    Bool :=
  ctx.any fun c =>
    decide (key.1 = c.app.id ∧ event.refusedChannel = some key.2) && c.mailbox.hasRoom

omit [BEq Value] in
theorem told_trySend (c : ConnectionContext Value) (event : ServerEvent Value) (key : Key) :
    told (some { c with mailbox := c.mailbox.trySend event }) key =
      (told (some c) key || delivered (some c) event key) := by
  simp only [told, delivered, Option.any_some, Mailbox.trySend_events]
  cases c.mailbox.hasRoom with
  | false => simp
  | true =>
    rw [if_pos rfl, refused_append]
    cases hev : event.refusedChannel with
    | none => simp [refused, hev]
    | some =>
      by_cases happ : key.1 = c.app.id
      · simp [refused, hev, happ, eq_comm]
      · simp [happ]

/-- A connection's own command is a client's move at each of its places. -/
theorem dispatched_place (cfg : Config Value) (h : Dispatched clusterAdapter s s')
    (hmembered : s.adapter.Membered) (hkind : (ChannelInfo.of key.2).auth = .presence) :
    Place.FairRun (s.adapter.place cfg (some s.ctx) key s.ctx.socketId)
      (s'.adapter.place cfg (some s'.ctx) key s.ctx.socketId) := by
  cases h with
  | quiet _ idle rest =>
    rw [place_quiet cfg rest]
    exact .of_eq (idle_place cfg idle _ key _)
  | refused _ event _ _ rest =>
    subst rest
    refine .move (.refuse (delivered (some s.ctx) event key)) trivial ?_
    ext1
    case notice => exact told_trySend s.ctx event key
    all_goals rfl
  | joined channel member fresh kind rest =>
    rw [place_quiet cfg rest]
    by_cases hkey : key = s.key channel
    · subst hkey
      have hmember : member.isSome := kind.mpr hkind
      have hfree : wants (some s.ctx) (s.key channel) = false := by
        simp [wants, Scope.key, fresh]
      refine .move .join trivial ?_
      show Hub.place cfg (s.adapter.issue _) _ _ _ = _
      simp only [Place.step, Hub.place, hfree]
      ext1
      case wanted => simp [wants, Scope.commit, Scope.key]
      case held =>
        show (s.adapter.core.registry.subscribe _ _ member).1.has _ _ = true
        simp [Registry.has_subscribe]
      case requests =>
        simp [Hub.issue, Hub.phases, List.filterMap_append, request_subscribe, hmember]
      all_goals rfl
    · refine .of_eq ((place_issue ?_ ?_ rfl _).trans ?_)
      · rw [request_subscribe, if_neg (fun h => hkey h.1.symm)]
      · show (s.adapter.core.registry.subscribe _ _ member).1.has key _ = _
        rw [Registry.has_subscribe, if_neg (fun h => hkey h.1)]
      · refine place_congr cfg s.adapter ?_ ?_ _
        case refine_2 => rfl
        have hne : key.1 = s.ctx.app.id → key.2 ≠ channel := fun h1 h2 => hkey (Prod.ext h1 h2)
        by_cases happ : key.1 = s.ctx.app.id
        · simp [wants, Scope.commit, happ, hne happ]
        · simp [wants, Scope.commit, happ]
  | left channel held rest =>
    rw [place_quiet cfg rest]
    by_cases hkey : key = s.key channel
    · subst hkey
      have hwants : wants (some s.ctx) (s.key channel) = true := by
        simp [wants, Scope.key, held]
      -- whoever is held is held as a member, so the leave is a presence leave
      have hjoin : (s.adapter.core.registry.subscriber (s.key channel) s.ctx.socketId).join.isSome =
          s.adapter.core.registry.has (s.key channel) s.ctx.socketId := by
        unfold Registry.has
        cases hsub : s.adapter.core.registry.subscriber (s.key channel) s.ctx.socketId with
        | none => rfl
        | some member => exact hmembered _ _ member hkind hsub
      refine .move .leave trivial ?_
      show Hub.place cfg (s.adapter.issue _) _ _ _ = _
      simp only [Place.step, Hub.place, hwants, if_true]
      ext1
      case wanted => simp [wants, Scope.key]
      case held =>
        show (s.adapter.core.registry.unsubscribe _ _).1.has _ _ = false
        simp [Registry.has_unsubscribe]
      case requests =>
        cases hheld : s.adapter.core.registry.has (s.key channel) s.ctx.socketId <;>
          simp [Hub.issue, Hub.phases, List.filterMap_append, request_unsubscribe, hjoin, hheld]
      all_goals rfl
    · refine .of_eq ((place_issue ?_ ?_ rfl _).trans ?_)
      · rw [request_unsubscribe, if_neg (fun h => hkey h.1.symm)]
      · show (s.adapter.core.registry.unsubscribe _ _).1.has key _ = _
        rw [Registry.has_unsubscribe, if_neg (fun h => hkey h.1)]
      · refine place_congr cfg s.adapter ?_ ?_ _
        case refine_2 => rfl
        have hne : key.1 = s.ctx.app.id → key.2 ≠ channel := fun h1 h2 => hkey (Prod.ext h1 h2)
        by_cases happ : key.1 = s.ctx.app.id
        · simp [wants, happ, hne happ]
        · simp [wants, happ]

/-- A presence channel is joined with a member, or not at all. -/
theorem dispatched_membered (h : Dispatched clusterAdapter s s') (hmembered : s.adapter.Membered) :
    s'.adapter.Membered := by
  cases h with
  | quiet _ idle rest =>
    rw [rest.adapter]
    cases idle <;> exact hmembered
  | refused _ _ _ _ rest =>
    subst rest
    exact hmembered
  | joined channel member _ kind rest =>
    rw [rest.adapter]
    intro key sid member' hkind hsub
    replace hsub : (s.adapter.core.registry.subscribe (s.key channel) s.ctx.socketId
      member).1.subscriber key sid = some member' := hsub
    rw [Registry.subscriber_subscribe] at hsub
    split at hsub
    next heq =>
      obtain ⟨rfl, -⟩ := heq
      cases hsub
      exact kind.mpr hkind
    next => exact hmembered key sid member' hkind hsub
  | left channel _ rest =>
    rw [rest.adapter]
    intro key sid member' hkind hsub
    replace hsub : (s.adapter.core.registry.unsubscribe (s.key channel)
      s.ctx.socketId).1.subscriber key sid = some member' := hsub
    rw [Registry.subscriber_unsubscribe] at hsub
    split at hsub
    · cases hsub
    · exact hmembered key sid member' hkind hsub

/-! ## What the bridge does to a place -/

/-- The bridge is at one point with any socket in any channel. -/
def Hub.Shaped (h : Hub Value) : Prop :=
  ∀ key sid, h.phases key sid ∈
    [[], [.join], [.leave], [.refuse, .takeBack], [.takeBack]]

/-- No refcount is negative, so that only the cap answers below zero. -/
def Counted (t : Presence String) : Prop :=
  ∀ userId count, t.presusers.hget userId = some count → 0 ≤ count

def Hub.Counted (h : Hub Value) : Prop :=
  ∀ key, Cluster.Counted (h.core.redis.channels key).pres

theorem Counted.getD (h : Counted t) (userId : String) : 0 ≤ (t.presusers.hget userId).getD 0 := by
  cases hget : t.presusers.hget userId with
  | none => exact Int.le_refl 0
  | some count => exact h userId count hget

theorem Counted.join (h : Counted t) (userId : String) (userInfo token : Text) (cap : Int) :
    Counted (presenceJoin t userId userInfo token cap).1 := by
  by_cases hrefuse : t.Refuses userId cap
  · rw [presenceJoin_refused hrefuse]
    exact h
  · rw [presenceJoin_accepted hrefuse]
    intro userId' count hget
    rw [Hash.hget_hset] at hget
    have hold := h.getD userId
    split at hget
    · cases hget
      omega
    · exact h userId' count hget

theorem Counted.leave (h : Counted t) (userId : String) (token : Text) :
    Counted (presenceLeave t userId token).1 := by
  intro userId' count hget
  rw [presenceLeave_presusers] at hget
  split at hget
  · rw [Hash.hget_hdel] at hget
    split at hget
    · cases hget
    · exact h userId' count hget
  next hmany =>
    rw [Hash.hget_hset] at hget
    split at hget
    · cases hget
      omega
    · exact h userId' count hget

section

omit [BEq Value]

/-- With sound refcounts the reply is negative exactly when the cap refuses. -/
theorem Core.admits_iff {c : Core Value} (h : Counted (c.redis.channels key).pres)
    (member : PresenceMember Value) (sid : Text) :
    c.admits cfg key member sid = true ↔
      ¬ (c.redis.channels key).pres.Refuses member.userId cfg.maxPresenceMembers := by
  unfold Core.admits
  by_cases hrefuse : (c.redis.channels key).pres.Refuses member.userId cfg.maxPresenceMembers
  · rw [presenceJoin_refused hrefuse]
    simp [hrefuse]
  · rw [presenceJoin_accepted hrefuse]
    have hold := h.getD member.userId
    simp only [hrefuse, not_false_eq_true, iff_true, decide_eq_true_eq]
    omega

/-- A command's program is about one place, where it has one phase. -/
theorem program_phases (key : Key) (sid : Text) (cmd : ClusterCmd Value) :
    (program cmd).filterMap (·.phase key sid) = match cmd.request key sid with
      | some .join => [.join]
      | some .leave => [.leave]
      | none => [] := by
  cases cmd with
  | subscribe key' sid' first | signin key' sid' first => cases first <;> rfl
  | unsubscribe key' sid' last | signout key' sid' last => cases last <;> rfl
  | presenceSubscribe key' m sid' first =>
    -- nothing but the join has a phase
    have hprogram : (program (.presenceSubscribe key' m sid' first)).filterMap (·.phase key sid) =
        [BridgeOp.presenceJoin key' m sid'].filterMap (·.phase key sid) := by
      cases first <;> rfl
    rw [hprogram, ClusterCmd.request]
    by_cases h : key' = key ∧ sid' = sid
    · have hphase : (BridgeOp.presenceJoin key' m sid').phase key sid = some .join := if_pos h
      rw [List.filterMap_cons_some hphase, if_pos h]
      rfl
    · have hphase : (BridgeOp.presenceJoin key' m sid').phase key sid = none := if_neg h
      rw [List.filterMap_cons_none hphase, if_neg h]
      rfl
  | presenceLeave key' userId sid' last =>
    rw [program, ClusterCmd.request]
    by_cases h : key' = key ∧ sid' = sid
    · have hphase : (BridgeOp.presenceLeave key' userId sid' : BridgeOp Value).phase key sid =
          some .leave := if_pos h
      rw [List.filterMap_cons_some hphase, if_pos h]
      cases last <;> rfl
    · have hphase : (BridgeOp.presenceLeave key' userId sid' : BridgeOp Value).phase key sid =
          none := if_neg h
      rw [List.filterMap_cons_none hphase, if_neg h]
      cases last <;> rfl

theorem ClusterCmd.sid_of_request {cmd : ClusterCmd Value} {sid : Text} {r : Request}
    (h : cmd.request key sid = some r) : cmd.sid = sid := by
  cases cmd with
  | presenceSubscribe | presenceLeave =>
    simp only [request, Option.ite_none_right_eq_some] at h
    exact h.1.2
  | _ => cases h

/-- The oldest command of a socket carries that socket's oldest request. -/
theorem requests_eraseP {queue : List (ClusterCmd Value)} {cmd : ClusterCmd Value}
    (hfind : queue.find? (fun cmd => cmd.sid = sid') = some cmd) (key : Key) (sid : Text) :
    queue.filterMap (·.request key sid) = (cmd.request key sid).toList ++
      (queue.eraseP fun cmd => cmd.sid = sid').filterMap (·.request key sid) := by
  induction queue with
  | nil => cases hfind
  | cons c _ ih =>
    rw [List.find?_cons] at hfind
    by_cases hc : c.sid = sid'
    · simp only [hc, decide_true, Option.some.injEq] at hfind
      subst hfind
      rw [List.eraseP_cons_of_pos (by simpa using hc)]
      cases hr : c.request key sid <;> simp [hr]
    · simp only [hc, decide_false] at hfind
      rw [List.eraseP_cons_of_neg (by simpa using hc)]
      cases hr : c.request key sid with
      | none => simp [hr, ih hfind]
      | some =>
        -- then the command taken is of another socket than this one's
        have hsid : cmd.sid = sid' := by simpa using List.find?_some hfind
        have hnone : cmd.request key sid = none := by
          cases hcmd : cmd.request key sid with
          | none => rfl
          | some =>
            exact absurd ((ClusterCmd.sid_of_request hr).trans
              ((ClusterCmd.sid_of_request hcmd).symm.trans hsid)) hc
        simp [hr, ih hfind, hnone]

/-- Entering the queue behind the socket's other commands moves no request. -/
theorem place_enqueue (cfg : Config Value) (h : Hub Value) (sid' : Text)
    (ctx : Option (ConnectionContext Value)) (key : Key) (sid : Text) :
    (h.enqueue sid').place cfg ctx key sid = h.place cfg ctx key sid := by
  unfold Hub.enqueue
  split
  next cmd hfind =>
    ext1
    case requests =>
      show begun (h.phases key sid) ++ _ = begun (h.phases key sid) ++ _
      simp only [List.filterMap_append, requests_eraseP hfind key sid]
      cases hcmd : cmd.request key sid <;> simp [hcmd]
    all_goals rfl
  next => rfl

theorem place_take (cfg : Config Value) (h : Hub Value) (sid' : Text)
    (ctx : Option (ConnectionContext Value)) (key : Key) (sid : Text) :
    (h.take sid').place cfg ctx key sid = h.place cfg ctx key sid := by
  unfold Hub.take
  split
  next cmd hrunning hfind =>
    ext1
    case requests =>
      show begun ((program cmd).filterMap _) ++ _ = begun (h.running.filterMap _) ++ _
      rw [program_phases, hrunning, List.filterMap_append, List.filterMap_append,
        requests_eraseP hfind key sid]
      rcases cmd.request key sid with _ | _ | _ <;> rfl
    case denial =>
      show denialOf ((program cmd).filterMap _) = denialOf (h.running.filterMap _)
      rw [program_phases, hrunning]
      rcases cmd.request key sid with _ | _ | _ <;> rfl
    all_goals rfl
  next => rfl

theorem Hub.Shaped.take (hshaped : h.Shaped) (sid' : Text) : (h.take sid').Shaped := by
  unfold Hub.take
  split
  next cmd hrunning hfind =>
    intro key sid
    show (program cmd).filterMap _ ∈ _
    rw [program_phases]
    rcases cmd.request key sid with _ | _ | _ <;> decide
  next => exact hshaped

theorem BridgeOp.phase_cases (op : BridgeOp Value) (key : Key) (sid : Text) :
    (∃ member, op = .presenceJoin key member sid) ∨ (∃ userId, op = .presenceLeave key userId sid) ∨
      op = .refuse key sid ∨ op = .undoJoin key sid ∨ op.phase key sid = none := by
  cases op with
  | presenceJoin key' member sid' =>
    by_cases h : key' = key ∧ sid' = sid
    · exact .inl ⟨member, by rw [h.1, h.2]⟩
    · exact .inr (.inr (.inr (.inr (if_neg h))))
  | presenceLeave key' userId sid' =>
    by_cases h : key' = key ∧ sid' = sid
    · exact .inr (.inl ⟨userId, by rw [h.1, h.2]⟩)
    · exact .inr (.inr (.inr (.inr (if_neg h))))
  | refuse key' sid' =>
    by_cases h : key' = key ∧ sid' = sid
    · exact .inr (.inr (.inl (by rw [h.1, h.2])))
    · exact .inr (.inr (.inr (.inr (if_neg h))))
  | undoJoin key' sid' =>
    by_cases h : key' = key ∧ sid' = sid
    · exact .inr (.inr (.inr (.inl (by rw [h.1, h.2]))))
    · exact .inr (.inr (.inr (.inr (if_neg h))))
  | _ => exact .inr (.inr (.inr (.inr rfl)))

theorem BridgeOp.ne_of_phase_none {key' : Key} {sid : Text} {p : Phase}
    (h : (if key' = key ∧ sid' = sid then some p else none) = none) :
    ¬ (key' = key ∧ sid' = sid) := by
  intro heq
  rw [if_pos heq] at h
  cases h

theorem hexists_presence_other (ks : Keyspace) {key' : Key} {sid : Text}
    (hne : ¬ (key' = key ∧ sid' = sid))
    (ht : ∀ token, token ≠ memberToken cfg.nodeId sid' →
      t.presmembers.hget token = (ks.channels key').pres.presmembers.hget token) :
    ((ks.setPresence key' t).channels key).pres.presmembers.hexists (memberToken cfg.nodeId sid) =
      (ks.channels key).pres.presmembers.hexists (memberToken cfg.nodeId sid) := by
  rw [Keyspace.pres_setPresence]
  by_cases hkey : key = key'
  · subst hkey
    have hsid : memberToken cfg.nodeId sid ≠ memberToken cfg.nodeId sid' :=
      fun h => hne ⟨rfl, (memberToken_inj h).symm⟩
    rw [if_pos rfl, Hash.hexists, Hash.hexists, ht _ hsid]
  · rw [if_neg hkey]

end

theorem presenceJoin_presmembers_ne (t : Presence String) (userId : String)
    (userInfo token : Text) (cap : Int) {token' : Text} (hne : token' ≠ token) :
    (presenceJoin t userId userInfo token cap).1.presmembers.hget token' =
      t.presmembers.hget token' := by
  by_cases hrefuse : t.Refuses userId cap
  · rw [presenceJoin_refused hrefuse]
  · rw [presenceJoin_accepted hrefuse]
    exact Hash.hget_hset_ne _ _ hne

theorem presenceLeave_presmembers_ne (t : Presence String) (userId : String) (token : Text)
    {token' : Text} (hne : token' ≠ token) :
    (presenceLeave t userId token).1.presmembers.hget token' = t.presmembers.hget token' := by
  rw [presenceLeave_presmembers]
  exact Hash.hget_hdel_ne _ hne

/-- An operation about something else leaves the place's stores, and the bridge, alone. -/
theorem execOp_other (cfg : Config Value) (expireAt : Nat) (c : Core Value) {op : BridgeOp Value}
    {sid : Text} (hop : op.phase key sid = none) :
    (execOp cfg expireAt c op).2.filterMap (·.phase key sid) = [] ∧
      (execOp cfg expireAt c op).1.registry.has key sid = c.registry.has key sid ∧
      ((execOp cfg expireAt c op).1.redis.channels key).pres.presmembers.hexists
        (memberToken cfg.nodeId sid) =
        (c.redis.channels key).pres.presmembers.hexists (memberToken cfg.nodeId sid) := by
  cases op with
  | presenceJoin =>
    have hne := BridgeOp.ne_of_phase_none hop
    refine ⟨?_, rfl, hexists_presence_other c.redis hne fun token htoken =>
      presenceJoin_presmembers_ne _ _ _ _ _ htoken⟩
    simp only [execOp]
    split <;> simp [BridgeOp.phase, hne]
  | presenceLeave =>
    have hne := BridgeOp.ne_of_phase_none hop
    exact ⟨rfl, rfl, hexists_presence_other c.redis hne fun token htoken =>
      presenceLeave_presmembers_ne _ _ _ htoken⟩
  | undoJoin =>
    have hne := BridgeOp.ne_of_phase_none hop
    refine ⟨?_, ?_, rfl⟩
    · simp only [execOp]
      split <;> rfl
    · simp only [execOp]
      rw [Registry.has_unsubscribe, if_neg (fun h => hne ⟨h.1.symm, h.2.symm⟩)]
  | checkLast =>
    refine ⟨?_, rfl, rfl⟩
    simp only [execOp]
    split <;> rfl
  | membershipJoin | unsubscribe =>
    exact ⟨rfl, rfl, by simp only [execOp, Keyspace.pres_setMembership]⟩
  | userSignout => exact ⟨rfl, rfl, by simp only [execOp, Keyspace.pres_setMembership]⟩
  | _ => exact ⟨rfl, rfl, rfl⟩

section Exec

variable (cfg : Config Value) (expireAt : Nat) {h : Hub Value} {rest : List (BridgeOp Value)}
  {key : Key} {sid : Text} {op : BridgeOp Value}

/-- A place after an operation, given what the operation did to its stores. -/
theorem place_exec {ps : List Phase} {held granted : Bool} {answer : Option Bool}
    (hrunning : h.running = op :: rest)
    (hphases : (execOp cfg expireAt h.core op).2.filterMap (·.phase key sid) ++
      rest.filterMap (·.phase key sid) = ps)
    (hheld : (execOp cfg expireAt h.core op).1.registry.has key sid = held)
    (hgranted : ((execOp cfg expireAt h.core op).1.redis.channels key).pres.presmembers.hexists
      (memberToken cfg.nodeId sid) = granted)
    (hanswer : (h.exec cfg expireAt).answers.hget (key, sid) = answer)
    (ctx : Option (ConnectionContext Value)) :
    (h.exec cfg expireAt).place cfg ctx key sid =
      { wanted := wants ctx key
        held := held
        granted := granted
        requests := begun ps ++ (h.queue ++ h.posting).filterMap (·.request key sid)
        denial := denialOf ps
        notice := told ctx key
        answer := answer } := by
  have hps : (h.exec cfg expireAt).phases key sid = ps := by
    simp only [Hub.phases, Hub.exec, hrunning, List.filterMap_append]
    exact hphases
  unfold Hub.place
  rw [hps, hanswer]
  simp only [Hub.exec, hrunning, hheld, hgranted]

theorem answers_exec_ne (hrunning : h.running = op :: rest)
    (hop : ∀ member, op ≠ .presenceJoin key member sid) :
    (h.exec cfg expireAt).answers.hget (key, sid) = h.answers.hget (key, sid) := by
  simp only [Hub.exec, hrunning]
  split
  next key' member sid' =>
    refine Hash.hget_hset_ne _ _ fun heq => ?_
    cases heq
    exact hop member rfl
  next => rfl

theorem place_exec_other (hrunning : h.running = op :: rest) (hop : op.phase key sid = none)
    (ctx : Option (ConnectionContext Value)) :
    (h.exec cfg expireAt).place cfg ctx key sid = h.place cfg ctx key sid := by
  obtain ⟨hphases, hhas, hexists⟩ := execOp_other cfg expireAt h.core hop
  have hanswer : (h.exec cfg expireAt).answers.hget (key, sid) = h.answers.hget (key, sid) := by
    refine answers_exec_ne cfg expireAt hrunning ?_
    rintro member rfl
    simp [BridgeOp.phase] at hop
  refine (place_exec cfg expireAt hrunning ?_ hhas hexists hanswer ctx).trans rfl
  rw [hphases, Hub.phases, hrunning, List.filterMap_cons_none hop]
  rfl

/-- What is left to do after an operation of the bridge. -/
def Phase.after : Phase → List Phase
  | .refuse => [.takeBack]
  | .join | .leave | .takeBack => []

omit [BEq Value] in
/-- An operation about the place at the front says where the bridge stands with it. -/
theorem Hub.Shaped.front (hshaped : h.Shaped) {p : Phase} (hrunning : h.running = op :: rest)
    (hop : op.phase key sid = some p) :
    rest.filterMap (·.phase key sid) = p.after ∧ h.phases key sid = p :: p.after := by
  have hphases : h.phases key sid = p :: rest.filterMap (·.phase key sid) := by
    rw [Hub.phases, hrunning, List.filterMap_cons_some hop]
  have hrest : rest.filterMap (·.phase key sid) = p.after := by
    have hshape := hshaped key sid
    rw [hphases] at hshape
    cases p <;> simpa [Phase.after] using hshape
  exact ⟨hrest, by rw [hphases, hrest]⟩

/-- Redis grants a join that is under the cap, and denies it otherwise. -/
theorem place_exec_join {member : PresenceMember Value} (hshaped : h.Shaped) (hcounted : h.Counted)
    (hrunning : h.running = .presenceJoin key member sid :: rest)
    (ctx : Option (ConnectionContext Value)) :
    (h.exec cfg expireAt).place cfg ctx key sid = (h.place cfg ctx key sid).step
      (if h.core.admits cfg key member sid then .grant else .deny) := by
  obtain ⟨hrest, hfront⟩ := hshaped.front hrunning (if_pos ⟨rfl, rfl⟩)
  have hanswer : (h.exec cfg expireAt).answers.hget (key, sid) =
      some (h.core.admits cfg key member sid) := by
    simp [Hub.exec, hrunning]
  have hiff := @Core.admits_iff _ key cfg h.core (hcounted key) member sid
  by_cases hrefuses : (h.core.redis.channels key).pres.Refuses member.userId cfg.maxPresenceMembers
  · have hadmits : h.core.admits cfg key member sid = false := by
      rw [← Bool.not_eq_true, hiff]
      exact not_not_intro hrefuses
    rw [hadmits] at hanswer ⊢
    have hphases : (execOp cfg expireAt h.core (.presenceJoin key member sid)).2.filterMap
        (·.phase key sid) ++ rest.filterMap (·.phase key sid) = [.refuse, .takeBack] := by
      rw [hrest]
      simp [execOp, presenceJoin_refused hrefuses, BridgeOp.phase, Phase.after]
    refine (place_exec cfg expireAt hrunning hphases rfl rfl hanswer ctx).trans ?_
    simp [Hub.place, Place.step, hfront, execOp, presenceJoin_refused hrefuses, begun, denialOf]
  · have hadmits : h.core.admits cfg key member sid = true := hiff.mpr hrefuses
    have hpos : ¬ (presenceJoin (h.core.redis.channels key).pres member.userId
        (cfg.encode member.userInfo) (memberToken cfg.nodeId sid) cfg.maxPresenceMembers).2 < 0 :=
      Int.not_lt.mpr (of_decide_eq_true hadmits)
    rw [hadmits] at hanswer ⊢
    have hphases : (execOp cfg expireAt h.core (.presenceJoin key member sid)).2.filterMap
        (·.phase key sid) ++ rest.filterMap (·.phase key sid) = [] := by
      rw [hrest]
      simp only [execOp]
      rw [if_neg hpos]
      rfl
    refine (place_exec cfg expireAt hrunning hphases rfl rfl hanswer ctx).trans ?_
    simp [Hub.place, Place.step, hfront, execOp, presenceJoin_accepted hrefuses, begun, denialOf]

theorem place_exec_leave {userId : String} (hshaped : h.Shaped)
    (hrunning : h.running = .presenceLeave key userId sid :: rest)
    (ctx : Option (ConnectionContext Value)) :
    (h.exec cfg expireAt).place cfg ctx key sid = (h.place cfg ctx key sid).step .depart := by
  obtain ⟨hrest, hfront⟩ := hshaped.front hrunning (if_pos ⟨rfl, rfl⟩)
  refine (place_exec cfg expireAt hrunning hrest rfl rfl
    (answers_exec_ne cfg expireAt hrunning fun _ heq => by cases heq) ctx).trans ?_
  simp [Hub.place, Place.step, hfront, Phase.after, execOp, Hash.hexists, begun, denialOf]

theorem place_exec_refuse (hshaped : h.Shaped) (hrunning : h.running = .refuse key sid :: rest)
    (ctx : Option (ConnectionContext Value)) :
    (h.exec cfg expireAt).place cfg ctx key sid =
      (h.place cfg ctx key sid).step (.notify false) := by
  obtain ⟨hrest, hfront⟩ := hshaped.front hrunning (if_pos ⟨rfl, rfl⟩)
  refine (place_exec cfg expireAt hrunning hrest rfl rfl
    (answers_exec_ne cfg expireAt hrunning fun _ heq => by cases heq) ctx).trans ?_
  simp [Hub.place, Place.step, hfront, Phase.after, execOp, begun, denialOf]

theorem place_exec_undo (hshaped : h.Shaped) (hrunning : h.running = .undoJoin key sid :: rest)
    (ctx : Option (ConnectionContext Value)) :
    (h.exec cfg expireAt).place cfg ctx key sid = (h.place cfg ctx key sid).step .takeBack := by
  obtain ⟨hrest, hfront⟩ := hshaped.front hrunning (if_pos ⟨rfl, rfl⟩)
  have hphases : (execOp cfg expireAt h.core (.undoJoin key sid)).2.filterMap
      (·.phase key sid) ++ rest.filterMap (·.phase key sid) = [] := by
    rw [hrest]
    simp only [execOp]
    split <;> rfl
  refine (place_exec cfg expireAt hrunning hphases rfl rfl
    (answers_exec_ne cfg expireAt hrunning fun _ heq => by cases heq) ctx).trans ?_
  simp [Hub.place, Place.step, hfront, execOp, Registry.has_unsubscribe, begun, denialOf]

/-! ### What the bridge keeps -/

theorem Hub.Shaped.exec (hshaped : h.Shaped) : (h.exec cfg expireAt).Shaped := by
  intro key sid
  cases hrunning : h.running with
  | nil => simp [Hub.exec, Hub.phases, hrunning]
  | cons op =>
    simp only [Hub.phases, Hub.exec, hrunning, List.filterMap_append]
    cases hop : op.phase key sid with
    | none =>
      have hbefore := hshaped key sid
      rw [Hub.phases, hrunning, List.filterMap_cons_none hop] at hbefore
      rw [(execOp_other cfg expireAt h.core hop).1, List.nil_append]
      exact hbefore
    | some p =>
      rw [(hshaped.front hrunning hop).1]
      rcases op.phase_cases key sid with ⟨member, rfl⟩ | ⟨userId, rfl⟩ | rfl | rfl | hother
      · obtain rfl : p = .join := (Option.some.inj (hop.symm.trans (if_pos ⟨rfl, rfl⟩)))
        simp only [execOp]
        split <;> simp [BridgeOp.phase, Phase.after]
      · obtain rfl : p = .leave := (Option.some.inj (hop.symm.trans (if_pos ⟨rfl, rfl⟩)))
        simp [execOp, Phase.after]
      · obtain rfl : p = .refuse := (Option.some.inj (hop.symm.trans (if_pos ⟨rfl, rfl⟩)))
        simp [execOp, Phase.after]
      · obtain rfl : p = .takeBack := (Option.some.inj (hop.symm.trans (if_pos ⟨rfl, rfl⟩)))
        simp only [execOp]
        split <;> simp [BridgeOp.phase, Phase.after]
      · rw [hop] at hother
        cases hother

theorem Hub.Counted.exec (hcounted : h.Counted) : (h.exec cfg expireAt).Counted := by
  intro key'
  cases hrunning : h.running with
  | nil => simpa [Hub.exec, hrunning] using hcounted key'
  | cons op =>
    simp only [Hub.exec, hrunning]
    cases op with
    | presenceJoin key =>
      simp only [execOp, Keyspace.pres_setPresence]
      split
      · exact (hcounted key).join _ _ _ _
      · exact hcounted key'
    | presenceLeave key =>
      simp only [execOp, Keyspace.pres_setPresence]
      split
      · exact (hcounted key).leave _ _
      · exact hcounted key'
    | membershipJoin | unsubscribe =>
      simpa only [execOp, Keyspace.pres_setMembership] using hcounted key'
    | userSignout => simpa only [execOp, Keyspace.pres_setMembership] using hcounted key'
    | _ => exact hcounted key'

theorem Hub.Membered.exec (hmembered : h.Membered) : (h.exec cfg expireAt).Membered := by
  intro key' sid' member hkind hsub
  cases hrunning : h.running with
  | nil =>
    rw [Hub.exec, hrunning] at hsub
    exact hmembered key' sid' member hkind hsub
  | cons op =>
    simp only [Hub.exec, hrunning] at hsub
    cases op with
    | undoJoin =>
      simp only [execOp, Registry.subscriber_unsubscribe] at hsub
      split at hsub
      · cases hsub
      · exact hmembered key' sid' member hkind hsub
    | _ => exact hmembered key' sid' member hkind hsub

end Exec

end Pylon.Cluster
