import Pylon.Auth.Token
import Pylon.Channel.Kind
import Pylon.Channel.Registry
import Pylon.Protocol.Event
import Pylon.Transport.Frame

/-!
# Per-connection command dispatch

`ConnectionContext` of `ws/handler.rs`, with its `subscribe` and `client_event`
(`ws/subscribe.rs`) and `signin` (`ws/signin.rs`).

The libraries (HMAC, JSON, UTF-8 and the codec of the negotiated version) are
parameters. What a command reads of the world comes with it: the saturation flag, the
rate limiter's answer, the cached event, who is online.

Every command is one of four things to the session (`Dispatched`): quiet, a
refusal, a join or a leave.
-/

namespace Pylon.Ws

open Pylon.Auth Pylon.Channel Pylon.Lib Pylon.Protocol Pylon.Redis

structure App where
  id : String
  key : String
  secret : String
  clientMessagesEnabled : Bool := false
  subscriptionCountEnabled : Bool := false
  hasChannelOccupiedWebhooks : Bool := false
  hasChannelVacatedWebhooks : Bool := false
  hasMemberAddedWebhooks : Bool := false
  hasMemberRemovedWebhooks : Bool := false
  hasCacheMissWebhooks : Bool := false
  hasClientEventWebhooks : Bool := false
  hasSubscriptionCountWebhooks : Bool := false
  deriving DecidableEq

structure Limits where
  maxSubscriptionsPerConnection : Nat
  maxChannelNameLength : Nat
  maxPresenceUserIdLength : Nat
  maxPresenceUserInfoBytes : Nat
  maxPresenceMembers : Nat
  maxEventNameLength : Nat
  maxEventPayloadBytes : Nat
  maxWatchlistSize : Nat
  deriving DecidableEq

structure AuthenticatedUser where
  id : String
  userDataRaw : String
  watchlist : List String
  deriving DecidableEq

structure ConnectionContext (Value : Type) where
  app : App
  socketId : Text
  mailbox : Mailbox Value
  limits : Limits
  subscribed : Finset String := ∅
  user : Option AuthenticatedUser := none
  presenceMembership : Hash String String := ∅
  clustered : Bool
  capabilities : Capabilities

/-- The adapter operations a context calls. `resendPresenceAck` returns what it
puts into the mailbox at once. -/
structure Adapter (A Value : Type) where
  subscribe : A → Key → Text → Option (PresenceMember Value) → A × SubscribeOutcome Value
  unsubscribe : A → Key → Text → A × UnsubscribeOutcome
  userCount : A → Key → Option Nat
  presenceMembers : A → Key → List (PresenceMember Value)
  resendPresenceAck : A → Key → Text → A × Option (RosterFrame Value)
  signinUser : A → Key → Text → A × Bool
  signoutUser : A → Key → Text → A × Bool

/-- The library functions the program calls. -/
structure Outside (Value : Type) where
  hmac : String → String → String
  parseChannelData : String → Option (PresenceMember Value)
  parseUserData : String → Option AuthenticatedUser
  isNull : Value → Bool
  jsonBytes : Value → Nat
  fromUtf8 : Transport.Bytes → Option String
  decode : String → Option (ClientCommand Value)
  encode : ServerEvent Value → Transport.Bytes

structure Inputs (Value : Type) where
  saturated : Bool := false
  rateOk : Bool := true
  cached : Option (String × Value) := none
  online : List String := []

inductive WebhookEvent (Value : Type) where
  | channelOccupied (key : Key)
  | channelVacated (key : Key)
  | memberAdded (key : Key) (userId : String)
  | memberRemoved (key : Key) (userId : String)
  | cacheMiss (key : Key)
  | clientEvent (key : Key) (event : String) (data : Value) (socketId : Text)
      (userId : Option String)
  | subscriptionCount (key : Key) (count : Nat)

inductive Effect (Value : Type) where
  | broadcast (key : Key) (event : ServerEvent Value) (except : Option Text)
  | webhook (event : WebhookEvent Value)
  | notifyWatchers (userId name : String)

/-- A context, the adapter it works on, and the effects issued so far. -/
structure Scope (A Value : Type) where
  ctx : ConnectionContext Value
  adapter : A
  effects : List (Effect Value) := []

namespace Scope

variable {A Value : Type} (ad : Adapter A Value) (out : Outside Value)

/-- The registry key of a channel of this connection's app. -/
def key (s : Scope A Value) (channel : String) : Key := (s.ctx.app.id, channel)

def sendSelf (s : Scope A Value) (event : ServerEvent Value) : Scope A Value :=
  { s with ctx := { s.ctx with mailbox := s.ctx.mailbox.trySend event } }

def emit (s : Scope A Value) (effect : Effect Value) : Scope A Value :=
  { s with effects := s.effects ++ [effect] }

/-- Issue an effect the app asked for. -/
def emitIf (s : Scope A Value) (wanted : Bool) (effect : Effect Value) : Scope A Value :=
  if wanted then s.emit effect else s

def sendSubscriptionError (s : Scope A Value) (channel errorType error : String) (status : Nat) :
    Scope A Value :=
  s.sendSelf (.subscriptionError channel errorType error status)

def maybeEmitCount (s : Scope A Value) (channel : String) (count : Nat) : Scope A Value :=
  if s.ctx.clustered then s
  -- presence channels tell their membership by member events
  else if (ChannelInfo.of channel).auth = .presence then s
  else if s.ctx.app.subscriptionCountEnabled then
    (s.emit (.broadcast (s.key channel) (.subscriptionCount channel count) none)).emitIf
      (decide (0 < count) && s.ctx.app.hasSubscriptionCountWebhooks)
      (.webhook (.subscriptionCount (s.key channel) count))
  else s

def emitOccupiedIfEdge (s : Scope A Value) (channel : String) (occupied : Bool) : Scope A Value :=
  if s.ctx.clustered then s
  else s.emitIf (occupied && s.ctx.app.hasChannelOccupiedWebhooks)
    (.webhook (.channelOccupied (s.key channel)))

/-! ## Subscribe -/

/-- What a `subscribe` command comes to. -/
inductive Verdict (Value : Type) where
  | duplicate
  | refuse (errorType error : String) (status : Nat)
  | acknowledge
  | join (member : Option (PresenceMember Value))

/-- The private and encrypted arms. -/
def admitPrivate (s : Scope A Value) (channel : String) (auth : Option String) : Verdict Value :=
  match auth with
  | none => .refuse "AuthError" "Auth signature required" 401
  | some token =>
    match verifyChannel out.hmac s.ctx.app.key s.ctx.app.secret s.ctx.socketId channel none
      token with
    | .error e => .refuse "AuthError" e.message 401
    | .ok () => .join none

/-- The presence checks behind the signature. The cap is the cluster's business on
a clustered node. -/
def admitMember (s : Scope A Value) (channel : String) (member : PresenceMember Value) :
    Verdict Value :=
  if s.ctx.limits.maxPresenceUserIdLength < member.userId.length then
    .refuse "InvalidPresenceData" "user_id exceeds maximum length" 401
  else if ¬ out.isNull member.userInfo ∧
      s.ctx.limits.maxPresenceUserInfoBytes < out.jsonBytes member.userInfo then
    .refuse "InvalidPresenceData" "user_info exceeds maximum size" 401
  else if ¬ s.ctx.clustered ∧
      ¬ (ad.presenceMembers s.adapter (s.key channel)).any (fun m => m.userId == member.userId) ∧
      s.ctx.limits.maxPresenceMembers ≤ (ad.userCount s.adapter (s.key channel)).getD 0 then
    .refuse "LimitReached" "Presence channel is full" 4004
  else .join (some member)

/-- The presence arm. -/
def admitPresence (s : Scope A Value) (channel : String) (auth channelData : Option String) :
    Verdict Value :=
  if ¬ s.ctx.capabilities.presence then
    .refuse "AuthError" "Presence channels are not supported by this protocol version" 401
  else
    match auth, channelData with
    | none, _ => .refuse "AuthError" "Auth signature required" 401
    | some _, none => .refuse "AuthError" "Presence requires channel_data" 401
    | some token, some raw =>
      match verifyChannel out.hmac s.ctx.app.key s.ctx.app.secret s.ctx.socketId channel (some raw)
          token with
      | .error e => .refuse "AuthError" e.message 401
      | .ok () =>
        match out.parseChannelData raw with
        | none => .refuse "AuthError" "Invalid channel_data" 401
        | some member => s.admitMember ad out channel member

/-- The checks of `subscribe`, in order. -/
def admitSubscribe (s : Scope A Value) (channel : String) (auth channelData : Option String)
    (inp : Inputs Value) : Verdict Value :=
  let cap := s.ctx.limits.maxSubscriptionsPerConnection
  if channel ∈ s.ctx.subscribed then .duplicate
  else if cap ≠ 0 ∧ cap ≤ s.ctx.subscribed.card then
    .refuse "LimitReached" "Subscription limit reached for this connection" 4004
  else if inp.saturated then
    .refuse "LimitReached" "Server is over capacity; try again shortly" 4004
  else
    match stripPre serverToUserPre channel with
    | some uid =>
      if s.ctx.user.any (fun user => user.id == uid) then .acknowledge
      else .refuse "AuthError" "Unauthorized" 401
    | none =>
      if (stripPre "#" channel).isSome then .refuse "AuthError" "Unknown channel" 401
      else if ¬ validateChannelName channel s.ctx.limits.maxChannelNameLength then
        .refuse "InvalidChannel" "Invalid channel name" 4009
      else if (ChannelInfo.of channel).cache ∧ ¬ s.ctx.capabilities.cacheChannels then
        .refuse "AuthError" "Cache channels are not supported by this protocol version" 401
      else
        match (ChannelInfo.of channel).auth with
        | .pub => .join none
        | .priv => s.admitPrivate out channel auth
        | .privateEncrypted =>
          if ¬ s.ctx.capabilities.encryptedChannels then
            .refuse "AuthError" "Encrypted channels are not supported by this protocol version" 401
          else s.admitPrivate out channel auth
        | .presence => s.admitPresence ad out channel auth channelData

/-- Commit a join: the adapter first, then `subscribed`. -/
def commit (s : Scope A Value) (channel : String) (member : Option (PresenceMember Value)) :
    Scope A Value × SubscribeOutcome Value :=
  let r := ad.subscribe s.adapter (s.key channel) s.ctx.socketId member
  ({ s with
      adapter := r.1
      ctx := { s.ctx with subscribed := insert channel s.ctx.subscribed } }, r.2)

/-- The public and private arms after the checks. -/
def joinPlain (s : Scope A Value) (channel : String) : Scope A Value :=
  let (s, outcome) := s.commit ad channel none
  let s := s.sendSelf (.subscriptionSucceeded channel none)
  let s := s.maybeEmitCount channel outcome.subscriptionCount
  s.emitOccupiedIfEdge channel outcome.occupied

/-- The acknowledgement and `member_added` of a node-local presence join. -/
def announceJoin (s : Scope A Value) (channel : String) (join : PresenceJoin Value) :
    Scope A Value :=
  let s := s.sendSelf (.raw join.rosterFrame)
  if join.firstForUser then
    (s.emit (.broadcast (s.key channel)
      (.memberAdded channel join.member.userId join.member.userInfo) (some s.ctx.socketId))).emitIf
      s.ctx.app.hasMemberAddedWebhooks (.webhook (.memberAdded (s.key channel) join.member.userId))
  else s

/-- The presence arm after the checks. -/
def joinPresence (s : Scope A Value) (channel : String) (member : PresenceMember Value) :
    Scope A Value :=
  let (s, outcome) := s.commit ad channel (some member)
  let s := { s with ctx := { s.ctx with
    presenceMembership := s.ctx.presenceMembership.hset channel member.userId } }
  let s := match outcome.presence with
    | some join => if s.ctx.clustered then s else s.announceJoin channel join
    | none => s
  let s := s.maybeEmitCount channel outcome.subscriptionCount
  s.emitOccupiedIfEdge channel outcome.occupied

/-- Replay the last event of a cache channel, or report a miss. -/
def replayCache (s : Scope A Value) (channel : String) (inp : Inputs Value) : Scope A Value :=
  if ¬ s.ctx.clustered ∧ (ChannelInfo.of channel).cache ∧ channel ∈ s.ctx.subscribed then
    match inp.cached with
    | some (event, data) => s.sendSelf (.channelEvent channel event data none)
    | none =>
      (s.emitIf s.ctx.app.hasCacheMissWebhooks (.webhook (.cacheMiss (s.key channel)))).sendSelf
        (.cacheMiss channel)
  else s

def resendSubscriptionSucceeded (s : Scope A Value) (channel : String) : Scope A Value :=
  if (ChannelInfo.of channel).auth = .presence then
    let (adapter, frame) := ad.resendPresenceAck s.adapter (s.key channel) s.ctx.socketId
    let s := { s with adapter }
    match frame with
    | some frame => s.sendSelf (.raw frame)
    | none => s
  else s.sendSelf (.subscriptionSucceeded channel none)

def subscribe (s : Scope A Value) (channel : String) (auth channelData : Option String)
    (inp : Inputs Value) : Scope A Value :=
  match s.admitSubscribe ad out channel auth channelData inp with
  | .duplicate => s.resendSubscriptionSucceeded ad channel
  | .refuse errorType error status => s.sendSubscriptionError channel errorType error status
  | .acknowledge => s.sendSelf (.subscriptionSucceeded channel none)
  | .join none => (s.joinPlain ad channel).replayCache channel inp
  | .join (some member) => (s.joinPresence ad channel member).replayCache channel inp

/-! ## Unsubscribe -/

def unsubscribe (s : Scope A Value) (channel : String) : Scope A Value :=
  if channel ∈ s.ctx.subscribed then
    let r := ad.unsubscribe s.adapter (s.key channel) s.ctx.socketId
    let s := { s with
      adapter := r.1
      ctx := { s.ctx with
        subscribed := s.ctx.subscribed.erase channel
        presenceMembership := s.ctx.presenceMembership.hdel channel } }
    let s := match r.2.presence with
      | some leave =>
        if ¬ s.ctx.clustered ∧ leave.lastForUser then
          (s.emit (.broadcast (s.key channel) (.memberRemoved channel leave.userId) none)).emitIf
            s.ctx.app.hasMemberRemovedWebhooks
            (.webhook (.memberRemoved (s.key channel) leave.userId))
        else s
      | none => s
    let s := s.emitIf (!s.ctx.clustered && r.2.vacated && s.ctx.app.hasChannelVacatedWebhooks)
      (.webhook (.channelVacated (s.key channel)))
    s.maybeEmitCount channel r.2.subscriptionCount
  else s

/-! ## Client events and sign-in -/

def clientEvent (s : Scope A Value) (event channel : String) (data : Value)
    (inp : Inputs Value) : Scope A Value :=
  let auth := (ChannelInfo.of channel).auth
  if ¬ s.ctx.capabilities.clientEvents then
    s.sendSelf (.clientEventError 4301
      "Client events are not supported by this protocol version.")
  else if ¬ s.ctx.app.clientMessagesEnabled then
    s.sendSelf (.clientEventError 4301 "The app does not have client messaging enabled.")
  else if ¬ (auth = .priv ∨ auth = .presence) ∨ channel ∉ s.ctx.subscribed then s
  else if s.ctx.limits.maxEventNameLength < event.utf8ByteSize then
    s.sendSelf (.clientEventError 4301 ("Event name is too long. Maximum allowed size is " ++
      toString s.ctx.limits.maxEventNameLength ++ "."))
  else if s.ctx.limits.maxEventPayloadBytes < out.jsonBytes data then
    s.sendSelf (.clientEventError 4301 "Client event rejected - the data is too large")
  else if inp.saturated then s
  else if ¬ inp.rateOk then
    s.sendSelf (.clientEventError 4301 "Client event rejected due to rate limit")
  else
    let userId := s.ctx.presenceMembership.hget channel
    (s.emit (.broadcast (s.key channel) (.channelEvent channel event data userId)
      (some s.ctx.socketId))).emitIf s.ctx.app.hasClientEventWebhooks
      (.webhook (.clientEvent (s.key channel) event data s.ctx.socketId userId))

def failSignin (s : Scope A Value) (message : String) : Scope A Value :=
  (s.sendSelf (.error ⟨4009, message⟩)).sendSelf (.close 4009 message)

/-- Watch the listed users, the list cut to the cap. -/
def watch (s : Scope A Value) (watchlist : List String) (inp : Inputs Value) : Scope A Value :=
  let max := s.ctx.limits.maxWatchlistSize
  let s := if max < watchlist.length then
      s.sendSelf (.error ⟨4302, "Watchlist limit exceeded; only the first " ++ toString max ++
        " entries are tracked."⟩)
    else s
  if ¬ (watchlist.take max).isEmpty ∧ ¬ s.ctx.clustered ∧ ¬ inp.online.isEmpty then
    s.sendSelf (.watchlistEvents [⟨"online", inp.online⟩])
  else s

def signin (s : Scope A Value) (auth userData : String) (inp : Inputs Value) : Scope A Value :=
  if ¬ s.ctx.capabilities.userAuth then s.failSignin "Connection not authorized."
  else
    match s.ctx.user with
    | some existing =>
      if existing.userDataRaw = userData then s.sendSelf (.signinSuccess userData)
      else s.failSignin "Connection not authorized."
    | none =>
      match verifyUser out.hmac s.ctx.app.key s.ctx.app.secret s.ctx.socketId userData auth with
      | .error _ => s.failSignin "Connection not authorized."
      | .ok () =>
        match out.parseUserData userData with
        | none => s.failSignin "The returned user data must contain the \"id\" field."
        | some user =>
          let r := ad.signinUser s.adapter (s.key user.id) s.ctx.socketId
          let s := { s with adapter := r.1 }.sendSelf (.signinSuccess user.userDataRaw)
          let s := s.emitIf (!s.ctx.clustered && r.2) (.notifyWatchers user.id "online")
          let s := if s.ctx.capabilities.watchlist then s.watch user.watchlist inp else s
          { s with ctx := { s.ctx with user := some user } }

/-! ## Dispatch and close -/

def dispatch (s : Scope A Value) (cmd : ClientCommand Value) (inp : Inputs Value) :
    Scope A Value :=
  match cmd with
  | .ping => s.sendSelf .pong
  | .subscribe channel auth channelData => s.subscribe ad out channel auth channelData inp
  | .unsubscribe channel => s.unsubscribe ad channel
  | .clientEvent event channel data => s.clientEvent out event channel data inp
  | .signin auth userData => s.signin ad out auth userData inp
  | .unknown _ => s

/-- Leave every channel, then sign out. -/
def onClose (s : Scope A Value) : Scope A Value :=
  let s := (inOrder s.ctx.subscribed).foldl (fun s channel => s.unsubscribe ad channel) s
  match s.ctx.user with
  | some user =>
    let r := ad.signoutUser s.adapter (s.key user.id) s.ctx.socketId
    let s := { s with adapter := r.1, ctx := { s.ctx with user := none } }
    s.emitIf (!s.ctx.clustered && r.2) (.notifyWatchers user.id "offline")
  | none => s

end Scope

end Pylon.Ws
