import Pylon.Ws.Dispatch

/-!
# Commands in steps

A command calls the adapter several times and other workers call it in between. Here a
command is cut at those calls.

* **`Stage`** — where a worker is in a command: `begin` starts one, `Stage.step` takes it
  to its next call;
* **notices** — the `member_added` and `member_removed` broadcasts, and the stages that
  have one still to issue (`Stage.step_tells`).
-/

namespace Pylon.Ws

open Pylon.Channel Pylon.Lib Pylon.Protocol Pylon.Redis

variable {A Value : Type}

/-- What a worker does next for a connection. -/
inductive Stage (Value : Type) where
  /-- The checks have passed and the users of the channel are counted. -/
  | counted (channel : String) (member : PresenceMember Value) (inp : Inputs Value) (current : Nat)
  /-- The join may go to the adapter. -/
  | admitted (channel : String) (member : Option (PresenceMember Value)) (inp : Inputs Value)
  /-- The adapter has the join; its acknowledgement and broadcast are to come. -/
  | joined (channel : String) (member : Option (PresenceMember Value))
      (outcome : SubscribeOutcome Value) (inp : Inputs Value)
  /-- Channels to leave, and whether the connection closes. -/
  | leaving (channels : List String) (closing : Bool)
  /-- The adapter has the leave; its broadcast is to come. -/
  | left (channel : String) (outcome : UnsubscribeOutcome) (rest : List String) (closing : Bool)

namespace Scope

variable (ad : Adapter A Value) (out : Outside Value)

/-- The checks of `subscribe` before the cap: those a clustered node makes. -/
def screen (s : Scope A Value) (channel : String) (auth channelData : Option String)
    (inp : Inputs Value) : Verdict Value :=
  Scope.admitSubscribe ad out { s with ctx := { s.ctx with clustered := true } } channel auth
    channelData inp

/-- What is left of `subscribe` once the adapter has the join. -/
def afterJoin (s : Scope A Value) (channel : String) (member : Option (PresenceMember Value))
    (outcome : SubscribeOutcome Value) : Scope A Value :=
  let s := match member with
    | none => s.sendSelf (.subscriptionSucceeded channel none)
    | some member =>
      let s := { s with ctx := { s.ctx with
        presenceMembership := s.ctx.presenceMembership.hset channel member.userId } }
      match outcome.presence with
      | some join => if s.ctx.clustered then s else s.announceJoin channel join
      | none => s
  let s := s.maybeEmitCount channel outcome.subscriptionCount
  s.emitOccupiedIfEdge channel outcome.occupied

/-- Take the connection out of a channel. -/
def withdraw (s : Scope A Value) (channel : String) : Scope A Value × UnsubscribeOutcome :=
  let r := ad.unsubscribe s.adapter (s.key channel) s.ctx.socketId
  ({ s with
      adapter := r.1
      ctx := { s.ctx with
        subscribed := s.ctx.subscribed.erase channel
        presenceMembership := s.ctx.presenceMembership.hdel channel } }, r.2)

/-- What is left of `unsubscribe` once the adapter has the leave. -/
def afterLeave (s : Scope A Value) (channel : String) (outcome : UnsubscribeOutcome) :
    Scope A Value :=
  let s := match outcome.presence with
    | some leave =>
      if ¬ s.ctx.clustered ∧ leave.lastForUser then
        (s.emit (.broadcast (s.key channel) (.memberRemoved channel leave.userId) none)).emitIf
          s.ctx.app.hasMemberRemovedWebhooks
          (.webhook (.memberRemoved (s.key channel) leave.userId))
      else s
    | none => s
  let s := s.emitIf (!s.ctx.clustered && outcome.vacated && s.ctx.app.hasChannelVacatedWebhooks)
    (.webhook (.channelVacated (s.key channel)))
  s.maybeEmitCount channel outcome.subscriptionCount

/-- The end of `on_close`. -/
def signoff (s : Scope A Value) : Scope A Value :=
  match s.ctx.user with
  | some user =>
    let r := ad.signoutUser s.adapter (s.key user.id) s.ctx.socketId
    let s := { s with adapter := r.1, ctx := { s.ctx with user := none } }
    s.emitIf (!s.ctx.clustered && r.2) (.notifyWatchers user.id "offline")
  | none => s

/-- A command, up to its first call into the registry. -/
def begin (s : Scope A Value) (cmd : ClientCommand Value) (inp : Inputs Value) :
    Scope A Value × Option (Stage Value) :=
  match cmd with
  | .subscribe channel auth channelData =>
    match s.screen ad out channel auth channelData inp with
    | .duplicate => (s.resendSubscriptionSucceeded ad channel, none)
    | .refuse errorType error status =>
      (s.sendSubscriptionError channel errorType error status, none)
    | .acknowledge => (s.sendSelf (.subscriptionSucceeded channel none), none)
    | .join none => (s, some (.admitted channel none inp))
    | .join (some member) =>
      if s.ctx.clustered then (s, some (.admitted channel (some member) inp))
      else
        (s, some (.counted channel member inp ((ad.userCount s.adapter (s.key channel)).getD 0)))
  | .unsubscribe channel => (s, some (.leaving [channel] false))
  | cmd => (s.dispatch ad out cmd inp, none)

end Scope

/-- From one call into the registry to the next. -/
def Stage.step (ad : Adapter A Value) (s : Scope A Value) :
    Stage Value → Scope A Value × Option (Stage Value)
  | .counted channel member inp current =>
    if ¬ (ad.presenceMembers s.adapter (s.key channel)).any (fun m => m.userId == member.userId) ∧
        s.ctx.limits.maxPresenceMembers ≤ current then
      (s.sendSubscriptionError channel "LimitReached" "Presence channel is full" 4004, none)
    else (s, some (.admitted channel (some member) inp))
  | .admitted channel member inp =>
    let r := s.commit ad channel member
    (r.1, some (.joined channel member r.2 inp))
  | .joined channel member outcome inp =>
    ((s.afterJoin channel member outcome).replayCache channel inp, none)
  | .leaving [] closing => (if closing then s.signoff ad else s, none)
  | .leaving (channel :: rest) closing =>
    if channel ∈ s.ctx.subscribed then
      let r := s.withdraw ad channel
      (r.1, some (.left channel r.2 rest closing))
    else (s, some (.leaving rest closing))
  | .left channel outcome rest closing =>
    (s.afterLeave channel outcome, some (.leaving rest closing))

/-- The connection is gone after this step. -/
def Stage.closes : Stage Value → Bool
  | .leaving [] closing => closing
  | _ => false

/-! ## Notices -/

/-- The notice a worker has still to give, for a connection of the app. -/
def Stage.notice (app : String) : Stage Value → Option Notice
  | .joined channel (some _) outcome _ => outcome.presence.bind fun join =>
    if join.firstForUser then some ⟨(app, channel), join.member.userId, .up⟩ else none
  | .left channel outcome _ _ => outcome.presence.bind fun leave =>
    if leave.lastForUser then some ⟨(app, channel), leave.userId, .down⟩ else none
  | _ => none

/-- The notices given so far, in order. -/
def Scope.notices (s : Scope A Value) : List Notice := s.effects.filterMap Effect.notice

/-- Nobody was told of a member, and the limits are the same. -/
structure Hushed (s s' : Scope A Value) : Prop where
  notices : s'.notices = s.notices
  limits : s'.ctx.limits = s.ctx.limits

namespace Hushed

variable (s : Scope A Value) (channel : String)

theorem refl : Hushed s s := ⟨rfl, rfl⟩

theorem trans {s s' s'' : Scope A Value} (h : Hushed s s') (h' : Hushed s' s'') : Hushed s s'' :=
  ⟨h'.notices.trans h.notices, h'.limits.trans h.limits⟩

theorem sendSelf (event : ServerEvent Value) : Hushed s (s.sendSelf event) :=
  ⟨rfl, rfl⟩

theorem emit {effect : Effect Value} (h : effect.notice = none) : Hushed s (s.emit effect) :=
  ⟨by simp [Scope.notices, Scope.emit, h], rfl⟩

theorem talk : Talk (@Hushed A Value) :=
  ⟨refl, trans, fun s event _ => sendSelf s event, emit⟩

variable (ad : Adapter A Value) (out : Outside Value)

theorem signin (auth userData : String) (inp : Inputs Value) :
    Hushed s (s.signin ad out auth userData inp) := by
  unfold Scope.signin
  split
  · exact talk.failSignin s _
  split
  · split
    · exact sendSelf s _
    · exact talk.failSignin s _
  split
  · exact talk.failSignin s _
  split
  · exact talk.failSignin s _
  next user _ =>
    dsimp only
    have hsent : Hushed s (Scope.sendSelf
        { s with adapter := (ad.signinUser s.adapter (s.key user.id) s.ctx.socketId).1 }
        (.signinSuccess user.userDataRaw)) := ⟨rfl, rfl⟩
    refine hsent.trans ?_
    generalize Scope.sendSelf _ _ = sent
    have hemit := talk.emitIf sent
      (!sent.ctx.clustered && (ad.signinUser s.adapter (s.key user.id) s.ctx.socketId).2)
      (.notifyWatchers user.id "online") rfl
    refine hemit.trans ?_
    split
    · exact (talk.watch _ _ _).trans ⟨rfl, rfl⟩
    · exact ⟨rfl, rfl⟩

theorem resend : Hushed s (s.resendSubscriptionSucceeded ad channel) := by
  unfold Scope.resendSubscriptionSucceeded
  split
  · dsimp only
    split <;> exact ⟨rfl, rfl⟩
  · exact sendSelf s _

theorem signoff : Hushed s (s.signoff ad) := by
  unfold Scope.signoff
  split
  next user _ =>
    have hout : Hushed s { s with
        adapter := (ad.signoutUser s.adapter (s.key user.id) s.ctx.socketId).1
        ctx := { s.ctx with user := none } } := ⟨rfl, rfl⟩
    exact hout.trans (talk.emitIf _ _ _ rfl)
  next => exact refl s

end Hushed

/-! ## What a step does -/

theorem Quiet.afterJoin (s : Scope A Value) (channel : String)
    (member : Option (PresenceMember Value)) (outcome : SubscribeOutcome Value) :
    Quiet s (s.afterJoin channel member outcome) := by
  unfold Scope.afterJoin
  refine Quiet.trans ?_ ((talk.maybeEmitCount _ _ _).trans (talk.emitOccupiedIfEdge _ _ _))
  cases member with
  | none => exact sendSelf s rfl
  | some member =>
    have hrecorded : Quiet s { s with ctx := { s.ctx with
        presenceMembership := s.ctx.presenceMembership.hset channel member.userId } } :=
      ⟨⟨rfl, rfl, rfl⟩, rfl, .refl _, rfl⟩
    refine hrecorded.trans ?_
    dsimp only
    split
    · split
      · exact refl _
      · exact announceJoin _ _ _
    · exact refl _

theorem Quiet.afterLeave (s : Scope A Value) (channel : String) (outcome : UnsubscribeOutcome) :
    Quiet s (s.afterLeave channel outcome) := by
  unfold Scope.afterLeave
  refine Quiet.trans ?_ ((talk.emitIf _ _ _ rfl).trans (talk.maybeEmitCount _ _ _))
  split
  · split
    · exact (emit _ _).trans (talk.emitIf _ _ _ rfl)
    · exact refl s
  · exact refl s

theorem signoff_idle (ad : Adapter A Value) (s : Scope A Value) :
    SameConn s.ctx (s.signoff ad).ctx ∧
      Idle ad s.ctx.socketId s.adapter (s.signoff ad).adapter := by
  unfold Scope.signoff
  split
  next user _ =>
    have hquiet := Quiet.talk.emitIf
      { s with
        adapter := (ad.signoutUser s.adapter (s.key user.id) s.ctx.socketId).1
        ctx := { s.ctx with user := none } }
      (!s.ctx.clustered && (ad.signoutUser s.adapter (s.key user.id) s.ctx.socketId).2)
      (.notifyWatchers user.id "offline") rfl
    refine ⟨⟨hquiet.same.app, hquiet.same.socketId, hquiet.same.clustered⟩, ?_⟩
    rw [hquiet.adapter]
    exact .signout (s.key user.id)
  next => exact ⟨.refl _, .none⟩

/-- Something was told, and the limits are the same. -/
structure Tells (notice : Option Notice) (s s' : Scope A Value) : Prop where
  notices : s'.notices = s.notices ++ notice.toList
  limits : s'.ctx.limits = s.ctx.limits

variable {s s' : Scope A Value}

theorem Tells.hushed {notice : Option Notice} {s'' : Scope A Value} (h : Tells notice s s')
    (h' : Hushed s' s'') : Tells notice s s'' :=
  ⟨h'.notices.trans h.notices, h'.limits.trans h.limits⟩

theorem Hushed.tells (h : Hushed s s') : Tells none s s' :=
  ⟨h.notices.trans (List.append_nil _).symm, h.limits⟩

theorem Tells.emit (s : Scope A Value) (effect : Effect Value) :
    Tells effect.notice s (s.emit effect) := by
  refine ⟨?_, rfl⟩
  unfold Scope.notices Scope.emit
  rw [List.filterMap_append]
  cases h : effect.notice <;> simp [h]

theorem Tells.announceJoin (s : Scope A Value) (channel : String) (join : PresenceJoin Value) :
    Tells (if join.firstForUser then some ⟨s.key channel, join.member.userId, .up⟩ else none) s
      (s.announceJoin channel join) := by
  unfold Scope.announceJoin
  split
  · refine Tells.hushed ?_ (Hushed.talk.emitIf _ _ _ rfl)
    exact ⟨(Tells.emit _ _).notices, rfl⟩
  · exact (Hushed.sendSelf s _).tells

/-- A join's notice is given after the adapter has the join. -/
theorem tells_afterJoin (hlocal : s.ctx.clustered = false) (channel : String)
    (member : Option (PresenceMember Value)) (outcome : SubscribeOutcome Value)
    (inp : Inputs Value) :
    Tells ((Stage.joined channel member outcome inp).notice s.ctx.app.id) s
      (s.afterJoin channel member outcome) := by
  unfold Scope.afterJoin
  refine Tells.hushed ?_ ((Hushed.talk.maybeEmitCount _ _ _).trans (Hushed.talk.emitOccupiedIfEdge _ _ _))
  cases member with
  | none => exact (Hushed.sendSelf s _).tells
  | some member =>
    dsimp only [Stage.notice]
    cases outcome.presence with
    | none => exact Hushed.tells ⟨rfl, rfl⟩
    | some join =>
      dsimp only
      rw [if_neg (by simp [hlocal])]
      obtain ⟨hnotices, hlimits⟩ := Tells.announceJoin
        { s with ctx := { s.ctx with
          presenceMembership := s.ctx.presenceMembership.hset channel member.userId } } channel join
      exact ⟨hnotices, hlimits⟩

/-- A leave's notice is given after the adapter has the leave. -/
theorem tells_afterLeave (hlocal : s.ctx.clustered = false) (channel : String)
    (outcome : UnsubscribeOutcome) (rest : List String) (closing : Bool) :
    Tells ((Stage.left channel outcome rest closing : Stage Value).notice s.ctx.app.id) s
      (s.afterLeave channel outcome) := by
  unfold Scope.afterLeave
  refine Tells.hushed ?_ ((Hushed.talk.emitIf _ _ _ rfl).trans (Hushed.talk.maybeEmitCount _ _ _))
  dsimp only [Stage.notice]
  cases outcome.presence with
  | none => exact (Hushed.refl s).tells
  | some leave =>
    dsimp only [Option.bind_some]
    by_cases hlast : leave.lastForUser = true
    · rw [if_pos hlast, if_pos ⟨by simp [hlocal], hlast⟩]
      refine Tells.hushed ?_ (Hushed.talk.emitIf _ _ _ rfl)
      exact Tells.emit s (.broadcast (s.key channel) (.memberRemoved channel leave.userId) none)
    · rw [if_neg hlast, if_neg fun h => hlast h.2]
      exact (Hushed.refl s).tells

variable (ad : Adapter A Value) (out : Outside Value)

/-- What `begin` makes of a command. -/
inductive Begun (s : Scope A Value) : Scope A Value × Option (Stage Value) → Prop
  | done {s' : Scope A Value} (same : SameConn s.ctx s'.ctx) (hushed : Hushed s s')
      (idle : Idle ad s.ctx.socketId s.adapter s'.adapter) : Begun s (s', none)
  | counts (channel : String) (member : PresenceMember Value) (inp : Inputs Value) :
      Begun s (s, some (.counted channel member inp
        ((ad.userCount s.adapter (s.key channel)).getD 0)))
  | joins (channel : String) (inp : Inputs Value) : Begun s (s, some (.admitted channel none inp))
  | leaves (channels : List String) (closing : Bool) :
      Begun s (s, some (.leaving channels closing))

theorem Begun.of_idles (h : Idles ad s s') (hushed : Hushed s s') : Begun ad s (s', none) := by
  obtain ⟨a, hidle, hquiet⟩ := h
  refine .done ⟨hquiet.same.app, hquiet.same.socketId, hquiet.same.clustered⟩ hushed ?_
  rw [hquiet.adapter]
  exact hidle

theorem Begun.same {ad : Adapter A Value} {r : Scope A Value × Option (Stage Value)}
    (h : Begun ad s r) : SameConn s.ctx r.1.ctx ∧ Hushed s r.1 := by
  cases h with
  | done same hushed => exact ⟨same, hushed⟩
  | _ => exact ⟨.refl _, .refl s⟩

/-- Nobody is told of a member before the adapter is called. -/
theorem begin_spec (hlocal : s.ctx.clustered = false) (cmd : ClientCommand Value)
    (inp : Inputs Value) : Begun ad s (s.begin ad out cmd inp) := by
  have hsend (event : ServerEvent Value) : Begun ad s (s.sendSelf event, none) :=
    .done ⟨rfl, rfl, rfl⟩ (.sendSelf s event) .none
  cases cmd with
  | ping => exact hsend .pong
  | unsubscribe channel => exact .leaves [channel] false
  | clientEvent event channel data =>
    exact .of_idles ad ((Quiet.talk.clientEvent s out event channel data inp).idles ad)
      (Hushed.talk.clientEvent s out event channel data inp)
  | signin auth userData =>
    exact .of_idles ad (signin_idles ad out s auth userData inp)
      (.signin s ad out auth userData inp)
  | unknown => exact .done (.refl _) (.refl s) .none
  | subscribe channel auth channelData =>
    unfold Scope.begin
    dsimp only
    cases s.screen ad out channel auth channelData inp with
    | duplicate =>
      exact .of_idles ad (resendSubscriptionSucceeded_idles ad s channel) (.resend s channel ad)
    | refuse | acknowledge => exact hsend _
    | join member =>
      cases member with
      | none => exact .joins channel inp
      | some member =>
        dsimp only
        rw [if_neg (by simp [hlocal])]
        exact .counts channel member inp

/-- A step keeps the connection, and gives the notice the stage has to give. -/
theorem Stage.step_tells (hlocal : s.ctx.clustered = false) (t : Stage Value) :
    SameConn s.ctx (t.step ad s).1.ctx ∧ Tells (t.notice s.ctx.app.id) s (t.step ad s).1 := by
  unfold Stage.step
  cases t with
  | counted =>
    dsimp only
    split
    · exact ⟨⟨rfl, rfl, rfl⟩, (Hushed.sendSelf s _).tells⟩
    · exact ⟨.refl _, (Hushed.refl s).tells⟩
  | admitted => exact ⟨⟨rfl, rfl, rfl⟩, Hushed.tells ⟨rfl, rfl⟩⟩
  | joined channel member outcome inp =>
    exact ⟨((Quiet.afterJoin s channel member outcome).trans (Quiet.talk.replayCache _ _ _)).same,
      (tells_afterJoin hlocal channel member outcome inp).hushed (Hushed.talk.replayCache _ _ _)⟩
  | leaving channels closing =>
    cases channels with
    | nil =>
      cases closing with
      | true => exact ⟨(signoff_idle ad s).1, (Hushed.signoff s ad).tells⟩
      | false => exact ⟨.refl _, (Hushed.refl s).tells⟩
    | cons =>
      dsimp only
      split
      · exact ⟨⟨rfl, rfl, rfl⟩, Hushed.tells ⟨rfl, rfl⟩⟩
      · exact ⟨.refl _, (Hushed.refl s).tells⟩
  | left channel outcome rest closing =>
    exact ⟨(Quiet.afterLeave s channel outcome).same,
      tells_afterLeave hlocal channel outcome rest closing⟩

end Pylon.Ws
