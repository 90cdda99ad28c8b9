import Pylon.Lib.Edge
import Pylon.Ws.Context

/-!
# What a command does to its session

Four cases cover every command (`Dispatched`): it is **quiet**, leaving
`subscribed` alone and telling the connection no refusal; it is **refused**, which
puts a `subscription_error` for a channel the connection is not in into its
mailbox, if there is room; it **joins** a channel; or it **leaves** one. Closing is
a run of leaves. Everything proved about sessions goes through this, so a change
to a check of `subscribe` or to a text stays within `admit_spec`.
-/

namespace Pylon.Ws

open Pylon.Auth Pylon.Channel Pylon.Lib Pylon.Protocol Pylon.Redis

variable {A Value : Type}

/-- Events were added to the mailbox, none of them a refusal. -/
def Posted (m m' : Mailbox Value) : Prop :=
  m'.capacity = m.capacity ∧
    ∃ events, m'.events = m.events ++ events ∧ ∀ e ∈ events, e.refusedChannel = none

theorem Posted.refl (m : Mailbox Value) : Posted m m :=
  ⟨rfl, [], (List.append_nil _).symm, nofun⟩

theorem Posted.trans {m m' m'' : Mailbox Value} (h : Posted m m') (h' : Posted m' m'') :
    Posted m m'' := by
  obtain ⟨hcap, events, hevents, hnone⟩ := h
  obtain ⟨hcap', events', hevents', hnone'⟩ := h'
  refine ⟨hcap'.trans hcap, events ++ events', ?_, ?_⟩
  · rw [hevents', hevents, List.append_assoc]
  · intro e he
    rcases List.mem_append.mp he with he | he
    · exact hnone e he
    · exact hnone' e he

variable {s s' : Scope A Value} {member : Option (PresenceMember Value)}
  {auth channelData : Option String} {channel : String} {event : ServerEvent Value}

theorem Posted.trySend (m : Mailbox Value) (h : event.refusedChannel = none) :
    Posted m (m.trySend event) := by
  unfold Mailbox.trySend
  split
  · exact ⟨rfl, [event], rfl, by simpa using h⟩
  · exact Posted.refl m

/-- The connection is the same one. -/
structure SameConn (c c' : ConnectionContext Value) : Prop where
  app : c'.app = c.app
  socketId : c'.socketId = c.socketId
  clustered : c'.clustered = c.clustered

theorem SameConn.refl (c : ConnectionContext Value) : SameConn c c := ⟨rfl, rfl, rfl⟩

theorem SameConn.trans {c c' c'' : ConnectionContext Value} (h : SameConn c c')
    (h' : SameConn c' c'') : SameConn c c'' :=
  ⟨h'.app.trans h.app, h'.socketId.trans h.socketId, h'.clustered.trans h.clustered⟩

/-! ## What a command says -/

/-- A user came to a channel, or left it. -/
structure Notice where
  key : Key
  userId : String
  edge : Edge
  deriving DecidableEq

/-- The notice a broadcast gives. -/
def Effect.notice : Effect Value → Option Notice
  | .broadcast key (.memberAdded _ userId _) _ => some ⟨key, userId, .up⟩
  | .broadcast key (.memberRemoved _ userId) _ => some ⟨key, userId, .down⟩
  | _ => none

/-- Kept by a message that refuses nothing and by an effect that gives no notice, so by all
that a command says beside its joins and leaves. -/
structure Talk (R : Scope A Value → Scope A Value → Prop) : Prop where
  refl : ∀ s, R s s
  trans : ∀ {s s' s''}, R s s' → R s' s'' → R s s''
  sendSelf : ∀ s {event : ServerEvent Value}, event.refusedChannel = none → R s (s.sendSelf event)
  emit : ∀ s {effect : Effect Value}, effect.notice = none → R s (s.emit effect)

namespace Talk

variable {R : Scope A Value → Scope A Value → Prop} (talk : Talk R) (s : Scope A Value)
  (channel : String)

include talk

theorem emitIf (wanted : Bool) (effect : Effect Value) (h : effect.notice = none) :
    R s (s.emitIf wanted effect) := by
  unfold Scope.emitIf
  split
  · exact talk.emit s h
  · exact talk.refl s

theorem maybeEmitCount (count : Nat) : R s (s.maybeEmitCount channel count) := by
  unfold Scope.maybeEmitCount
  split_ifs
  · exact talk.refl s
  · exact talk.refl s
  · exact talk.trans (talk.emit s rfl) (talk.emitIf _ _ _ rfl)
  · exact talk.refl s

theorem emitOccupiedIfEdge (occupied : Bool) : R s (s.emitOccupiedIfEdge channel occupied) := by
  unfold Scope.emitOccupiedIfEdge
  split
  · exact talk.refl s
  · exact talk.emitIf s _ _ rfl

theorem replayCache (inp : Inputs Value) : R s (s.replayCache channel inp) := by
  unfold Scope.replayCache
  split
  · cases inp.cached with
    | none => exact talk.trans (talk.emitIf s _ _ rfl) (talk.sendSelf _ rfl)
    | some => exact talk.sendSelf s rfl
  · exact talk.refl s

omit talk in
theorem branch {s a b : Scope A Value} {c : Prop} [Decidable c] (ha : R s a) (hb : R s b) :
    R s (if c then a else b) := by
  split
  · exact ha
  · exact hb

/-- A client event is checked seven times before it goes out, and a failed check says so at
most. -/
theorem clientEvent (out : Outside Value) (event channel : String) (data : Value)
    (inp : Inputs Value) : R s (s.clientEvent out event channel data inp) := by
  have hsend {event : ServerEvent Value} := @talk.sendSelf s event
  unfold Scope.clientEvent
  refine branch (hsend rfl) (branch (hsend rfl) (branch (talk.refl s) ?_))
  refine branch (hsend rfl) (branch (hsend rfl) (branch (talk.refl s) ?_))
  exact branch (hsend rfl) (talk.trans (talk.emit s rfl) (talk.emitIf _ _ _ rfl))

theorem failSignin (message : String) : R s (s.failSignin message) :=
  talk.trans (talk.sendSelf s rfl) (talk.sendSelf _ rfl)

theorem watch (watchlist : List String) (inp : Inputs Value) : R s (s.watch watchlist inp) := by
  unfold Scope.watch
  dsimp only
  split_ifs
  · exact talk.trans (talk.sendSelf s rfl) (talk.sendSelf _ rfl)
  · exact talk.sendSelf s rfl
  · exact talk.sendSelf s rfl
  · exact talk.refl s

end Talk

/-- Nothing but messages and effects came of it. -/
structure Quiet (s s' : Scope A Value) : Prop where
  same : SameConn s.ctx s'.ctx
  subscribed : s'.ctx.subscribed = s.ctx.subscribed
  posted : Posted s.ctx.mailbox s'.ctx.mailbox
  adapter : s'.adapter = s.adapter

namespace Quiet

variable (s : Scope A Value) (channel : String)

theorem refl : Quiet s s :=
  ⟨.refl _, rfl, .refl _, rfl⟩

theorem trans {s s' s'' : Scope A Value} (h : Quiet s s') (h' : Quiet s' s'') : Quiet s s'' :=
  ⟨h.same.trans h'.same, h'.subscribed.trans h.subscribed, h.posted.trans h'.posted,
    h'.adapter.trans h.adapter⟩

theorem sendSelf {event : ServerEvent Value} (h : event.refusedChannel = none) :
    Quiet s (s.sendSelf event) :=
  ⟨⟨rfl, rfl, rfl⟩, rfl, .trySend _ h, rfl⟩

theorem emit (effect : Effect Value) : Quiet s (s.emit effect) :=
  ⟨.refl _, rfl, .refl _, rfl⟩

theorem talk : Talk (@Quiet A Value) :=
  ⟨refl, trans, sendSelf, fun s effect _ => emit s effect⟩

theorem announceJoin (join : PresenceJoin Value) : Quiet s (s.announceJoin channel join) := by
  unfold Scope.announceJoin
  split
  · exact (sendSelf s rfl).trans ((emit _ _).trans (talk.emitIf _ _ _ rfl))
  · exact sendSelf s rfl

end Quiet

/-! ## The four cases -/

/-- Adapter operations that touch no subscription. -/
inductive Idle (ad : Adapter A Value) (sid : Text) (a : A) : A → Prop
  | none : Idle ad sid a a
  | resend (key : Key) : Idle ad sid a (ad.resendPresenceAck a key sid).1
  | signin (key : Key) : Idle ad sid a (ad.signinUser a key sid).1
  | signout (key : Key) : Idle ad sid a (ad.signoutUser a key sid).1

/-- What one command makes of a session. -/
inductive Dispatched (ad : Adapter A Value) (s s' : Scope A Value) : Prop
  | quiet (a : A) (idle : Idle ad s.ctx.socketId s.adapter a)
    (rest : Quiet { s with adapter := a } s')
  | refused (channel : String) (event : ServerEvent Value)
      (names : event.refusedChannel = some channel) (fresh : channel ∉ s.ctx.subscribed)
      (rest : s' = s.sendSelf event)
  | joined (channel : String) (member : Option (PresenceMember Value))
      (fresh : channel ∉ s.ctx.subscribed)
      (kind : member.isSome ↔ (ChannelInfo.of channel).auth = .presence)
      (rest : Quiet (s.commit ad channel member).1 s')
  | left (channel : String) (held : channel ∈ s.ctx.subscribed)
      (rest : Quiet { s with
        adapter := (ad.unsubscribe s.adapter (s.key channel) s.ctx.socketId).1
        ctx := { s.ctx with subscribed := s.ctx.subscribed.erase channel } } s')

variable (ad : Adapter A Value) (out : Outside Value)

/-- No subscription was touched. -/
def Idles (s s' : Scope A Value) : Prop :=
  ∃ a, Idle ad s.ctx.socketId s.adapter a ∧ Quiet { s with adapter := a } s'

omit ad in
theorem Idles.dispatched {ad : Adapter A Value} (h : Idles ad s s') : Dispatched ad s s' := by
  obtain ⟨a, hidle, hquiet⟩ := h
  exact .quiet a hidle hquiet

theorem Quiet.idles (h : Quiet s s') : Idles ad s s' := ⟨_, .none, h⟩

theorem Quiet.dispatched (h : Quiet s s') : Dispatched ad s s' :=
  (h.idles ad).dispatched

omit ad in
theorem Dispatched.same {ad : Adapter A Value} (h : Dispatched ad s s') :
    SameConn s.ctx s'.ctx := by
  cases h with
  | quiet _ _ rest => exact rest.same
  | refused _ _ _ _ rest =>
    subst rest
    exact ⟨rfl, rfl, rfl⟩
  | joined _ _ _ _ rest =>
    exact ⟨rest.same.app, rest.same.socketId, rest.same.clustered⟩
  | left _ _ rest => exact ⟨rest.same.app, rest.same.socketId, rest.same.clustered⟩

theorem Posted.mem {m m' : Mailbox Value} (h : Posted m m') (hin : event ∈ m.events) :
    event ∈ m'.events := by
  obtain ⟨-, events, hevents, -⟩ := h
  rw [hevents]
  exact List.mem_append_left events hin

omit ad in
theorem Dispatched.mailbox {ad : Adapter A Value} (h : Dispatched ad s s')
    (hin : event ∈ s.ctx.mailbox.events) : event ∈ s'.ctx.mailbox.events := by
  cases h with
  | quiet a idle rest | joined channel member fresh kind rest | left channel held rest =>
    exact rest.posted.mem hin
  | refused _ refusal _ _ rest =>
    rw [rest]
    exact Mailbox.mem_trySend hin refusal

/-- A subscription passed the check of its channel's kind. -/
inductive Admitted (s : Scope A Value) (channel : String) (auth channelData : Option String) :
    Option (PresenceMember Value) → Prop
  | pub (kind : (ChannelInfo.of channel).auth = .pub) : Admitted s channel auth channelData none
  | priv (kind : (ChannelInfo.of channel).auth ≠ .pub ∧ (ChannelInfo.of channel).auth ≠ .presence)
    (token : String) (given : auth = some token)
    (ok : verifyChannel out.hmac s.ctx.app.key s.ctx.app.secret s.ctx.socketId channel none token =
      .ok ()) : Admitted s channel auth channelData none
  | presence (kind : (ChannelInfo.of channel).auth = .presence) (token raw : String)
    (member : PresenceMember Value) (given : auth = some token) (data : channelData = some raw)
    (ok : verifyChannel out.hmac s.ctx.app.key s.ctx.app.secret s.ctx.socketId channel (some raw)
      token = .ok ()) : Admitted s channel auth channelData (some member)

theorem Admitted.isSome_iff (h : Admitted out s channel auth channelData member) :
    member.isSome ↔ (ChannelInfo.of channel).auth = .presence := by
  cases h with
  | pub kind | presence kind => simp [kind]
  | priv kind => simp [kind.2]

theorem admitPrivate_join
    (hkind : (ChannelInfo.of channel).auth ≠ .pub ∧ (ChannelInfo.of channel).auth ≠ .presence)
    (h : s.admitPrivate out channel auth = .join member) :
    Admitted out s channel auth channelData member := by
  unfold Scope.admitPrivate at h
  split at h
  · cases h
  · rename_i token
    split at h
    · cases h
    · rename_i hok
      cases h
      exact .priv hkind token rfl hok

theorem admitMember_join {m : PresenceMember Value}
    (h : s.admitMember ad out channel m = .join member) : member = some m := by
  unfold Scope.admitMember at h
  split_ifs at h
  exact (Scope.Verdict.join.inj h).symm

theorem admitPresence_join (hkind : (ChannelInfo.of channel).auth = .presence)
    (h : s.admitPresence ad out channel auth channelData = .join member) :
    Admitted out s channel auth channelData member := by
  unfold Scope.admitPresence at h
  split at h
  · cases h
  · split at h
    · cases h
    · cases h
    · rename_i token raw
      split at h
      · cases h
      · rename_i hok
        split at h
        · cases h
        · rename_i m _
          rw [admitMember_join ad out h]
          exact .presence hkind token raw m rfl rfl hok

theorem admitSubscribe_refuse {inp : Inputs Value} {errorType error : String} {status : Nat}
    (h : s.admitSubscribe ad out channel auth channelData inp = .refuse errorType error status) :
    channel ∉ s.ctx.subscribed := by
  intro hheld
  rw [Scope.admitSubscribe, if_pos hheld] at h
  cases h

/-- The verdict behind a check that does not come to it. -/
theorem verdict_of_check {c : Prop} [Decidable c] {v w verdict : Scope.Verdict Value}
    (h : (if c then v else w) = verdict) (hv : v ≠ verdict) : ¬ c ∧ w = verdict := by
  by_cases hc : c
  · rw [if_pos hc] at h
    exact absurd h hv
  · rw [if_neg hc] at h
    exact ⟨hc, h⟩

/-- Only such a channel is joined, under a valid name and behind its kind's check. -/
theorem admitSubscribe_join {inp : Inputs Value}
    (h : s.admitSubscribe ad out channel auth channelData inp = .join member) :
    channel ∉ s.ctx.subscribed ∧
      validateChannelName channel s.ctx.limits.maxChannelNameLength = true ∧
      Admitted out s channel auth channelData member := by
  have hrefused (errorType error : String) (status : Nat) :
      Scope.Verdict.refuse errorType error status ≠ .join member := fun h => by cases h
  unfold Scope.admitSubscribe at h
  obtain ⟨hfresh, h⟩ := verdict_of_check h fun h => by cases h
  obtain ⟨-, h⟩ := verdict_of_check h (hrefused _ _ _)
  obtain ⟨-, h⟩ := verdict_of_check h (hrefused _ _ _)
  cases huser : stripPre serverToUserPre channel with
  | some =>
    -- a server-to-user channel is never joined
    rw [huser] at h
    exact absurd (verdict_of_check h fun h => by cases h).2 (hrefused _ _ _)
  | none =>
    rw [huser] at h
    obtain ⟨-, h⟩ := verdict_of_check h (hrefused _ _ _)
    obtain ⟨hvalid, h⟩ := verdict_of_check h (hrefused _ _ _)
    obtain ⟨-, h⟩ := verdict_of_check h (hrefused _ _ _)
    refine ⟨hfresh, not_not.mp hvalid, ?_⟩
    cases hauth : (ChannelInfo.of channel).auth with
    | pub =>
      rw [hauth] at h
      rw [← Scope.Verdict.join.inj h]
      exact .pub hauth
    | priv =>
      rw [hauth] at h
      exact admitPrivate_join out (by simp [hauth]) h
    | privateEncrypted =>
      rw [hauth] at h
      obtain ⟨-, h⟩ := verdict_of_check h (hrefused _ _ _)
      exact admitPrivate_join out (by simp [hauth]) h
    | presence =>
      rw [hauth] at h
      exact admitPresence_join ad out hauth h

/-! ## Each command -/

theorem Quiet.joinPlain (s : Scope A Value) (channel : String) :
    Quiet (s.commit ad channel none).1 (s.joinPlain ad channel) :=
  (sendSelf _ rfl).trans ((talk.maybeEmitCount _ _ _).trans (talk.emitOccupiedIfEdge _ _ _))

theorem Quiet.joinPresence (s : Scope A Value) (channel : String) (member : PresenceMember Value) :
    Quiet (s.commit ad channel (some member)).1 (s.joinPresence ad channel member) := by
  unfold Scope.joinPresence
  generalize s.commit ad channel (some member) = r
  obtain ⟨s, outcome⟩ := r
  dsimp only
  refine Quiet.trans ?_ ((talk.maybeEmitCount _ _ _).trans (talk.emitOccupiedIfEdge _ _ _))
  cases outcome.presence with
  | none => exact ⟨⟨rfl, rfl, rfl⟩, rfl, .refl _, rfl⟩
  | some =>
    dsimp only
    split
    · exact ⟨⟨rfl, rfl, rfl⟩, rfl, .refl _, rfl⟩
    · refine Quiet.trans ?_ (announceJoin _ _ _)
      exact ⟨⟨rfl, rfl, rfl⟩, rfl, .refl _, rfl⟩

theorem resendSubscriptionSucceeded_idles (s : Scope A Value) (channel : String) :
    Idles ad s (s.resendSubscriptionSucceeded ad channel) := by
  unfold Scope.resendSubscriptionSucceeded
  split
  · refine ⟨_, .resend (s.key channel), ?_⟩
    dsimp only
    split
    · exact Quiet.sendSelf _ rfl
    · exact Quiet.refl _
  · exact (Quiet.sendSelf s rfl).idles ad

/-- A refusal names the channel asked for, which the connection is not in. -/
theorem subscribe_spec (s : Scope A Value) (channel : String) (auth channelData : Option String)
    (inp : Inputs Value) : Dispatched ad s (s.subscribe ad out channel auth channelData inp) := by
  unfold Scope.subscribe
  cases hadm : s.admitSubscribe ad out channel auth channelData inp with
  | duplicate => exact (resendSubscriptionSucceeded_idles ad s channel).dispatched
  | refuse =>
    exact .refused channel _ rfl (admitSubscribe_refuse ad out hadm) rfl
  | acknowledge => exact (Quiet.sendSelf s rfl).dispatched ad
  | join member =>
    obtain ⟨hfresh, -, hadmitted⟩ := admitSubscribe_join ad out hadm
    have hkind := hadmitted.isSome_iff
    cases member with
    | none =>
      exact .joined channel none hfresh hkind
        ((Quiet.joinPlain ad s channel).trans (Quiet.talk.replayCache _ _ _))
    | some member =>
      exact .joined channel (some member) hfresh hkind
        ((Quiet.joinPresence ad s channel member).trans (Quiet.talk.replayCache _ _ _))

theorem unsubscribe_held (hheld : channel ∈ s.ctx.subscribed) :
    Quiet { s with
      adapter := (ad.unsubscribe s.adapter (s.key channel) s.ctx.socketId).1
      ctx := { s.ctx with subscribed := s.ctx.subscribed.erase channel } }
      (s.unsubscribe ad channel) := by
  unfold Scope.unsubscribe
  rw [if_pos hheld]
  refine Quiet.trans ?_ ((Quiet.talk.emitIf _ _ _ rfl).trans (Quiet.talk.maybeEmitCount _ _ _))
  split
  · split
    · refine Quiet.trans ?_ ((Quiet.emit _ _).trans (Quiet.talk.emitIf _ _ _ rfl))
      exact ⟨⟨rfl, rfl, rfl⟩, rfl, .refl _, rfl⟩
    · exact ⟨⟨rfl, rfl, rfl⟩, rfl, .refl _, rfl⟩
  · exact ⟨⟨rfl, rfl, rfl⟩, rfl, .refl _, rfl⟩

theorem unsubscribe_spec (s : Scope A Value) (channel : String) :
    Dispatched ad s (s.unsubscribe ad channel) := by
  by_cases hheld : channel ∈ s.ctx.subscribed
  · exact .left channel hheld (unsubscribe_held ad hheld)
  · rw [Scope.unsubscribe, if_neg hheld]
    exact (Quiet.refl s).dispatched ad

theorem subscribed_unsubscribe (s : Scope A Value) (channel : String) :
    (s.unsubscribe ad channel).ctx.subscribed = s.ctx.subscribed.erase channel := by
  by_cases hheld : channel ∈ s.ctx.subscribed
  · exact (unsubscribe_held ad hheld).subscribed
  · rw [Scope.unsubscribe, if_neg hheld, Finset.erase_eq_of_notMem hheld]

/-- Signing in touches no subscription. -/
theorem signin_idles (s : Scope A Value) (auth userData : String) (inp : Inputs Value) :
    Idles ad s (s.signin ad out auth userData inp) := by
  unfold Scope.signin
  split
  · exact (Quiet.talk.failSignin s _).idles ad
  split
  · split
    · exact (Quiet.sendSelf s rfl).idles ad
    · exact (Quiet.talk.failSignin s _).idles ad
  split
  · exact (Quiet.talk.failSignin s _).idles ad
  split
  · exact (Quiet.talk.failSignin s _).idles ad
  next user _ =>
    refine ⟨_, .signin (s.key user.id), ?_⟩
    dsimp only
    have hsent := @Quiet.sendSelf A Value
      { s with adapter := (ad.signinUser s.adapter (s.key user.id) s.ctx.socketId).1 }
      (.signinSuccess user.userDataRaw) rfl
    refine hsent.trans ?_
    generalize Scope.sendSelf _ _ = sent
    have hemit := Quiet.talk.emitIf sent
      (!sent.ctx.clustered && (ad.signinUser s.adapter (s.key user.id) s.ctx.socketId).2)
      (.notifyWatchers user.id "online") rfl
    refine hemit.trans ?_
    generalize Scope.emitIf _ _ _ = told
    split
    · exact (Quiet.talk.watch _ _ _).trans ⟨⟨rfl, rfl, rfl⟩, rfl, .refl _, rfl⟩
    · exact ⟨⟨rfl, rfl, rfl⟩, rfl, .refl _, rfl⟩

/-- Every command is quiet, refused, a join or a leave. -/
theorem dispatch_spec (s : Scope A Value) (cmd : ClientCommand Value) (inp : Inputs Value) :
    Dispatched ad s (s.dispatch ad out cmd inp) := by
  cases cmd with
  | ping => exact (Quiet.sendSelf s rfl).dispatched ad
  | subscribe channel auth channelData => exact subscribe_spec ad out s channel auth channelData inp
  | unsubscribe channel => exact unsubscribe_spec ad s channel
  | clientEvent event channel data =>
    exact (Quiet.talk.clientEvent s out event channel data inp).dispatched ad
  | signin auth userData => exact (signin_idles ad out s auth userData inp).dispatched
  | unknown => exact (Quiet.refl s).dispatched ad

/-! ## Closing -/

/-- Any number of commands. -/
abbrev Dispatches (ad : Adapter A Value) : Scope A Value → Scope A Value → Prop :=
  Relation.ReflTransGen (Dispatched ad)

omit ad in
theorem Dispatches.same {ad : Adapter A Value} (h : Dispatches ad s s') :
    SameConn s.ctx s'.ctx := by
  induction h with
  | refl => exact .refl _
  | tail _ hlast ih => exact ih.trans hlast.same

theorem unsubscribe_all (channels : List String) (s : Scope A Value) :
    Dispatches ad s (channels.foldl (fun s channel => s.unsubscribe ad channel) s) ∧
      (channels.foldl (fun s channel => s.unsubscribe ad channel) s).ctx.subscribed =
        s.ctx.subscribed \ channels.toFinset := by
  induction channels generalizing s with
  | nil => exact ⟨.refl, by simp⟩
  | cons channel _ ih =>
    obtain ⟨hrun, hleft⟩ := ih (s.unsubscribe ad channel)
    refine ⟨.head (unsubscribe_spec ad s channel) hrun, ?_⟩
    rw [List.foldl_cons, hleft, subscribed_unsubscribe]
    ext c
    simp only [Finset.mem_sdiff, Finset.mem_erase, List.mem_toFinset, List.mem_cons, not_or]
    tauto

/-- Closing leaves every channel. -/
theorem onClose_spec (s : Scope A Value) :
    Dispatches ad s (s.onClose ad) ∧ (s.onClose ad).ctx.subscribed = ∅ := by
  obtain ⟨hrun, hleft⟩ := unsubscribe_all ad (inOrder s.ctx.subscribed) s
  unfold Scope.onClose
  dsimp only
  generalize (inOrder s.ctx.subscribed).foldl
    (fun s channel => s.unsubscribe ad channel) s = s' at hrun hleft ⊢
  rw [toFinset_inOrder, Finset.sdiff_self] at hleft
  split
  next user _ =>
    have hquiet := Quiet.talk.emitIf
      { s' with
        adapter := (ad.signoutUser s'.adapter (s'.key user.id) s'.ctx.socketId).1
        ctx := { s'.ctx with user := none } }
      (!s'.ctx.clustered && (ad.signoutUser s'.adapter (s'.key user.id) s'.ctx.socketId).2)
      (.notifyWatchers user.id "offline") rfl
    refine ⟨hrun.tail (.quiet _ (.signout (s'.key user.id)) ?_), hquiet.subscribed.trans hleft⟩
    refine Quiet.trans ?_ hquiet
    exact ⟨⟨rfl, rfl, rfl⟩, rfl, .refl _, rfl⟩
  next => exact ⟨hrun, hleft⟩

end Pylon.Ws
