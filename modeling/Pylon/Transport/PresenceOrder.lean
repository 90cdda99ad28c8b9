import Pylon.Lib.Deferred
import Pylon.Transport.Workers

/-!
# Member broadcasts and the roster

Whoever is a user's first connection in a channel broadcasts `member_added`, whoever is
the last one `member_removed`. The registry awards the edge in one call and the broadcast
follows in a later step, so on two workers the broadcasts may come in another order than
the edges: the last one then tells the opposite of the roster
(`member_broadcasts_diverge`). They agree as long as no edge of a user is awarded while
another one is unannounced (`member_broadcasts_converge`).
-/

namespace Pylon.Transport

open Pylon.Channel Pylon.Lib Pylon.Protocol Pylon.Redis Pylon.Ws

variable {A Value : Type}

/-- What a notice tells of one user of a channel. -/
def edgeOf (key : Key) (user : String) (n : Notice) : Option Edge :=
  if n.key = key ∧ n.userId = user then some n.edge else none

/-- What the connection's worker has still to tell. -/
def Owned.notice (c : Owned Value) : Option Notice := c.stage.bind (Stage.notice c.ctx.app.id)

namespace Workers

/-- The member broadcasts of a user of a channel, in the order issued. -/
def announced (w : Workers A Value) (key : Key) (user : String) : List Edge :=
  (w.effects.filterMap Effect.notice).filterMap (edgeOf key user)

/-- The member broadcast of the user a connection's worker has still to issue. -/
def pending (w : Workers A Value) (key : Key) (user : String) (sid : Text) : Option Edge :=
  ((w.conns.hget sid).bind Owned.notice).bind (edgeOf key user)

theorem pending_of_live {w : Workers A Value} {sid : Text} {c : Owned Value}
    (hlive : w.conns.hget sid = some c) (key : Key) (user : String) :
    w.pending key user sid = c.notice.bind (edgeOf key user) := by
  rw [pending, hlive]
  rfl

theorem pending_of_gone {w : Workers A Value} {sid : Text} (hgone : w.conns.hget sid = none)
    (key : Key) (user : String) : w.pending key user sid = none := by
  rw [pending, hgone]
  rfl

theorem pending_put (w : Workers A Value) (sid : Text) (c : Owned Value)
    (r : Scope A Value × Option (Stage Value)) (key : Key) (user : String) :
    (w.put sid c r).pending key user = Function.update (w.pending key user) sid
      ((r.2.bind (Stage.notice r.1.ctx.app.id)).bind (edgeOf key user)) := by
  funext sid'
  unfold pending put
  rw [Hash.hget_hset]
  by_cases hsid : sid' = sid
  · rw [if_pos hsid, hsid, Function.update_self]
    rfl
  · rw [if_neg hsid, Function.update_of_ne hsid]

theorem announced_put {w : Workers A Value} {sid : Text} {c : Owned Value}
    {r : Scope A Value × Option (Stage Value)} {n : Option Notice}
    (h : Tells n (w.scope c) r.1) (key : Key) (user : String) :
    (w.put sid c r).announced key user =
      w.announced key user ++ (n.bind (edgeOf key user)).toList := by
  show r.1.notices.filterMap (edgeOf key user) = _
  rw [h.notices, List.filterMap_append]
  cases n with
  | none => rfl
  | some n =>
    show w.announced key user ++ [n].filterMap (edgeOf key user) = _
    cases hedge : edgeOf key user n <;> simp [hedge]

/-- The channel a worker joins next, and as whom. -/
def joinsAs (app : String) : Stage Value → Option (Key × Option String)
  | .admitted channel member _ => some ((app, channel), member.map PresenceMember.userId)
  | _ => none

/-- When an edge of a user is awarded, no other worker has one of theirs to announce; and
nobody joins a channel where the registry still has the connection as another user. -/
def Orderly [BEq Value] (w : Workers (LocalAdapter Value) Value) : WorkersAct Value → Prop
  | .advance sid => ∀ c ∈ w.conns.hget sid, ∀ t ∈ c.stage,
      (∀ n ∈ (t.step localAdapter (w.scope c)).2.bind (Stage.notice c.ctx.app.id),
        ∀ sid' ∈ w.conns.hkeys, sid' ≠ sid → w.pending n.key n.userId sid' = none) ∧
      ∀ j ∈ joinsAs c.ctx.app.id t, ∀ user ∈
        (w.adapter.registry.subscriber j.1 sid).join.map PresenceMember.userId, j.2 = some user
  | _ => True

instance [BEq Value] (w : Workers (LocalAdapter Value) Value) :
    ∀ a : WorkersAct Value, Decidable (w.Orderly a)
  | .advance sid => inferInstanceAs (Decidable (∀ c ∈ w.conns.hget sid, ∀ t ∈ c.stage,
      (∀ n ∈ (t.step localAdapter (w.scope c)).2.bind (Stage.notice c.ctx.app.id),
        ∀ sid' ∈ w.conns.hkeys, sid' ≠ sid → w.pending n.key n.userId sid' = none) ∧
      ∀ j ∈ joinsAs c.ctx.app.id t, ∀ user ∈ _, j.2 = some user))
  | .establish .. | .command .. | .refused .. | .close .. => isTrue trivial

/-- The broadcasts issued and to come account for the roster. -/
structure Told [BEq Value] (limits : Limits) (w : Workers (LocalAdapter Value) Value) : Prop where
  conns : w.Local limits
  rostered : w.adapter.registry.Rostered
  deferred : ∀ key user, Deferred (user ∈ w.adapter.registry.usersIn key)
    (w.announced key user) (w.pending key user)

variable [BEq Value] {limits : Limits} {w : Workers (LocalAdapter Value) Value} {sid : Text}
  {c : Owned Value} {r : Scope (LocalAdapter Value) Value × Option (Stage Value)}

/-- A worker's work: it tells what it had to tell, and the only change of the roster is the
one it has to tell next. -/
theorem Told.put (h : w.Told limits) (hlocal : (w.put sid c r).Local limits)
    (hrostered : r.1.adapter.registry.Rostered) {old : Option Notice}
    (htells : Tells old (w.scope c) r.1)
    (hold : ∀ key user, w.pending key user sid = old.bind (edgeOf key user)) (next : Option Notice)
    (hnext : r.2.bind (Stage.notice r.1.ctx.app.id) = next)
    (hothers : ∀ n ∈ next, ∀ sid', sid' ≠ sid → w.pending n.key n.userId sid' = none)
    (haward : ∀ n ∈ next, (n.edge = .up ↔ n.userId ∈ r.1.adapter.registry.usersIn n.key))
    (hsame : ∀ key user, next.bind (edgeOf key user) = none →
      (user ∈ r.1.adapter.registry.usersIn key ↔ user ∈ w.adapter.registry.usersIn key)) :
    (w.put sid c r).Told limits := by
  refine ⟨hlocal, hrostered, fun key user => ?_⟩
  rw [announced_put htells, pending_put, hnext, ← hold]
  cases hedge : next.bind (edgeOf key user) with
  | none => exact ((h.deferred key user).announce sid).congr (hsame key user hedge)
  | some =>
    obtain ⟨n, hn, hof⟩ := Option.bind_eq_some_iff.mp hedge
    unfold edgeOf at hof
    split at hof
    next heq =>
      obtain ⟨rfl, rfl⟩ := heq
      cases hof
      exact Deferred.award sid (hothers n hn) (haward n hn)
    next => cases hof

/-- Work that leaves the roster alone and awards nothing. -/
theorem Told.put_same (h : w.Told limits) (hlocal : (w.put sid c r).Local limits)
    (hrostered : r.1.adapter.registry.Rostered) {old : Option Notice}
    (htells : Tells old (w.scope c) r.1)
    (hold : ∀ key user, w.pending key user sid = old.bind (edgeOf key user))
    (hnext : r.2.bind (Stage.notice r.1.ctx.app.id) = none)
    (hsame : ∀ key, r.1.adapter.registry.usersIn key = w.adapter.registry.usersIn key) :
    (w.put sid c r).Told limits := by
  refine h.put hlocal hrostered htells hold none hnext ?_ ?_ fun key user _ => ?_
  · rintro _ ⟨⟩
  · rintro _ ⟨⟩
  · rw [hsame key]

theorem idle_rostered {a a' : LocalAdapter Value} (h : Idle localAdapter sid a a')
    (hrostered : a.registry.Rostered) : a'.registry.Rostered := by
  cases h with
  | none | signin | signout => exact hrostered
  | resend key => exact hrostered.rosterFrame key

theorem Told.begin (h : w.Told limits) (hlive : w.conns.hget sid = some c) (hidle : c.stage = none)
    (hlocal : (w.put sid c r).Local limits) (hbegun : Begun localAdapter (w.scope c) r) :
    (w.put sid c r).Told limits := by
  have hold : ∀ key user,
      w.pending key user sid = (none : Option Notice).bind (edgeOf key user) := by
    intro key user
    rw [pending_of_live hlive, Owned.notice, hidle]
    rfl
  have htells := hbegun.same.2.tells
  cases hbegun with
  | done _ _ idle =>
    exact h.put_same hlocal (idle_rostered idle h.rostered) htells hold rfl (idle_usersIn idle)
  | counts | joins | leaves => exact h.put_same hlocal h.rostered htells hold rfl fun _ => rfl

variable {t : Stage Value}

section

omit [BEq Value]

theorem pending_of_stage (hlive : w.conns.hget sid = some c) (hstage : c.stage = some t) (key : Key)
    (user : String) : w.pending key user sid = (t.notice c.ctx.app.id).bind (edgeOf key user) := by
  rw [pending_of_live hlive, Owned.notice, hstage]
  rfl

/-- A connection that closes has nothing to tell any more. -/
theorem pending_of_closes (hcloses : t.closes = true) {ad : Adapter A Value} {w : Workers A Value}
    (key : Key) (user : String) :
    (w.put sid c (t.step ad (w.scope c))).pending key user sid = none := by
  rw [pending_put, Function.update_self]
  unfold Stage.closes at hcloses
  split at hcloses
  · rfl
  · cases hcloses

theorem pending_hdel {w : Workers A Value} {key : Key} {user : String}
    (h : w.pending key user sid = none) :
    Workers.pending { w with conns := w.conns.hdel sid } key user = w.pending key user := by
  funext sid'
  by_cases hsid : sid' = sid
  · rw [hsid, h, pending]
    simp
  · unfold pending
    rw [Hash.hget_hdel_ne _ hsid]

end

/-- What the guard says of the connections a worker does not serve. -/
theorem Orderly.others (h : w.Orderly (.advance sid)) (hlive : w.conns.hget sid = some c)
    (hstage : c.stage = some t) :
    ∀ n ∈ (t.step localAdapter (w.scope c)).2.bind (Stage.notice c.ctx.app.id),
      ∀ sid', sid' ≠ sid → w.pending n.key n.userId sid' = none := by
  intro n hn sid' hne
  cases hlive' : w.conns.hget sid' with
  | none => exact pending_of_gone hlive' n.key n.userId
  | some => exact (h c hlive t hstage).1 n hn sid' (Hash.mem_hkeys_of_hget hlive') hne

section

variable [ReflBEq Value] {channel : String}

/-- A member's join: the notice to come is the edge the registry awarded. -/
theorem Told.join (h : w.Told limits) (hlive : w.conns.hget sid = some c)
    {member : PresenceMember Value} {inp : Inputs Value}
    (hstage : c.stage = some (.admitted channel (some member) inp))
    (horderly : w.Orderly (.advance sid)) :
    (w.put sid c ((Stage.admitted channel (some member) inp).step localAdapter
      (w.scope c))).Told limits := by
  obtain ⟨hlocal, -, hname⟩ := h.conns sid c hlive
  have hown : ∀ m', w.adapter.registry.subscriber (c.ctx.app.id, channel) c.ctx.socketId =
      some (some m') → m'.userId = member.userId := by
    intro m' hm'
    rw [hname] at hm'
    have has := (horderly c hlive _ hstage).2 _ rfl m'.userId (by simp [hm'])
    exact (Option.some_inj.mp has).symm
  obtain ⟨join, hpresence, hmember, hlater, husers⟩ := h.rostered.subscribe_member hown
  have hnext : ((w.adapter.registry.subscribe (c.ctx.app.id, channel) c.ctx.socketId
      (some member)).2.presence.bind fun join =>
        if join.firstForUser then
          some (⟨(c.ctx.app.id, channel), join.member.userId, .up⟩ : Notice) else none) =
      if join.firstForUser then some ⟨(c.ctx.app.id, channel), member.userId, .up⟩ else none := by
    rw [hpresence, Option.bind_some, hmember]
  have hguard := horderly.others hlive hstage
  refine h.put (h.conns.advances hlive) (h.rostered.subscribe _ _ _)
    (Stage.step_tells localAdapter (s := w.scope c) hlocal _).2 (pending_of_stage hlive hstage)
    _ hnext ?_ ?_ ?_
  · exact fun n hn => hguard n (hnext.trans hn)
  · intro n hn
    split at hn
    · cases hn
      exact iff_of_true rfl ((husers member.userId).mpr (.inl rfl))
    · cases hn
  · intro key user hnone
    show user ∈ (w.adapter.registry.subscribe (c.ctx.app.id, channel) c.ctx.socketId
      (some member)).1.usersIn key ↔ _
    by_cases hkey : key = (c.ctx.app.id, channel)
    · subst hkey
      rw [husers user]
      refine or_iff_right_of_imp ?_
      rintro rfl
      -- an edge of this user would have been awarded
      refine hlater (Bool.eq_false_iff.mpr fun hfirst => ?_)
      rw [if_pos hfirst] at hnone
      simp [edgeOf] at hnone
    · rw [Registry.usersIn_subscribe_ne _ hkey]

theorem Told.join_plain (h : w.Told limits) (hlive : w.conns.hget sid = some c) {inp : Inputs Value}
    (hstage : c.stage = some (.admitted channel none inp)) (horderly : w.Orderly (.advance sid)) :
    (w.put sid c ((Stage.admitted channel none inp).step localAdapter (w.scope c))).Told
      limits := by
  obtain ⟨hlocal, -, hname⟩ := h.conns sid c hlive
  have hown : ∀ m', w.adapter.registry.subscriber (c.ctx.app.id, channel) c.ctx.socketId ≠
      some (some m') := by
    intro m' hm'
    rw [hname] at hm'
    have has := (horderly c hlive _ hstage).2 _ rfl m'.userId (by simp [hm'])
    cases has
  refine h.put_same (h.conns.advances hlive) (h.rostered.subscribe _ _ _)
    (Stage.step_tells localAdapter (s := w.scope c) hlocal _).2 (pending_of_stage hlive hstage)
    rfl fun key => ?_
  by_cases hkey : key = (c.ctx.app.id, channel)
  · rw [hkey]
    exact (h.rostered.subscribe_plain hown).2
  · exact Registry.usersIn_subscribe_ne _ hkey _ _

/-- The adapter has the leave, and its notice is still to come. -/
theorem Told.leave (h : w.Told limits) (hlive : w.conns.hget sid = some c) {rest : List String}
    {closing : Bool} (hstage : c.stage = some (.leaving (channel :: rest) closing))
    (hheld : channel ∈ (w.scope c).ctx.subscribed) (horderly : w.Orderly (.advance sid)) :
    (w.put sid c ((Stage.leaving (channel :: rest) closing).step localAdapter
      (w.scope c))).Told limits := by
  obtain ⟨hlocal, -, -⟩ := h.conns sid c hlive
  have hput : (w.put sid c ((Stage.leaving (channel :: rest) closing).step localAdapter
      (w.scope c))).Local limits := h.conns.advances hlive
  have htells := (Stage.step_tells localAdapter (s := w.scope c) hlocal
    (.leaving (channel :: rest) closing)).2
  have hguard := horderly.others hlive hstage
  have husers := h.rostered.mem_usersIn_unsubscribe (c.ctx.app.id, channel) c.ctx.socketId
  unfold Stage.step at hput htells hguard ⊢
  dsimp only at hput htells hguard ⊢
  rw [if_pos hheld] at hput htells hguard ⊢
  let next : Option Notice :=
    (w.adapter.registry.unsubscribe (c.ctx.app.id, channel) c.ctx.socketId).2.presence.bind
      fun leave =>
        if leave.lastForUser then some ⟨(c.ctx.app.id, channel), leave.userId, .down⟩ else none
  refine h.put hput (h.rostered.unsubscribe _ _) htells (pending_of_stage hlive hstage) next rfl
    hguard ?_ ?_
  · intro n hn
    obtain ⟨leave, hpresence, hlast⟩ := Option.bind_eq_some_iff.mp hn
    split at hlast
    next hedge =>
      cases hlast
      refine iff_of_false Edge.noConfusion fun hin => ?_
      exact ((husers leave.userId).mp hin).2 leave hpresence hedge rfl
    next => cases hlast
  · intro key user hnone
    show user ∈ (w.adapter.registry.unsubscribe (c.ctx.app.id, channel) c.ctx.socketId).1.usersIn
      key ↔ _
    by_cases hkey : key = (c.ctx.app.id, channel)
    · subst hkey
      rw [husers user]
      refine and_iff_left fun leave hpresence hlast heq => ?_
      -- an edge of this user would have been awarded
      have hnext : next = some ⟨(c.ctx.app.id, channel), leave.userId, .down⟩ := by
        simp only [next, hpresence, Option.bind_some, hlast, if_true]
      rw [hnext] at hnone
      simp [edgeOf, heq] at hnone
    · rw [Registry.usersIn_unsubscribe_ne _ hkey]

/-- Notices of a user come in the order of the adapter's edges. -/
theorem Told.advance (h : w.Told limits) (hlive : w.conns.hget sid = some c) {t : Stage Value}
    (hstage : c.stage = some t) (horderly : w.Orderly (.advance sid)) :
    (w.put sid c (t.step localAdapter (w.scope c))).Told limits := by
  obtain ⟨hlocal, -, -⟩ := h.conns sid c hlive
  have hput : (w.put sid c (t.step localAdapter (w.scope c))).Local limits :=
    h.conns.advances hlive
  have htells := (Stage.step_tells localAdapter (s := w.scope c) hlocal t).2
  have hold := pending_of_stage hlive hstage
  -- a step that calls nothing in the registry
  have hquiet {s' : Scope (LocalAdapter Value) Value} {t' : Option (Stage Value)}
      (hstep : t.step localAdapter (w.scope c) = (s', t')) (heq : s'.adapter = w.adapter)
      (hnext : t'.bind (Stage.notice s'.ctx.app.id) = none) :
      (w.put sid c (t.step localAdapter (w.scope c))).Told limits := by
    rw [hstep] at hput htells ⊢
    refine h.put_same hput ?_ htells hold hnext fun key => ?_
    · show s'.adapter.registry.Rostered
      rw [heq]
      exact h.rostered
    · show s'.adapter.registry.usersIn key = _
      rw [heq]
  cases t with
  | counted channel member _ current =>
    by_cases hfull : ¬ (localAdapter.presenceMembers w.adapter ((w.scope c).key channel)).any
        (fun m => m.userId == member.userId) ∧ c.ctx.limits.maxPresenceMembers ≤ current
    · exact hquiet (if_pos hfull) rfl rfl
    · exact hquiet (if_neg hfull) rfl rfl
  | admitted _ member =>
    cases member with
    | none => exact h.join_plain hlive hstage horderly
    | some => exact h.join hlive hstage horderly
  | joined channel member outcome inp =>
    have hafter := (Quiet.afterJoin (w.scope c) channel member outcome).trans
      (Quiet.talk.replayCache _ channel inp)
    exact hquiet rfl hafter.adapter rfl
  | leaving channels closing =>
    cases channels with
    | nil =>
      cases closing with
      | true =>
        have hidle := (signoff_idle localAdapter (w.scope c)).2
        exact h.put_same hput (idle_rostered hidle h.rostered) htells hold rfl
          (idle_usersIn hidle)
      | false => exact hquiet rfl rfl rfl
    | cons channel =>
      by_cases hheld : channel ∈ (w.scope c).ctx.subscribed
      · exact h.leave hlive hstage hheld horderly
      · exact hquiet (if_neg hheld) rfl rfl
  | left channel outcome =>
    exact hquiet rfl (Quiet.afterLeave (w.scope c) channel outcome).adapter rfl

theorem Told.moves (h : w.Told limits) {a : WorkersAct Value}
    {w' : Workers (LocalAdapter Value) Value} (horderly : w.Orderly a)
    (hmoves : Moves localAdapter limits w a w') : w'.Told limits := by
  have hlocal := h.conns.moves hmoves
  cases hmoves with
  | stays => exact h
  | opens _ fresh =>
    exact h.put_same hlocal h.rostered (Hushed.refl _).tells (pending_of_gone fresh) rfl
      fun _ => rfl
  | begins live idle begun => exact h.begin live idle hlocal (begun (h.conns _ _ live).1)
  | advances live stage => exact h.advance live stage horderly
  | @ends sid c t live stage closes =>
    obtain ⟨-, hrostered, hdeferred⟩ := h.advance live stage horderly
    refine ⟨hlocal, hrostered, fun key user => ?_⟩
    have hclosed : (w.put sid c (Stage.step localAdapter (w.scope c) t)).pending key user sid =
        none := pending_of_closes closes key user
    have htold := hdeferred key user
    rw [← pending_hdel hclosed] at htold
    exact htold

end

end Workers

/-- In every run in which no edge of a user is awarded while another worker has one of theirs
to announce, and nobody joins a channel the registry still has them in as another user: when
no worker is in the middle of anything, the last member broadcast of a user says
`member_added` exactly when the user is in the channel. -/
theorem member_broadcasts_converge [BEq Value] [ReflBEq Value] (out : Outside Value)
    (limits : Limits) (as : List (WorkersAct Value))
    (horderly : Along (Workers.step localAdapter out limits) Workers.Orderly
      { adapter := .empty } as) :
    let w := run (Workers.step localAdapter out limits) { adapter := .empty } as
    (∀ sid c, w.conns.hget sid = some c → c.stage = none) →
      ∀ key user, (w.announced key user).getLast? = some .up ↔
        user ∈ w.adapter.registry.usersIn key := by
  intro w hidle key user
  have hstart : Workers.Told limits
      ({ adapter := .empty } : Workers (LocalAdapter Value) Value) := by
    refine ⟨fun sid c hlive => ?_, .empty, fun key user => .start (Finset.notMem_empty user)⟩
    cases hlive
  have htold : w.Told limits := horderly.invariant
    (fun w a (h : Workers.Told limits w) horderly =>
      h.moves horderly (Workers.step_moves localAdapter out limits w a)) hstart
  refine (htold.deferred key user).told fun sid => ?_
  cases hlive : w.conns.hget sid with
  | none => exact Workers.pending_of_gone hlive key user
  | some c =>
    rw [Workers.pending_of_live hlive, Owned.notice, hidle sid c hlive]
    rfl

/-- The user "u" comes in on one connection and leaves; the broadcast of the leave is to
come. -/
def leaveRoom : List (WorkersAct Unit) :=
  openRoom ++ [joinRoom ['1'] "u", .advance ['1'], .advance ['1'], .advance ['1'],
    .command ['1'] (.unsubscribe "presence-room") {}, .advance ['1']]

/-- The same user comes in on the other connection, broadcast included. -/
def rejoinRoom : List (WorkersAct Unit) :=
  [joinRoom ['2'] "u", .advance ['2'], .advance ['2'], .advance ['2']]

def room (as : List (WorkersAct Unit)) : Workers (LocalAdapter Unit) Unit :=
  run (Workers.step localAdapter roomOutside roomLimits) { adapter := .empty } as

/-- No worker is in the middle of a command. -/
def Resting (w : Workers (LocalAdapter Unit) Unit) : Prop :=
  ∀ sid c, w.conns.hget sid = some c → c.stage = none

theorem resting_of_all {w : Workers (LocalAdapter Unit) Unit}
    (h : ∀ sid ∈ w.conns.hkeys, ∀ c ∈ w.conns.hget sid, c.stage.isNone = true) : Resting w :=
  fun sid c hlive =>
    Option.isNone_iff_eq_none.mp (h sid (Hash.mem_hkeys_of_hget hlive) c hlive)

theorem member_broadcasts_converge_in_turn :
    let w := room (leaveRoom ++ [.advance ['1'], .advance ['1']] ++ rejoinRoom)
    Resting w ∧ ((w.announced ("a", "presence-room") "u").getLast? = some .up ↔
      "u" ∈ w.adapter.registry.usersIn ("a", "presence-room")) := by
  have hresting : Resting (room (leaveRoom ++ [.advance ['1'], .advance ['1']] ++ rejoinRoom)) :=
    resting_of_all (by decide)
  exact ⟨hresting, member_broadcasts_converge roomOutside roomLimits _ (by decide) hresting _ _⟩

/-- The second worker announces its join before the first one announces its leave. In the
end the user is in the channel and the last broadcast said that they left. -/
theorem member_broadcasts_diverge :
    let w := room (leaveRoom ++ rejoinRoom ++ [.advance ['1'], .advance ['1']])
    Resting w ∧ "u" ∈ w.adapter.registry.usersIn ("a", "presence-room") ∧
      (w.announced ("a", "presence-room") "u").getLast? = some .down := by
  exact ⟨resting_of_all (by decide), by decide, by decide⟩

end Pylon.Transport
