import Pylon.Channel.Users
import Pylon.Transport.SingleNode
import Pylon.Ws.Stage

/-!
# Several workers on one registry

A node without a cluster. Each connection is owned by a worker, a worker serves one
connection at a time, and the workers' calls into the registry interleave in any order.

`subscribe` counts the users, looks for the joining one among the members and then joins,
in three calls. The cap holds as long as no second worker is between its count and its
join when a new user comes in; without that it does not.
-/

namespace Pylon.Transport

open Pylon.Channel Pylon.Lib Pylon.Protocol Pylon.Redis Pylon.Ws

variable {A Value : Type}

/-- A connection, the worker that owns it, and what that worker does next for it. -/
structure Owned (Value : Type) where
  worker : Nat
  ctx : ConnectionContext Value
  stage : Option (Stage Value) := none

structure Workers (A Value : Type) where
  adapter : A
  conns : Hash Text (Owned Value) := ∅
  effects : List (Effect Value) := []

/-- A connection is established; a command arrives; a drain finds a subscription error; a
connection closes; a worker takes its next step for a connection. The order in which a
close walks the channels comes with it. -/
inductive WorkersAct (Value : Type) where
  | establish (sid : Text) (opening : Opening)
  | command (sid : Text) (cmd : ClientCommand Value) (inp : Inputs Value)
  | refused (sid : Text) (channel : String)
  | close (sid : Text) (channels : List String)
  | advance (sid : Text)

namespace Workers

/-- The worker is in the middle of a command. -/
def Busy (w : Workers A Value) (worker : Nat) : Prop :=
  ∃ sid ∈ w.conns.hkeys, ∃ c ∈ w.conns.hget sid, c.worker = worker ∧ c.stage.isSome = true

instance (w : Workers A Value) (worker : Nat) : Decidable (w.Busy worker) :=
  inferInstanceAs (Decidable (∃ sid ∈ w.conns.hkeys, ∃ c ∈ w.conns.hget sid, _))

def scope (w : Workers A Value) (c : Owned Value) : Scope A Value :=
  { ctx := c.ctx, adapter := w.adapter, effects := w.effects }

/-- File what a worker has done for a connection. -/
def put (w : Workers A Value) (sid : Text) (c : Owned Value)
    (r : Scope A Value × Option (Stage Value)) : Workers A Value :=
  { adapter := r.1.adapter
    effects := r.1.effects
    conns := w.conns.hset sid { c with ctx := r.1.ctx, stage := r.2 } }

variable (ad : Adapter A Value) (out : Outside Value) (limits : Limits)

def step (w : Workers A Value) : WorkersAct Value → Workers A Value
  | .establish sid opening =>
    if w.conns.hexists sid then w
    else
      let c : Owned Value :=
        { worker := opening.worker
          ctx := (Opening.entry { opening with limits, clustered := false } sid).ctx }
      w.put sid c (w.scope c, none)
  | .command sid cmd inp =>
    match w.conns.hget sid with
    | none => w
    | some c => if w.Busy c.worker then w else w.put sid c ((w.scope c).begin ad out cmd inp)
  | .refused sid channel =>
    match w.conns.hget sid with
    | none => w
    | some c =>
      if w.Busy c.worker then w
      else
        let ctx := { c.ctx with subscribed := c.ctx.subscribed.erase channel }
        w.put sid c ({ w.scope c with ctx }, none)
  | .close sid channels =>
    match w.conns.hget sid with
    | none => w
    | some c =>
      if w.Busy c.worker ∨ ¬ channels.Nodup ∨ channels.toFinset ≠ c.ctx.subscribed then w
      else w.put sid c (w.scope c, some (.leaving channels true))
  | .advance sid =>
    match w.conns.hget sid with
    | none => w
    | some c =>
      match c.stage with
      | none => w
      | some t =>
        let w := w.put sid c (t.step ad (w.scope c))
        if t.closes then { w with conns := w.conns.hdel sid } else w

variable {w : Workers A Value} {c : Owned Value} {sid : Text}

theorem stage_of_not_busy (hlive : w.conns.hget sid = some c) (h : ¬ w.Busy c.worker) :
    c.stage = none := by
  refine Option.not_isSome_iff_eq_none.mp fun hsome => h ?_
  exact ⟨sid, Hash.mem_hkeys_of_hget hlive, c, hlive, rfl, hsome⟩

/-- What an action comes to: nothing, or one worker's work for one connection. -/
inductive Moves (w : Workers A Value) : WorkersAct Value → Workers A Value → Prop
  | stays (a : WorkersAct Value) : Moves w a w
  | opens {sid : Text} (opening : Opening) {c : Owned Value} (fresh : w.conns.hget sid = none)
      (islocal : c.ctx.clustered = false) (limited : c.ctx.limits = limits)
      (named : c.ctx.socketId = sid) :
      Moves w (.establish sid opening) (w.put sid c (w.scope c, none))
  | begins {sid : Text} {c : Owned Value} {r : Scope A Value × Option (Stage Value)}
      (live : w.conns.hget sid = some c) (idle : c.stage = none)
      (begun : c.ctx.clustered = false → Begun ad (w.scope c) r) (a : WorkersAct Value) :
      Moves w a (w.put sid c r)
  | advances {sid : Text} {c : Owned Value} {t : Stage Value} (live : w.conns.hget sid = some c)
      (stage : c.stage = some t) : Moves w (.advance sid) (w.put sid c (t.step ad (w.scope c)))
  | ends {sid : Text} {c : Owned Value} {t : Stage Value} (live : w.conns.hget sid = some c)
      (stage : c.stage = some t) (closes : t.closes = true) :
      Moves w (.advance sid) { w.put sid c (t.step ad (w.scope c)) with
        conns := (w.put sid c (t.step ad (w.scope c))).conns.hdel sid }

theorem step_moves (w : Workers A Value) (a : WorkersAct Value) :
    Moves ad limits w a (w.step ad out limits a) := by
  unfold step
  cases a with
  | establish _ opening =>
    dsimp only
    split
    · exact .stays _
    next hfresh => exact .opens opening (by simpa using hfresh) rfl rfl rfl
  | command _ cmd inp =>
    dsimp only
    split
    · exact .stays _
    next c hlive =>
      split
      · exact .stays _
      next hidle =>
        exact .begins hlive (stage_of_not_busy hlive hidle)
          (fun hlocal => begin_spec ad out hlocal cmd inp) _
  | refused _ channel =>
    dsimp only
    split
    · exact .stays _
    next c hlive =>
      split
      · exact .stays _
      next hidle =>
        have hdone : Begun ad (w.scope c) ({ w.scope c with
            ctx := { c.ctx with subscribed := c.ctx.subscribed.erase channel } }, none) :=
          .done ⟨rfl, rfl, rfl⟩ ⟨rfl, rfl⟩ .none
        exact .begins hlive (stage_of_not_busy hlive hidle) (fun _ => hdone) _
  | close _ channels =>
    dsimp only
    split
    · exact .stays _
    next c hlive =>
      split
      · exact .stays _
      next hidle =>
        exact .begins hlive (stage_of_not_busy hlive fun hbusy => hidle (.inl hbusy))
          (fun _ => .leaves channels true) _
  | advance =>
    dsimp only
    split
    · exact .stays _
    next c hlive =>
      split
      · exact .stays _
      next t hstage =>
        split
        next hcloses => exact .ends hlive hstage hcloses
        next => exact .advances hlive hstage

/-- Every connection is under its own name, local, and has the node's limits. -/
def Local (w : Workers A Value) : Prop :=
  ∀ sid c, w.conns.hget sid = some c →
    c.ctx.clustered = false ∧ c.ctx.limits = limits ∧ c.ctx.socketId = sid

variable {ad limits}

theorem Local.put (h : w.Local limits) {r : Scope A Value × Option (Stage Value)}
    (hctx : r.1.ctx.clustered = false ∧ r.1.ctx.limits = limits ∧ r.1.ctx.socketId = sid) :
    (w.put sid c r).Local limits := by
  intro sid' c' hlive
  dsimp only [Workers.put] at hlive
  rw [Hash.hget_hset] at hlive
  split at hlive
  next heq =>
    cases hlive
    rw [heq]
    exact hctx
  next => exact h sid' c' hlive

theorem Local.advances (h : w.Local limits) {t : Stage Value} (hlive : w.conns.hget sid = some c) :
    (w.put sid c (t.step ad (w.scope c))).Local limits := by
  obtain ⟨hlocal, hlimits, hname⟩ := h sid c hlive
  obtain ⟨hsame, htells⟩ := Stage.step_tells ad (s := w.scope c) hlocal t
  exact h.put ⟨hsame.clustered.trans hlocal, htells.limits.trans hlimits,
    hsame.socketId.trans hname⟩

theorem Local.moves (h : w.Local limits) {a : WorkersAct Value} {w' : Workers A Value}
    (hmoves : Moves ad limits w a w') : w'.Local limits := by
  cases hmoves with
  | stays => exact h
  | opens _ _ islocal limited named => exact h.put ⟨islocal, limited, named⟩
  | begins live _ begun =>
    obtain ⟨hlocal, hlimits, hname⟩ := h _ _ live
    obtain ⟨hsame, hhushed⟩ := (begun hlocal).same
    exact h.put ⟨hsame.clustered.trans hlocal, hhushed.limits.trans hlimits,
      hsame.socketId.trans hname⟩
  | advances live => exact h.advances live
  | ends live =>
    intro sid' c' hlive
    rw [Hash.hget_hdel] at hlive
    split at hlive
    · cases hlive
    · exact h.advances live sid' c' hlive

end Workers

/-! ## The member cap -/

section

/-- What a worker knows of the users between its calls. -/
def Sound (cap : Nat) (registry : Registry Text Value) (app : String) : Stage Value → Prop
  | .counted channel _ _ current => (registry.usersIn (app, channel)).card ≤ current
  | .admitted channel (some member) _ =>
    member.userId ∉ registry.usersIn (app, channel) → (registry.usersIn (app, channel)).card < cap
  | _ => True

/-- While nobody comes in, it stays true: one user fewer is room for one. -/
theorem Sound.subset {cap : Nat} {registry registry' : Registry Text Value} {app : String}
    {t : Stage Value} (h : Sound cap registry app t)
    (hcap : ∀ key, (registry.usersIn key).card ≤ cap)
    (hsub : ∀ key, registry'.usersIn key ⊆ registry.usersIn key) : Sound cap registry' app t := by
  unfold Sound at h ⊢
  split at h
  next channel member inp current => exact (Finset.card_le_card (hsub _)).trans h
  next channel member inp =>
    intro hout
    by_cases hin : member.userId ∈ registry.usersIn (app, channel)
    · refine lt_of_lt_of_le (Finset.card_lt_card ?_) (hcap (app, channel))
      exact Finset.ssubset_iff_subset_ne.mpr ⟨hsub _, fun heq => hout (heq ▸ hin)⟩
    · exact lt_of_le_of_lt (Finset.card_le_card (hsub _)) (h hin)
  next => trivial

/-- The channel a worker has counted and not yet joined. -/
def joining (app : String) : Stage Value → Option Key
  | .counted channel _ _ _ => some (app, channel)
  | .admitted channel (some _) _ => some (app, channel)
  | _ => none

/-- Nothing known of a channel is lost while that channel's users stay. -/
theorem Sound.congr {cap : Nat} {registry registry' : Registry Text Value} {app : String}
    {t : Stage Value} (h : Sound cap registry app t)
    (hsame : ∀ key, joining app t = some key → registry'.usersIn key = registry.usersIn key) :
    Sound cap registry' app t := by
  unfold Sound at h ⊢
  split at h
  next channel member inp current =>
    rw [hsame (app, channel) rfl]
    exact h
  next channel member inp =>
    rw [hsame (app, channel) rfl]
    exact h
  next => trivial

end

namespace Workers

/-- The user a worker is about to bring in. -/
def newcomer (app : String) : Stage Value → Option (Key × String)
  | .admitted channel (some member) _ => some ((app, channel), member.userId)
  | _ => none

/-- When a join brings in a new user, no other worker is between its count and its join on
the channel. -/
def Exclusive (w : Workers (LocalAdapter Value) Value) : WorkersAct Value → Prop
  | .advance sid => ∀ c ∈ w.conns.hget sid, ∀ t ∈ c.stage, ∀ n ∈ newcomer c.ctx.app.id t,
      n.2 ∉ w.adapter.registry.usersIn n.1 →
      ∀ sid' ∈ w.conns.hkeys, sid' ≠ sid → ∀ c' ∈ w.conns.hget sid', ∀ t' ∈ c'.stage,
        joining c'.ctx.app.id t' ≠ some n.1
  | _ => True

instance (w : Workers (LocalAdapter Value) Value) (a : WorkersAct Value) :
    Decidable (w.Exclusive a) := by
  cases a <;> unfold Exclusive <;> infer_instance

/-- The cap is kept, and every worker knows what it needs to keep it. -/
structure Capped (limits : Limits) (w : Workers (LocalAdapter Value) Value) : Prop where
  conns : w.Local limits
  cap : ∀ key, (w.adapter.registry.usersIn key).card ≤ limits.maxPresenceMembers
  sound : ∀ sid c t, w.conns.hget sid = some c → c.stage = some t →
    Sound limits.maxPresenceMembers w.adapter.registry c.ctx.app.id t

variable {limits : Limits} {w : Workers (LocalAdapter Value) Value} {sid : Text} {c : Owned Value}
  {r : Scope (LocalAdapter Value) Value × Option (Stage Value)}

theorem Capped.put (hlocal : (w.put sid c r).Local limits)
    (hcap : ∀ key, (r.1.adapter.registry.usersIn key).card ≤ limits.maxPresenceMembers)
    (hothers : ∀ sid' c' t', sid' ≠ sid → w.conns.hget sid' = some c' → c'.stage = some t' →
      Sound limits.maxPresenceMembers r.1.adapter.registry c'.ctx.app.id t')
    (hown : ∀ t, r.2 = some t →
      Sound limits.maxPresenceMembers r.1.adapter.registry r.1.ctx.app.id t) :
    (w.put sid c r).Capped limits := by
  refine ⟨hlocal, hcap, fun sid' c' t' hlive hstage => ?_⟩
  dsimp only [Workers.put] at hlive
  rw [Hash.hget_hset] at hlive
  split at hlive
  · cases hlive
    exact hown t' hstage
  next hne => exact hothers sid' c' t' hne hlive hstage

theorem Capped.put_subset (h : w.Capped limits) (hlocal : (w.put sid c r).Local limits)
    (hsub : ∀ key, r.1.adapter.registry.usersIn key ⊆ w.adapter.registry.usersIn key)
    (hown : ∀ t, r.2 = some t →
      Sound limits.maxPresenceMembers r.1.adapter.registry r.1.ctx.app.id t) :
    (w.put sid c r).Capped limits :=
  .put hlocal (fun key => (Finset.card_le_card (hsub key)).trans (h.cap key))
    (fun sid' c' t' _ hlive hstage => (h.sound sid' c' t' hlive hstage).subset h.cap hsub) hown

variable [BEq Value]

theorem idle_usersIn {a a' : LocalAdapter Value} (h : Idle localAdapter sid a a') (key : Key) :
    a'.registry.usersIn key = a.registry.usersIn key := by
  cases h with
  | none | signin | signout => rfl
  | resend key' => exact Registry.usersIn_rosterFrame a.registry key' key

/-- Nobody joined between the count and this join. -/
theorem Capped.join (h : w.Capped limits) (hlive : w.conns.hget sid = some c) {channel : String}
    {member : PresenceMember Value} {inp : Inputs Value}
    (hstage : c.stage = some (.admitted channel (some member) inp))
    (hexcl : w.Exclusive (.advance sid)) :
    (w.put sid c ((Stage.admitted channel (some member) inp).step localAdapter
      (w.scope c))).Capped limits := by
  let key : Key := (c.ctx.app.id, channel)
  have hsound := h.sound sid c _ hlive hstage
  have hlocal : (w.put sid c ((Stage.admitted channel (some member) inp).step localAdapter
      (w.scope c))).Local limits := h.conns.advances hlive
  have hinsert : (w.adapter.registry.subscribe key c.ctx.socketId (some member)).1.usersIn key ⊆
      insert member.userId (w.adapter.registry.usersIn key) :=
    Registry.usersIn_subscribe _ _ _ _
  have hother : ∀ key', key' ≠ key →
      (w.adapter.registry.subscribe key c.ctx.socketId (some member)).1.usersIn key' =
        w.adapter.registry.usersIn key' :=
    fun key' hne => Registry.usersIn_subscribe_ne _ hne _ _
  by_cases hin : member.userId ∈ w.adapter.registry.usersIn key
  · -- the user is there already
    rw [Finset.insert_eq_self.mpr hin] at hinsert
    refine h.put_subset hlocal (fun key' => ?_) (by rintro _ ⟨⟩; trivial)
    by_cases hkey : key' = key
    · rw [hkey]
      exact hinsert
    · exact (hother key' hkey).subset
  · refine .put hlocal (fun key' => ?_) (fun sid' c' t' hne hlive' hstage' => ?_)
      (by rintro _ ⟨⟩; trivial)
    · by_cases hkey : key' = key
      · rw [hkey]
        calc ((w.adapter.registry.subscribe key c.ctx.socketId (some member)).1.usersIn key).card
            ≤ (insert member.userId (w.adapter.registry.usersIn key)).card :=
              Finset.card_le_card hinsert
          _ = (w.adapter.registry.usersIn key).card + 1 := Finset.card_insert_of_notMem hin
          _ ≤ limits.maxPresenceMembers := hsound hin
      · exact (congrArg Finset.card (hother key' hkey)).trans_le (h.cap key')
    · -- nobody else is about to join this channel
      refine (h.sound sid' c' t' hlive' hstage').congr fun key' hjoining => hother key' ?_
      rintro rfl
      exact hexcl c hlive _ hstage _ rfl hin sid' (Hash.mem_hkeys_of_hget hlive') hne c' hlive' t'
        hstage' hjoining

/-- The calls of a join, and everything else a worker does. -/
theorem Capped.advance (h : w.Capped limits) (hlive : w.conns.hget sid = some c) {t : Stage Value}
    (hstage : c.stage = some t) (hexcl : w.Exclusive (.advance sid)) :
    (w.put sid c (t.step localAdapter (w.scope c))).Capped limits := by
  have hlocal : (w.put sid c (t.step localAdapter (w.scope c))).Local limits :=
    h.conns.advances hlive
  have hsound := h.sound sid c t hlive hstage
  have hquiet {s' : Scope (LocalAdapter Value) Value} (heq : s'.adapter = w.adapter) (key : Key) :
      s'.adapter.registry.usersIn key ⊆ w.adapter.registry.usersIn key := by
    rw [heq]
  cases t with
  | counted _ member _ current =>
    unfold Stage.step at hlocal ⊢
    dsimp only at hlocal ⊢
    split at hlocal
    next hfull =>
      rw [if_pos hfull]
      exact h.put_subset hlocal (hquiet rfl) fun _ hnone => (by cases hnone)
    next hroom =>
      rw [if_neg hroom]
      refine h.put_subset hlocal (hquiet rfl) ?_
      rintro _ ⟨⟩ hnew
      -- the user is no member, so the count was below the cap
      have hbelow : current < limits.maxPresenceMembers := by
        by_contra hge
        refine hroom ⟨fun hany => hnew ?_, ?_⟩
        · exact (Registry.any_presenceMembers _ _ _).mp hany
        · rw [show (w.scope c).ctx.limits = limits from (h.conns sid c hlive).2.1]
          exact not_lt.mp hge
      exact lt_of_le_of_lt hsound hbelow
  | admitted _ member =>
    cases member with
    | none =>
      exact h.put_subset hlocal (fun key => Registry.usersIn_subscribe_none _ _ key _)
        (by rintro _ ⟨⟩; trivial)
    | some => exact h.join hlive hstage hexcl
  | joined channel member outcome inp =>
    have hafter := (Quiet.afterJoin (w.scope c) channel member outcome).trans
      (Quiet.talk.replayCache _ channel inp)
    exact h.put_subset hlocal (hquiet hafter.adapter) fun _ hnone => (by cases hnone)
  | leaving channels closing =>
    cases channels with
    | nil =>
      refine h.put_subset hlocal (fun key => ?_) fun _ hnone => (by cases hnone)
      cases closing with
      | true => exact (idle_usersIn (signoff_idle localAdapter (w.scope c)).2 key).subset
      | false => exact Finset.Subset.refl _
    | cons =>
      unfold Stage.step at hlocal ⊢
      dsimp only at hlocal ⊢
      split at hlocal
      next hheld =>
        rw [if_pos hheld]
        exact h.put_subset hlocal (fun key => Registry.usersIn_unsubscribe _ _ key _)
          (by rintro _ ⟨⟩; trivial)
      next hout =>
        rw [if_neg hout]
        exact h.put_subset hlocal (hquiet rfl) (by rintro _ ⟨⟩; trivial)
  | left channel outcome =>
    have hafter := Quiet.afterLeave (w.scope c) channel outcome
    exact h.put_subset hlocal (hquiet hafter.adapter) (by rintro _ ⟨⟩; trivial)

theorem Capped.begin (h : w.Capped limits) (hlocal : (w.put sid c r).Local limits)
    (hbegun : Begun localAdapter (w.scope c) r) : (w.put sid c r).Capped limits := by
  cases hbegun with
  | done _ _ idle =>
    exact h.put_subset hlocal (fun key => (idle_usersIn idle key).subset)
      fun _ hnone => (by cases hnone)
  | counts =>
    refine h.put_subset hlocal (fun key => Finset.Subset.refl _) ?_
    rintro _ ⟨⟩
    exact (Registry.userCount_getD _ _).ge
  | joins | leaves =>
    exact h.put_subset hlocal (fun key => Finset.Subset.refl _) (by rintro _ ⟨⟩; trivial)

theorem Capped.moves (h : w.Capped limits) {a : WorkersAct Value}
    {w' : Workers (LocalAdapter Value) Value} (hexcl : w.Exclusive a)
    (hmoves : Moves localAdapter limits w a w') : w'.Capped limits := by
  have hlocal := h.conns.moves hmoves
  cases hmoves with
  | stays => exact h
  | opens =>
    exact h.put_subset hlocal (fun key => Finset.Subset.refl _) fun _ hnone => (by cases hnone)
  | begins live _ begun => exact h.begin hlocal (begun (h.conns _ _ live).1)
  | advances live stage => exact h.advance live stage hexcl
  | ends live stage =>
    obtain ⟨-, hcap, hsound⟩ := h.advance live stage hexcl
    refine ⟨hlocal, hcap, fun sid' c' t' hlive hstage => ?_⟩
    rw [Hash.hget_hdel] at hlive
    split at hlive
    · cases hlive
    · exact hsound sid' c' t' hlive hstage

end Workers

/-- In every run in which no two workers are between count and join on a channel when a new
user comes in, no channel ever has more users than the cap. -/
theorem presence_cap [BEq Value] (out : Outside Value) (limits : Limits)
    (as : List (WorkersAct Value))
    (hexcl : Along (Workers.step localAdapter out limits) Workers.Exclusive
      { adapter := .empty } as)
    (key : Key) :
    ((run (Workers.step localAdapter out limits) { adapter := .empty } as).adapter.registry.usersIn
      key).card ≤ limits.maxPresenceMembers := by
  have hstart : Workers.Capped limits
      ({ adapter := .empty } : Workers (LocalAdapter Value) Value) := by
    refine ⟨fun sid c hlive => ?_, fun key => Nat.zero_le _, fun sid c t hlive => ?_⟩
    · cases hlive
    · cases hlive
  have hcapped := hexcl.invariant
    (fun w a (h : Workers.Capped limits w) hexcl =>
      h.moves hexcl (Workers.step_moves localAdapter out limits w a)) hstart
  exact hcapped.cap key

/-- Every signature is good, and the channel data is the user id. -/
def roomOutside : Outside Unit :=
  { retryOutside with parseChannelData := fun raw => some ⟨raw, ()⟩ }

/-- One user fills a channel. -/
def roomLimits : Limits := { retryOpening.limits with maxPresenceMembers := 1 }

def joinRoom (sid : Text) (userId : String) : WorkersAct Unit :=
  .command sid (.subscribe "presence-room" (some "k:s") (some userId)) {}

/-- Two connections, on two workers. -/
def openRoom : List (WorkersAct Unit) :=
  [.establish ['1'] retryOpening, .establish ['2'] { retryOpening with worker := 1 }]

/-- The users of the channel after a run. -/
def roomUsers (as : List (WorkersAct Unit)) : Finset String :=
  (run (Workers.step localAdapter roomOutside roomLimits) { adapter := .empty }
    as).adapter.registry.usersIn ("a", "presence-room")

/-- The second connection counts while the first announces its join. -/
def joinInTurn : List (WorkersAct Unit) :=
  openRoom ++ [joinRoom ['1'] "u", .advance ['1'], .advance ['1'], joinRoom ['2'] "v",
    .advance ['1'], .advance ['2']]

theorem presence_cap_in_turn :
    roomUsers joinInTurn = {"u"} ∧ (roomUsers joinInTurn).card ≤ roomLimits.maxPresenceMembers :=
  ⟨by decide +kernel,
    presence_cap roomOutside roomLimits joinInTurn (by decide) ("a", "presence-room")⟩

/-- Both workers count before either joins, and both join. -/
theorem presence_cap_exceeded :
    roomLimits.maxPresenceMembers <
      (roomUsers (openRoom ++ [joinRoom ['1'] "u", joinRoom ['2'] "v", .advance ['1'],
        .advance ['2'], .advance ['1'], .advance ['2']])).card := by
  decide

end Pylon.Transport
