import Pylon.Transport.Session

/-!
# Sessions and the registry on a single node

Without a cluster a join or a leave reaches the registry at once, under the
`LocalAdapter`, while a refusal travels through the connection's mailbox and is
applied by the drain: `drain_session` takes the refused channel off
`ctx.subscribed` because a refused subscription did not take.

The two views of who is where (`Synced`) stay equal exactly as long as no drain
finds a refusal of a channel the connection is in (`sessions_synced_iff`). A
connection gets there when a subscribe is refused and, before the batch ends, a
second one for the same channel is accepted (`sessions_diverge_on_retry`).
-/

namespace Pylon.Transport

open Pylon.Channel Pylon.Lib Pylon.Protocol Pylon.Redis Pylon.Ws

variable {Value : Type} [BEq Value]

/-- The registries of one node. -/
structure LocalAdapter (Value : Type) where
  registry : Registry Text Value
  users : UserRegistry Text

def LocalAdapter.empty : LocalAdapter Value := ⟨.empty, .empty⟩

/-- The adapter of a node without a cluster. -/
def localAdapter : Adapter (LocalAdapter Value) Value where
  subscribe a key sid member :=
    let r := a.registry.subscribe key sid member
    ({ a with registry := r.1 }, r.2)
  unsubscribe a key sid :=
    let r := a.registry.unsubscribe key sid
    ({ a with registry := r.1 }, r.2)
  userCount a key := a.registry.userCount key
  presenceMembers a key := a.registry.presenceMembers key
  resendPresenceAck a key _ :=
    let r := a.registry.rosterFrame key
    ({ a with registry := r.1 }, r.2)
  signinUser a key sid :=
    let r := a.users.signin key sid
    ({ a with users := r.1 }, r.2)
  signoutUser a key sid :=
    let r := a.users.signout key sid
    ({ a with users := r.1 }, r.2)

/-! ## One connection's commands -/

variable {n : Node (LocalAdapter Value) Value} {s s' : Scope (LocalAdapter Value) Value}
  {e' : Entry Value} {sid : Text}

theorem idle_has {a a' : LocalAdapter Value} (h : Idle localAdapter sid a a') (key : Key)
    (sid' : Text) : a'.registry.has key sid' = a.registry.has key sid' := by
  cases h with
  | none | signin | signout => rfl
  | resend key' =>
    show ((a.registry.rosterFrame key').1.subscriber key sid').isSome = _
    rw [Registry.subscriber_rosterFrame]
    rfl

/-- The registry has the connection in exactly the channels its context says. -/
def Agrees (s : Scope (LocalAdapter Value) Value) : Prop :=
  ∀ key, s.adapter.registry.has key s.ctx.socketId = true ↔
    key.1 = s.ctx.app.id ∧ key.2 ∈ s.ctx.subscribed

theorem dispatched_has_other (h : Dispatched localAdapter s s') (key : Key)
    (hne : sid ≠ s.ctx.socketId) :
    s'.adapter.registry.has key sid = s.adapter.registry.has key sid := by
  cases h with
  | quiet _ idle rest =>
    rw [rest.adapter]
    exact idle_has idle key sid
  | refused _ _ _ _ rest =>
    subst rest
    rfl
  | joined _ _ _ _ rest =>
    rw [rest.adapter]
    show (s.adapter.registry.subscribe _ _ _).1.has key sid = _
    rw [Registry.has_subscribe, if_neg (fun h => hne h.2)]
  | left _ _ rest =>
    rw [rest.adapter]
    show (s.adapter.registry.unsubscribe _ _).1.has key sid = _
    rw [Registry.has_unsubscribe, if_neg (fun h => hne h.2)]

/-- A command keeps the two views of its own connection equal. -/
theorem dispatched_agrees (h : Dispatched localAdapter s s') (hs : Agrees s) : Agrees s' := by
  intro key
  have hsame := h.same
  rw [hsame.socketId, hsame.app]
  cases h with
  | quiet a idle rest =>
    rw [rest.adapter, rest.subscribed]
    show a.registry.has key _ = true ↔ _
    rw [idle_has idle]
    exact hs key
  | refused _ _ _ _ rest =>
    subst rest
    exact hs key
  | joined channel member _ _ rest =>
    rw [rest.adapter, rest.subscribed]
    show (s.adapter.registry.subscribe (s.key channel) _ member).1.has key _ = true ↔
      key.1 = s.ctx.app.id ∧ key.2 ∈ insert channel s.ctx.subscribed
    rw [Registry.has_subscribe, Finset.mem_insert]
    by_cases hkey : key = s.key channel
    · simp [hkey, Scope.key]
    · rw [if_neg (fun h => hkey h.1), hs key]
      constructor
      · exact fun h => ⟨h.1, .inr h.2⟩
      · rintro ⟨happ, hch | hch⟩
        · exact absurd (Prod.ext happ hch) hkey
        · exact ⟨happ, hch⟩
  | left channel _ rest =>
    rw [rest.adapter, rest.subscribed]
    show (s.adapter.registry.unsubscribe (s.key channel) _).1.has key _ = true ↔
      key.1 = s.ctx.app.id ∧ key.2 ∈ s.ctx.subscribed.erase channel
    rw [Registry.has_unsubscribe, Finset.mem_erase]
    by_cases hkey : key = s.key channel
    · simp [hkey, Scope.key]
    · rw [if_neg (fun h => hkey h.1), hs key]
      constructor
      · exact fun h => ⟨h.1, fun hch => hkey (Prod.ext h.1 hch), h.2⟩
      · exact fun h => ⟨h.1, h.2.2⟩

theorem dispatches_has_other (h : Dispatches localAdapter s s') (key : Key)
    (hne : sid ≠ s.ctx.socketId) :
    s'.adapter.registry.has key sid = s.adapter.registry.has key sid := by
  induction h with
  | refl => rfl
  | tail hrun hlast ih =>
    rw [dispatched_has_other hlast key (by rwa [(Dispatches.same hrun).socketId]), ih]

theorem dispatches_agrees (h : Dispatches localAdapter s s') (hs : Agrees s) : Agrees s' := by
  induction h with
  | refl => exact hs
  | tail _ hlast ih => exact dispatched_agrees hlast ih

/-- Closing leaves alone what the context does not list. -/
theorem onClose_has_stray (s : Scope (LocalAdapter Value) Value) {key : Key}
    (hkey : key.2 ∉ s.ctx.subscribed) (sid : Text) :
    (s.onClose localAdapter).adapter.registry.has key sid = s.adapter.registry.has key sid := by
  have hfold : ∀ (channels : List String) (s : Scope (LocalAdapter Value) Value),
      key.2 ∉ s.ctx.subscribed →
      (channels.foldl (fun s channel => s.unsubscribe localAdapter channel) s).adapter.registry.has
        key sid = s.adapter.registry.has key sid := by
    intro channels
    induction channels with
    | nil => exact fun _ _ => rfl
    | cons channel _ ih =>
      intro s hkey
      rw [List.foldl_cons, ih _
        (by rw [subscribed_unsubscribe]; exact fun h => hkey (Finset.mem_of_mem_erase h))]
      by_cases hheld : channel ∈ s.ctx.subscribed
      · rw [(unsubscribe_held localAdapter hheld).adapter]
        show (s.adapter.registry.unsubscribe (s.key channel) _).1.has key sid = _
        rw [Registry.has_unsubscribe, if_neg]
        rintro ⟨rfl, -⟩
        exact hkey hheld
      · rw [Scope.unsubscribe, if_neg hheld]
  unfold Scope.onClose
  dsimp only
  rw [← hfold (inOrder s.ctx.subscribed) s hkey]
  split
  · rw [(Quiet.talk.emitIf _ _ _ rfl).adapter]
    rfl
  · rfl

/-! ## The node -/

/-- Every live connection is in the channels its session lists and no others, and a
connection that is gone is in none. -/
structure Synced (n : Node (LocalAdapter Value) Value) : Prop where
  live : ∀ sid e, n.entries.hget sid = some e → ∀ key,
    n.adapter.registry.has key sid = true ↔ key.1 = e.ctx.app.id ∧ key.2 ∈ e.ctx.subscribed
  gone : ∀ sid, n.entries.hget sid = none → ∀ key, n.adapter.registry.has key sid = false

/-- No refusal about to be drained names a channel the connection is in. -/
def Clean (n : Node (LocalAdapter Value) Value) (a : Act Value) : Prop :=
  ∀ e ∈ n.drained a, ∀ channel ∈ refusals e.ctx.mailbox.events, channel ∉ e.ctx.subscribed

instance (n : Node (LocalAdapter Value) Value) (a : Act Value) : Decidable (Clean n a) :=
  inferInstanceAs (Decidable (∀ e ∈ _, _))

omit [BEq Value] in
theorem Synced.set {n' : Node (LocalAdapter Value) Value} (h : Synced n)
    (hentries : n'.entries = n.entries.hset sid e')
    (hother : ∀ key sid', sid' ≠ sid →
      n'.adapter.registry.has key sid' = n.adapter.registry.has key sid')
    (hown : ∀ key, n'.adapter.registry.has key sid = true ↔ key.1 = e'.ctx.app.id ∧
      key.2 ∈ e'.ctx.subscribed) :
    Synced n' := by
  constructor
  · intro sid' e hget key
    rw [hentries, Hash.hget_hset] at hget
    split at hget
    next heq =>
      cases hget
      rw [heq]
      exact hown key
    next hne =>
      rw [hother key sid' hne]
      exact h.live sid' e hget key
  · intro sid' hget key
    rw [hentries, Hash.hget_hset] at hget
    split at hget
    · cases hget
    next hne =>
      rw [hother key sid' hne]
      exact h.gone sid' hget key

variable {e : Entry Value}

omit [BEq Value] in
/-- An entry that lists the same channels of the same app serves as well. -/
theorem Synced.reset {n' : Node (LocalAdapter Value) Value} (h : Synced n)
    (hlive : n.entries.hget sid = some e) (hentries : n'.entries = n.entries.hset sid e')
    (hadapter : n'.adapter = n.adapter) (happ : e'.ctx.app = e.ctx.app)
    (hsub : e'.ctx.subscribed = e.ctx.subscribed) : Synced n' := by
  refine h.set hentries (fun key sid' _ => by rw [hadapter]) (fun key => ?_)
  rw [hadapter, happ, hsub]
  exact h.live sid e hlive key

/-- Closing takes a connection out of the registry, channel by channel. -/
theorem Synced.remove (hfiled : n.Filed) (h : Synced n) (sid : Text) :
    Synced (n.remove localAdapter sid) := by
  unfold Node.remove
  split
  · exact h
  next e hlive =>
    have hsid : e.ctx.socketId = sid := (hfiled sid e hlive).1
    obtain ⟨hrun, hempty⟩ := onClose_spec localAdapter (n.turn e).scope
    have hstart : Agrees (n.turn e).scope := by
      intro key
      show n.adapter.registry.has key e.ctx.socketId = true ↔ _
      rw [hsid]
      exact h.live sid e hlive key
    have hend := dispatches_agrees hrun hstart
    have hother : ∀ key sid', sid' ≠ sid →
        ((n.turn e).scope.onClose localAdapter).adapter.registry.has key sid' =
          n.adapter.registry.has key sid' :=
      fun key sid' hne => dispatches_has_other hrun key (hsid ▸ hne)
    constructor
    · intro sid' e' hget key
      rw [Hash.hget_hdel] at hget
      split at hget
      · cases hget
      next hne =>
        rw [hother key sid' hne]
        exact h.live sid' e' hget key
    · intro sid' hget key
      by_cases heq : sid' = sid
      · have hnone := hend key
        rw [hempty, (Dispatches.same hrun).socketId] at hnone
        have hscope : (n.turn e).scope.ctx.socketId = sid' := hsid.trans heq.symm
        rw [hscope] at hnone
        simpa using hnone
      · rw [Hash.hget_hdel_ne _ heq] at hget
        rw [hother key sid' heq]
        exact h.gone sid' hget key

/-- What is known of a drain that changes nothing it should not. -/
def Harmless (_ : Node (LocalAdapter Value) Value) (e : Entry Value) : Prop :=
  ∀ channel ∈ refusals e.ctx.mailbox.events, channel ∉ e.ctx.subscribed

omit [BEq Value] in
theorem TakesOff.subscribed_of_harmless {channels : List String} (h : TakesOff channels e e')
    (hknown : ∀ channel ∈ channels, channel ∉ e.ctx.subscribed) :
    e'.ctx.subscribed = e.ctx.subscribed := by
  rw [h.subscribed]
  refine Finset.filter_true_of_mem fun channel hin hch => ?_
  exact hknown channel hch hin

theorem Synced.change (n n' : Node (LocalAdapter Value) Value) (h : n.Filed ∧ Synced n)
    (hchange : Change localAdapter Harmless n n') : n'.Filed ∧ Synced n' := by
  refine ⟨h.1.change n n' hchange, ?_⟩
  obtain ⟨hfiled, h⟩ := h
  cases hchange with
  | opened sid _ fresh =>
    have hnone : n.entries.hget sid = none := by
      cases hget : n.entries.hget sid with
      | none => rfl
      | some e => exact absurd (hfiled sid e hget).2 fresh
    refine h.set rfl (fun _ _ _ => rfl) (fun key => ?_)
    show n.adapter.registry.has key sid = true ↔ _ ∧ key.2 ∈ (∅ : Finset String)
    simp [h.gone sid hnone key]
  | command sid e _ _ live dispatched reached =>
    obtain ⟨entry, ⟨conn, fragment, rfl⟩, rfl⟩ := reached
    have hsid : e.ctx.socketId = sid := (hfiled sid e live).1
    have hstart : Agrees (n.turn e).scope := by
      intro key
      show n.adapter.registry.has key e.ctx.socketId = true ↔ _
      rw [hsid]
      exact h.live sid e live key
    refine h.set rfl (fun key sid' hne => ?_) (fun key => ?_)
    · exact dispatched_has_other dispatched key (hsid ▸ hne)
    · have hend := dispatched_agrees dispatched hstart key
      rw [dispatched.same.socketId] at hend
      exact hsid ▸ hend
  | drained _ _ _ live known takes =>
    exact h.reset live rfl rfl takes.conn.app (takes.subscribed_of_harmless known)
  | steady _ _ _ live _ takes _ same => exact h.reset live rfl rfl takes.conn.app same
  | reconciled =>
    unfold Node.reconcile
    split
    · exact h
    next e live => exact h.reset live rfl rfl rfl rfl
  | removed sid => exact Synced.remove hfiled h sid
  | sent =>
    unfold Node.send
    split
    · exact h
    next e live => exact h.reset live rfl rfl rfl rfl

/-- A drain that takes off a channel the connection is in leaves the registry
behind, whether the connection stays or goes. -/
theorem not_synced_of_drain (h : Synced n) {channels : List String} {channel : String}
    (hlive : n.entries.hget sid = some e) (htakes : TakesOff channels e e')
    (hrefused : channel ∈ channels) (hheld : channel ∈ e.ctx.subscribed) :
    let n' := n.settle sid (n.turn e')
    (∀ busy, ¬ Synced { n' with busy }) ∧ ¬ Synced (n'.reconcile sid) ∧
      ¬ Synced (n'.remove localAdapter sid) := by
  have hget : (n.settle sid (n.turn e')).entries.hget sid = some e' := Hash.hget_hset_self _ _ _
  have hhas : n.adapter.registry.has (e.ctx.app.id, channel) sid = true :=
    (h.live sid e hlive _).mpr ⟨rfl, hheld⟩
  have hoff : channel ∉ e'.ctx.subscribed := by
    rw [htakes.subscribed]
    simp [hrefused]
  refine ⟨?_, ?_, ?_⟩
  · intro busy hsynced
    exact hoff ((hsynced.live sid e' hget _).mp hhas).2
  · intro hsynced
    have hlive' := hsynced.live sid _ (Node.reconcile_live hget) (e.ctx.app.id, channel)
    rw [Node.reconcile_adapter] at hlive'
    exact hoff (hlive'.mp hhas).2
  · -- a close leaves only what the session knows of
    intro hsynced
    have hgone := hsynced.gone sid (Node.remove_gone localAdapter _ sid) (e.ctx.app.id, channel)
    unfold Node.remove at hgone
    rw [hget] at hgone
    have hstray := onClose_has_stray ((n.settle sid (n.turn e')).turn e').scope
      (show (e.ctx.app.id, channel).2 ∉ e'.ctx.subscribed from hoff) sid
    rw [show Registry.has _ _ _ = false from hgone] at hstray
    exact absurd (hstray.trans hhas) nofun

/-- The refusal drops the channel from the session, and the registry keeps it. -/
theorem not_synced_of_unclean (out : Outside Value) (maxMessageBytes : Nat) (h : Synced n)
    {a : Act Value} (hunclean : ¬ Clean n a) :
    ¬ Synced (n.step localAdapter out maxMessageBytes a) := by
  unfold Clean at hunclean
  push Not at hunclean
  obtain ⟨e, hdrained, channel, hrefused, hheld⟩ := hunclean
  cases a with
  | drain sid m =>
    have hlive : n.entries.hget sid = some e := hdrained
    obtain ⟨-, hreconciled, hclosed⟩ :=
      not_synced_of_drain h hlive (drainSession_spec out e m).1 hrefused hheld
    simp only [Node.step, hlive]
    split
    · exact hreconciled
    · exact hclosed
  | dirty sid m =>
    simp only [Node.drained] at hdrained
    split at hdrained
    · cases hdrained
    next hidle =>
    have hlive : n.entries.hget sid = some e := hdrained
    obtain ⟨hsettled, hreconciled, hclosed⟩ :=
      not_synced_of_drain h hlive (drainSession_spec out e m).1 hrefused hheld
    simp only [Node.step, hlive, hidle, if_false]
    split
    · split
      · exact hreconciled
      · exact hsettled _
    · exact hclosed
  | _ => cases hdrained

variable (out : Outside Value) (maxMessageBytes : Nat)

/-- The node before any connection. -/
def Node.fresh : Node (LocalAdapter Value) Value := { adapter := .empty }

/-- **Session view and registry.** Over every run of frames, drains, posts and closes of
any connections, the registry and the sessions agree in every state exactly as long
as no drain finds a refusal of a channel its connection is in. -/
theorem sessions_synced_iff (as : List (Act Value)) :
    (∀ k, Synced (run (Node.step localAdapter out maxMessageBytes) .fresh (as.take k))) ↔
      Along (Node.step localAdapter out maxMessageBytes) Clean .fresh as := by
  refine @Along.iff_forall_prefix _ _ _ _ Node.Filed Synced
    (Node.Filed.step localAdapter out maxMessageBytes) ?_ _ ?_ ?_ as
  · intro n a hfiled hsynced
    constructor
    · intro hstep
      by_contra hunclean
      exact not_synced_of_unclean out maxMessageBytes hsynced hunclean hstep
    · intro hclean
      have hchanges : Changes localAdapter Harmless n (n.step localAdapter out maxMessageBytes a) :=
        n.step_changes localAdapter out maxMessageBytes a hclean
      exact (hchanges.invariant Synced.change ⟨hfiled, hsynced⟩).2
  · intro sid e hget
    cases hget
  · constructor
    · intro sid e hget
      cases hget
    · intro sid _ key
      show Registry.has .empty key sid = false
      simp [Registry.has]

/-! ## A retry within a batch -/

/-- Libraries for a client of one private channel: an empty message subscribes
without a signature, any other with a good one. -/
def retryOutside : Outside Unit where
  hmac _ _ := "s"
  parseChannelData _ := none
  parseUserData _ := none
  isNull _ := true
  jsonBytes _ := 0
  fromUtf8 bytes := some (if bytes = [] then "unsigned" else "signed")
  decode text := some (.subscribe "private-room"
    (if text = "signed" then some "k:s" else none) none)
  encode _ := []

def retryOpening : Opening where
  worker := 0
  token := 0
  version := 7
  highWater := 1000
  codel := ⟨0, 0⟩
  app := { id := "a", key := "k", secret := "x" }
  mailboxCapacity := 8
  limits := ⟨100, 100, 100, 100, 100, 100, 100, 100⟩
  clustered := false
  capabilities := ⟨true, true, true, true, true, true⟩

/-- One batch: a subscribe without a signature, then the same with one. -/
def retryRun : List (Act Unit) :=
  .establish ['1'] retryOpening ::
    Node.batch ['1'] [(⟨true, .text, []⟩, {}), (⟨true, .text, [0]⟩, {})] {}

def retryNode : Node (LocalAdapter Unit) Unit :=
  run (Node.step localAdapter retryOutside 100) .fresh retryRun

/-- The refusal of the first subscribe, drained after the second was accepted, takes
the channel off the session; the registry keeps the socket, also after the close. -/
theorem sessions_diverge_on_retry :
    ¬ Synced retryNode ∧
      (retryNode.step localAdapter retryOutside 100 (.close ['1'])).adapter.registry.has
        ("a", "private-room") ['1'] = true := by
  have hhas : retryNode.adapter.registry.has ("a", "private-room") ['1'] = true := by decide
  have hlisted : (retryNode.entries.hget ['1']).map (fun e => e.ctx.subscribed) = some ∅ := by
    decide
  obtain ⟨e, hlive, hempty⟩ := Option.map_eq_some_iff.mp hlisted
  constructor
  · intro hsynced
    have hin := ((hsynced.live _ e hlive _).mp hhas).2
    rw [hempty] at hin
    exact absurd hin (Finset.notMem_empty _)
  · show (retryNode.remove localAdapter ['1']).adapter.registry.has _ _ = true
    unfold Node.remove
    rw [hlive]
    refine (onClose_has_stray (retryNode.turn e).scope ?_ _).trans hhas
    show "private-room" ∉ e.ctx.subscribed
    rw [hempty]
    exact Finset.notMem_empty _

end Pylon.Transport
