import Pylon.Cluster.Presence
import Pylon.Transport.Delivery

/-!
# The views of a presence channel agree

Who is in a presence channel is written down four times on a clustered node: in
the session (`ctx.subscribed`), in the node's registry, in Redis (`presmembers`)
and in the worker's delivery index. A join is in the first two before the cluster
has been asked, and a refusal reaches them on two ways of its own: the bridge undoes
the registry, the session reads a `subscription_error`.

A `Clean` step is a run of fair moves at every place (`place_step`). The steps that are
not are a refusal dropped by a full mailbox, a join undone after its connection has
joined again, whether that is queued already or not, and an old refusal drained after
that.
-/

namespace Pylon.Cluster

open Pylon.Channel Pylon.Lib Pylon.Protocol Pylon.Redis Pylon.Transport Pylon.Ws

variable {Value : Type} [BEq Value]

/-! ## What the shared state keeps -/

/-- What the matching of steps by moves relies on. -/
structure Hub.Healthy (h : Hub Value) : Prop where
  membered : h.Membered
  shaped : h.Shaped
  counted : h.Counted

variable {n n' : Node (Hub Value) Value} {s s' : Scope (Hub Value) Value} {e : Entry Value}
  {key : Key} (cfg : Config Value)

/-- A command neither runs a script nor an operation of the bridge. -/
theorem dispatched_bridge (h : Dispatched clusterAdapter s s') :
    s'.adapter.running = s.adapter.running ∧ s'.adapter.core.redis = s.adapter.core.redis := by
  cases h with
  | quiet _ idle rest =>
    rw [rest.adapter]
    cases idle <;> exact ⟨rfl, rfl⟩
  | refused _ _ _ _ rest =>
    subst rest
    exact ⟨rfl, rfl⟩
  | joined channel member fresh kind rest | left channel held rest =>
    rw [rest.adapter]
    exact ⟨rfl, rfl⟩

theorem Hub.Healthy.dispatched (h : s.adapter.Healthy) (hd : Dispatched clusterAdapter s s') :
    s'.adapter.Healthy := by
  obtain ⟨hrunning, hredis⟩ := dispatched_bridge hd
  refine ⟨dispatched_membered hd h.membered, fun key sid => ?_, fun key => ?_⟩
  · unfold Hub.phases
    rw [hrunning]
    exact h.shaped key sid
  · rw [hredis]
    exact h.counted key

theorem Hub.Healthy.dispatches (h : s.adapter.Healthy) (hd : Dispatches clusterAdapter s s') :
    s'.adapter.Healthy := by
  induction hd with
  | refl => exact h
  | tail _ hlast ih => exact ih.dispatched hlast

omit [BEq Value] in
theorem Hub.Healthy.take {h : Hub Value} (hh : h.Healthy) (sid : Text) : (h.take sid).Healthy := by
  have hcore : (h.take sid).core = h.core := by
    unfold Hub.take
    split <;> rfl
  refine ⟨?_, hh.shaped.take sid, ?_⟩
  · unfold Hub.Membered
    rw [hcore]
    exact hh.membered
  · unfold Hub.Counted
    rw [hcore]
    exact hh.counted

omit [BEq Value] in
theorem Hub.Healthy.enqueue {h : Hub Value} (hh : h.Healthy) (sid : Text) :
    (h.enqueue sid).Healthy := by
  unfold Hub.enqueue
  split <;> exact ⟨hh.membered, hh.shaped, hh.counted⟩

theorem Hub.Healthy.exec {h : Hub Value} (hh : h.Healthy) (cfg : Config Value) (expireAt : Nat) :
    (h.exec cfg expireAt).Healthy :=
  ⟨hh.membered.exec cfg expireAt, hh.shaped.exec cfg expireAt, hh.counted.exec cfg expireAt⟩

/-! ## Closing -/

variable {sid : Text}

theorem dispatches_place_other (h : Dispatches clusterAdapter s s') (hne : sid ≠ s.ctx.socketId)
    (ctx : Option (ConnectionContext Value)) (key : Key) :
    s'.adapter.place cfg ctx key sid = s.adapter.place cfg ctx key sid := by
  induction h with
  | refl => rfl
  | tail hrun hlast ih =>
    rw [dispatched_place_other cfg hlast (by rwa [(Dispatches.same hrun).socketId]), ih]

theorem dispatches_place (h : Dispatches clusterAdapter s s') (hhealthy : s.adapter.Healthy)
    (hkind : (ChannelInfo.of key.2).auth = .presence) :
    Place.FairRun (s.adapter.place cfg (some s.ctx) key s.ctx.socketId)
      (s'.adapter.place cfg (some s'.ctx) key s.ctx.socketId) := by
  induction h with
  | refl => exact .refl
  | tail hrun hlast ih =>
    have hsid := (Dispatches.same hrun).socketId
    have hmove := dispatched_place cfg hlast (hhealthy.dispatches hrun).membered hkind
    rw [hsid] at hmove
    exact ih.trans hmove

/-! ## Reading a refusal -/

/-- The socket is out of the channel, or the bridge is about to take it out. -/
def Undone (h : Hub Value) (key : Key) (sid : Text) : Prop :=
  h.core.registry.has key sid = false ∨ denialOf (h.phases key sid) ≠ none

section

omit [BEq Value]

/-- A drain reads a refusal if there is one of the channel, and moves nothing else. -/
theorem takesOff_place (h : Hub Value) {e' : Entry Value}
    (htakes : TakesOff (refusals e.ctx.mailbox.events) e e')
    (hleft : refused e.ctx.mailbox.events =
      refusals e.ctx.mailbox.events ++ refused e'.ctx.mailbox.events)
    (sid : Text)
    (hundone : key.1 = e.ctx.app.id → key.2 ∈ refusals e.ctx.mailbox.events → Undone h key sid) :
    Place.FairRun (h.place cfg (some e.ctx) key sid) (h.place cfg (some e'.ctx) key sid) := by
  have happ := htakes.conn.app
  by_cases hkey : key.1 = e.ctx.app.id
  · by_cases hread : key.2 ∈ refusals e.ctx.mailbox.events
    · have hnotice : told (some e.ctx) key = true := by
        simp [told, hleft, hkey, hread]
      refine .move (.read (told (some e'.ctx) key)) (fun _ => hundone hkey hread) ?_
      simp only [Place.step, Hub.place, hnotice, if_true]
      ext1
      case wanted => simp [wants, htakes.subscribed, hread]
      all_goals rfl
    · refine .of_eq (place_congr cfg h ?_ ?_ sid)
      · simp [wants, happ, htakes.subscribed, hread]
      · simp [told, happ, hleft, hread]
  · refine .of_eq (place_congr cfg h ?_ ?_ sid)
    · simp [wants, happ, hkey]
    · simp [told, happ, hkey]

/-! ## Steps of the workers -/

/-- The session of a socket, if it lives. -/
def session (n : Node (Hub Value) Value) (sid : Text) : Option (ConnectionContext Value) :=
  (n.entries.hget sid).map (·.ctx)

theorem session_live (hlive : n.entries.hget sid = some e) : session n sid = some e.ctx := by
  rw [session, hlive]
  rfl

theorem session_ne {sid' : Text} (hentries : n'.entries = n.entries.hset sid' e)
    (hne : sid ≠ sid') :
    session n' sid = session n sid := by
  rw [session, hentries, Hash.hget_hset_ne _ _ hne]
  rfl

theorem place_eq (n : Node (Hub Value) Value) (key : Key) (sid : Text) :
    place cfg n key sid = n.adapter.place cfg (session n sid) key sid := rfl

/-- Sending into a mailbox is at most a notice. -/
theorem place_send (n : Node (Hub Value) Value) (sid' : Text) (event : ServerEvent Value)
    (key : Key) (sid : Text) :
    place cfg (n.send sid' event) key sid = (place cfg n key sid).step
      (.refuse (decide (sid = sid') && delivered (session n sid) event key)) := by
  have hadapter : (n.send sid' event).adapter = n.adapter := by
    unfold Node.send
    split <;> rfl
  rw [place_eq, hadapter]
  cases hlive : n.entries.hget sid' with
  | none =>
    have hsame : session (n.send sid' event) sid = session n sid := by
      simp [Node.send, hlive]
    have hnone : (decide (sid = sid') && delivered (session n sid) event key) = false := by
      by_cases hsid : sid = sid'
      · simp [hsid, session, hlive, delivered]
      · simp [hsid]
    rw [hsame, hnone]
    simp [Place.step, place_eq]
  | some e =>
    have hset : (n.send sid' event).entries = n.entries.hset sid'
        { e with ctx := { e.ctx with mailbox := e.ctx.mailbox.trySend event } } := by
      simp [Node.send, hlive]
    rw [place_eq]
    by_cases hsid : sid = sid'
    · subst hsid
      have hnew : (n.send sid event).entries.hget sid =
          some { e with ctx := { e.ctx with mailbox := e.ctx.mailbox.trySend event } } := by
        rw [hset, Hash.hget_hset_self]
      rw [session_live hnew, session_live hlive, decide_eq_true rfl, Bool.true_and]
      ext1
      case notice => exact told_trySend e.ctx event key
      all_goals rfl
    · rw [session_ne hset hsid, decide_eq_false hsid, Bool.false_and]
      simp [Place.step]

end

/-- What is known of a connection about to be drained: each refusal of a presence
channel it will read finds the join undone. -/
def Unheld (n : Node (Hub Value) Value) (e : Entry Value) : Prop :=
  ∀ channel ∈ refusals e.ctx.mailbox.events, (ChannelInfo.of channel).auth = .presence →
    Undone n.adapter (e.ctx.app.id, channel) e.ctx.socketId

/-- The parts of the invariant that no presence move is needed for. -/
structure Kept (n : Node (Hub Value) Value) : Prop where
  delivers : Delivers n
  healthy : n.adapter.Healthy

theorem Kept.change (n n' : Node (Hub Value) Value) (h : Kept n)
    (hchange : Change clusterAdapter Unheld n n') : Kept n' := by
  refine ⟨h.delivers.change n n' hchange, ?_⟩
  cases hchange with
  | opened | drained | steady => exact h.healthy
  | command _ _ _ _ _ dispatched reached =>
    obtain ⟨entry, -, rfl⟩ := reached
    exact Hub.Healthy.dispatched h.healthy dispatched
  | reconciled =>
    unfold Node.reconcile
    split <;> exact h.healthy
  | removed =>
    unfold Node.remove
    split
    · exact h.healthy
    next e live =>
      exact Hub.Healthy.dispatches h.healthy (onClose_spec clusterAdapter (n.turn e).scope).1
  | sent =>
    unfold Node.send
    split <;> exact h.healthy

/-- A connection that goes leaves its places one by one. -/
theorem place_remove (h : Kept n) (sid' : Text) (hkind : (ChannelInfo.of key.2).auth = .presence)
    (sid : Text) :
    Place.FairRun (place cfg n key sid) (place cfg (n.remove clusterAdapter sid') key sid) := by
  cases hlive : n.entries.hget sid' with
  | none =>
    rw [Node.remove, hlive]
  | some e =>
    have hsid : e.ctx.socketId = sid' := (h.delivers.filed sid' e hlive).1
    obtain ⟨hrun, hempty⟩ := onClose_spec clusterAdapter (n.turn e).scope
    have hnew : place cfg (n.remove clusterAdapter sid') key sid =
        ((n.turn e).scope.onClose clusterAdapter).adapter.place cfg
          (((n.entries.hdel sid').hget sid).map (·.ctx)) key sid := by
      simp only [place, Node.remove, hlive]
    rw [hnew, Hash.hget_hdel]
    by_cases hown : sid = sid'
    · subst hown
      have hclose := dispatches_place cfg hrun h.healthy hkind
      generalize (n.turn e).scope.onClose clusterAdapter = s at *
      rw [place_eq, session_live hlive, if_pos rfl]
      have hctx : (n.turn e).scope.ctx.socketId = sid := hsid
      rw [hctx] at hclose
      -- the session is over, and with it what it has not read
      have hfree : wants (some s.ctx) key = false := by simp [wants, hempty]
      refine hclose.trans (Place.FairRun.move .forget hfree ?_)
      ext1
      case wanted => exact hfree.symm
      all_goals rfl
    · rw [if_neg hown]
      exact .of_eq (dispatches_place_other cfg hrun (hsid ▸ hown) _ key)

omit [BEq Value] in
theorem place_entry {sid' : Text} {e' : Entry Value} (hlive : n.entries.hget sid' = some e)
    (hentries : n'.entries = n.entries.hset sid' e') (hadapter : n'.adapter = n.adapter)
    (hown : Place.FairRun (n.adapter.place cfg (some e.ctx) key sid')
      (n.adapter.place cfg (some e'.ctx) key sid'))
    (sid : Text) : Place.FairRun (place cfg n key sid) (place cfg n' key sid) := by
  rw [place_eq, place_eq, hadapter]
  by_cases hsid : sid = sid'
  · subst hsid
    have hnew : n'.entries.hget sid = some e' := by rw [hentries, Hash.hget_hset_self]
    rw [session_live hlive, session_live hnew]
    exact hown
  · rw [session_ne hentries hsid]

/-- Every change is a run of fair moves at every place. -/
theorem place_change (h : Kept n) (hchange : Change clusterAdapter Unheld n n')
    (hkind : (ChannelInfo.of key.2).auth = .presence) (sid : Text) :
    Place.FairRun (place cfg n key sid) (place cfg n' key sid) := by
  -- what a drain reads of this channel is known to be undone
  have hundone : ∀ {sid' : Text} {e : Entry Value}, n.entries.hget sid' = some e → Unheld n e →
      key.1 = e.ctx.app.id → key.2 ∈ refusals e.ctx.mailbox.events → Undone n.adapter key sid' := by
    intro sid' e live known happ hin
    have hknown := known key.2 hin hkind
    rwa [(h.delivers.filed sid' e live).1, ← happ] at hknown
  cases hchange with
  | opened sid' opening fresh =>
    have hnone : n.entries.hget sid' = none := by
      cases hget : n.entries.hget sid' with
      | none => rfl
      | some e => exact absurd (h.delivers.filed sid' e hget).2 fresh
    refine .of_eq ?_
    show n.adapter.place cfg
      (((n.entries.hset sid' (opening.entry sid')).hget sid).map _) key sid = _
    rw [Hash.hget_hset, place]
    split
    next heq =>
      rw [heq, hnone]
      refine place_congr cfg n.adapter ?_ ?_ sid'
      · simp [wants, Opening.entry]
      · simp [told, Opening.entry, Mailbox.new, refused]
    next => rfl
  | command sid' e _ _ live dispatched reached =>
    obtain ⟨entry, ⟨conn, fragment, rfl⟩, rfl⟩ := reached
    have hsid : (n.turn e).scope.ctx.socketId = sid' := (h.delivers.filed sid' e live).1
    by_cases hown : sid = sid'
    · subst hown
      have hmove := dispatched_place cfg dispatched h.healthy.membered hkind
      rw [hsid] at hmove
      rw [place_eq, place_eq, session_live live, session_live (Hash.hget_hset_self _ _ _)]
      exact hmove
    · refine .of_eq ?_
      rw [place_eq, place_eq]
      rw [session_ne rfl hown]
      exact dispatched_place_other cfg dispatched (hsid ▸ hown) _ key
  | drained sid' e e' live known takes left | steady sid' e e' live known takes left =>
    have hread := takesOff_place cfg n.adapter takes left sid' (hundone live known)
    refine place_entry cfg live ?_ ?_ hread sid
    case refine_1 => rfl
    case refine_2 => rfl
  | reconciled sid' =>
    cases live : n.entries.hget sid' with
    | none => rw [Node.reconcile, live]
    | some =>
      exact place_entry cfg live (Node.reconcile_entries live) (Node.reconcile_adapter n sid') .refl
        sid
  | removed sid' => exact place_remove cfg h sid' hkind sid
  | sent sid' event =>
    exact .move (.refuse _) trivial (place_send cfg n sid' event key sid)

/-! ## Steps of the bridge and of other nodes -/

/-- A refusal finds room in the mailbox of a connection that has the channel, and a
join is not undone once its connection has joined again, in the queue or on its way
there. -/
def BridgeOp.Harmless (n : Node (Hub Value) Value) : BridgeOp Value → Prop
  | .refuse key sid =>
    ∀ e ∈ n.entries.hget sid, e.ctx.mailbox.hasRoom = true ∨ key.2 ∉ e.ctx.subscribed
  | .undoJoin key sid =>
    ∀ cmd ∈ n.adapter.queue ++ n.adapter.posting, cmd.request key sid ≠ some .join
  | _ => True

/-- A step that does no harm, by the state it is taken in. -/
def Clean (n : Node (Hub Value) Value) : ClusterAct Value → Prop
  | .worker a => ∀ e ∈ n.drained a, Unheld n e
  | .exec _ _ => ∀ op ∈ n.adapter.running.head?, op.Harmless n
  | _ => True

instance (h : Hub Value) (key : Key) (sid : Text) : Decidable (Undone h key sid) :=
  inferInstanceAs (Decidable (_ ∨ _))

instance (n : Node (Hub Value) Value) (e : Entry Value) : Decidable (Unheld n e) :=
  inferInstanceAs (Decidable (∀ channel ∈ refusals e.ctx.mailbox.events, _))

instance (n : Node (Hub Value) Value) : (op : BridgeOp Value) → Decidable (op.Harmless n)
  | .refuse _ sid => inferInstanceAs (Decidable (∀ e ∈ n.entries.hget sid, _))
  | .undoJoin _ _ => inferInstanceAs (Decidable (∀ cmd ∈ n.adapter.queue ++ n.adapter.posting, _))
  | .subChannel _ | .checkLast _ | .unsubChannel _ | .membershipJoin _ _ | .indexApp _
  | .unsubscribe _ _ | .userSignout _ _ | .presenceJoin _ _ _ | .acknowledge _ _
  | .presenceLeave _ _ _ => isTrue trivial

instance (n : Node (Hub Value) Value) : (a : ClusterAct Value) → Decidable (Clean n a)
  | .worker a => inferInstanceAs (Decidable (∀ e ∈ n.drained a, Unheld n e))
  | .exec _ _ => inferInstanceAs (Decidable (∀ op ∈ n.adapter.running.head?, op.Harmless n))
  | .enqueue _ | .take _ | .remoteJoin _ _ _ _ | .remoteLeave _ _ _ => isTrue trivial

/-- The node after an operation of the bridge, before what it sends. -/
def executed (cfg : Config Value) (expireAt : Nat) (n : Node (Hub Value) Value) :
    Node (Hub Value) Value :=
  { n with adapter := n.adapter.exec cfg expireAt }

/-- An operation may send into a mailbox at the end. -/
theorem clusterStep_exec (out : Outside Value) (maxMessageBytes : Nat) (n : Node (Hub Value) Value)
    (expireAt : Nat) (roster : PresencePayload Value) (key : Key) (sid : Text) :
    ∃ d, place cfg (clusterStep cfg out maxMessageBytes n (.exec expireAt roster)) key sid =
      (place cfg (executed cfg expireAt n) key sid).step (.refuse d) := by
  simp only [clusterStep]
  split
  next sid' event _ => exact ⟨_, place_send cfg (executed cfg expireAt n) sid' event key sid⟩
  next => exact ⟨false, by simp [Place.step, executed]⟩

/-- A refusal by the cluster, at the refused place. -/
theorem place_refuse (out : Outside Value) (maxMessageBytes : Nat) (h : Kept n) (expireAt : Nat)
    (roster : PresencePayload Value) {rest : List (BridgeOp Value)}
    (hrunning : n.adapter.running = .refuse key sid :: rest)
    (hclean : Clean n (.exec expireAt roster)) :
    Place.FairRun (place cfg n key sid)
      (place cfg (clusterStep cfg out maxMessageBytes n (.exec expireAt roster)) key sid) := by
  have hop := place_exec_refuse cfg expireAt h.healthy.shaped hrunning (session n sid)
  have hdenial : (place cfg n key sid).denial = some .decided := by
    simp [place, Hub.place, Hub.phases, hrunning, BridgeOp.phase, denialOf]
  have hstep : clusterStep cfg out maxMessageBytes n (.exec expireAt roster) =
      (executed cfg expireAt n).send sid
        (.subscriptionError key.2 "LimitReached" "Presence channel is full" 4004) := by
    simp [clusterStep, hrunning, BridgeOp.sends, executed]
  rw [hstep]
  refine .move (.notify (delivered (session n sid)
    (.subscriptionError key.2 "LimitReached" "Presence channel is full" 4004) key)) ?_ ?_
  · cases hlive : n.entries.hget sid with
    | none =>
      right
      simp [place, Hub.place, hlive, wants]
    | some e =>
      have hroom : BridgeOp.Harmless n (.refuse key sid) := hclean _ (by rw [hrunning]; rfl)
      by_cases happ : key.1 = e.ctx.app.id
      · rcases hroom e hlive with hroom | hfree
        · left
          simp [session_live hlive, delivered, happ, hroom, ServerEvent.refusedChannel]
        · right
          simp [place, Hub.place, hlive, wants, hfree]
      · right
        simp [place, Hub.place, hlive, wants, happ]
  · rw [place_send]
    have hbefore : place cfg (executed cfg expireAt n) key sid =
        (place cfg n key sid).step (.notify false) := hop
    rw [hbefore]
    simp [Place.step, hdenial, executed, session]

/-- Every operation of the bridge is a fair move, at most with a notice, at every place. -/
theorem place_exec_step (out : Outside Value) (maxMessageBytes : Nat) (h : Kept n) (expireAt : Nat)
    (roster : PresencePayload Value) (hclean : Clean n (.exec expireAt roster)) (key : Key)
    (sid : Text) :
    Place.FairRun (place cfg n key sid)
      (place cfg (clusterStep cfg out maxMessageBytes n (.exec expireAt roster)) key sid) := by
  -- a move of the bridge, and then whatever it sends
  have hafter : ∀ {p : Lib.Place}, Place.FairRun p (place cfg (executed cfg expireAt n) key sid) →
      Place.FairRun p
        (place cfg (clusterStep cfg out maxMessageBytes n (.exec expireAt roster)) key sid) := by
    intro p hrun
    obtain ⟨d, hd⟩ := clusterStep_exec cfg out maxMessageBytes n expireAt roster key sid
    exact hrun.trans (Place.FairRun.move (.refuse d) trivial hd)
  cases hrunning : n.adapter.running with
  | nil =>
    apply hafter
    refine .of_eq ?_
    simp [place, executed, Hub.exec, hrunning]
  | cons op =>
    rcases op.phase_cases key sid with ⟨member, rfl⟩ | ⟨userId, rfl⟩ | rfl | rfl | hother
    · apply hafter
      refine .move _ ?_ (place_exec_join cfg expireAt h.healthy.shaped h.healthy.counted hrunning _)
      split <;> trivial
    · apply hafter
      exact .move .depart trivial (place_exec_leave cfg expireAt h.healthy.shaped hrunning _)
    · exact place_refuse cfg out maxMessageBytes h expireAt roster hrunning hclean
    · apply hafter
      refine .move .takeBack ?_ (place_exec_undo cfg expireAt h.healthy.shaped hrunning _)
      have hno : BridgeOp.Harmless n (.undoJoin key sid) := hclean _ (by rw [hrunning]; rfl)
      show Request.join ∉ begun (n.adapter.phases key sid) ++ _
      simpa [Hub.phases, hrunning, BridgeOp.phase, begun, BridgeOp.Harmless, or_imp,
        forall_and] using hno
    · apply hafter
      exact .of_eq (place_exec_other cfg expireAt hrunning hother _)

section

omit [BEq Value]

theorem memberToken_ne {cfg : Config Value} {token : Text}
    (h : ¬ (cfg.nodeId ++ [':']) <+: token) (sid : Text) : memberToken cfg.nodeId sid ≠ token := by
  rintro rfl
  apply h
  exact ⟨sid, by simp [memberToken]⟩

theorem place_remotely (n : Node (Hub Value) Value) {key' : Key} {token : Text}
    {script : Presence String → Presence String}
    (hscript : ∀ t token', token' ≠ token →
      (script t).presmembers.hget token' = t.presmembers.hget token')
    (key : Key) (sid : Text) :
    place cfg (remotely cfg n key' token script) key sid = place cfg n key sid := by
  unfold remotely
  split
  · rfl
  next hforeign =>
    ext1
    case granted =>
      simp only [place, Hub.place, Keyspace.pres_setPresence]
      split
      next heq =>
        rw [Hash.hexists, Hash.hexists, hscript _ _ (memberToken_ne hforeign sid), heq]
      next => rfl
    all_goals rfl

theorem Kept.remotely (h : Kept n) (cfg : Config Value) (key' : Key) (token : Text)
    {script : Presence String → Presence String} (hscript : ∀ t, Counted t → Counted (script t)) :
    Kept (remotely cfg n key' token script) := by
  unfold Cluster.remotely
  split
  · exact h
  · refine ⟨⟨h.delivers.filed, h.delivers.listed, h.delivers.current⟩,
      ⟨h.healthy.membered, h.healthy.shaped, fun key => ?_⟩⟩
    simp only [Keyspace.pres_setPresence]
    split
    · exact hscript _ (h.healthy.counted key')
    · exact h.healthy.counted key

end

/-! ## Runs -/

section Runs

variable (cfg : Config Value) (out : Outside Value) (maxMessageBytes : Nat)
  {n : Node (Hub Value) Value}

theorem Kept.step (h : Kept n) (a : ClusterAct Value) (hclean : Clean n a) :
    Kept (clusterStep cfg out maxMessageBytes n a) := by
  cases a with
  | worker a =>
    have hchanges : Changes clusterAdapter Unheld n (n.step clusterAdapter out maxMessageBytes a) :=
      n.step_changes clusterAdapter out maxMessageBytes a hclean
    exact hchanges.invariant Kept.change h
  | enqueue sid =>
    exact ⟨⟨h.delivers.filed, h.delivers.listed, h.delivers.current⟩, h.healthy.enqueue sid⟩
  | take sid =>
    exact ⟨⟨h.delivers.filed, h.delivers.listed, h.delivers.current⟩, h.healthy.take sid⟩
  | exec expireAt =>
    have hexec : Kept (executed cfg expireAt n) :=
      ⟨⟨h.delivers.filed, h.delivers.listed, h.delivers.current⟩, h.healthy.exec cfg expireAt⟩
    simp only [clusterStep]
    split
    next sid event _ =>
      refine ⟨hexec.delivers.send sid event, ?_⟩
      unfold Node.send
      split <;> exact hexec.healthy
    next => exact hexec
  | remoteJoin key userId userInfo token =>
    exact h.remotely cfg key token fun t ht => ht.join userId userInfo token _
  | remoteLeave key userId token => exact h.remotely cfg key token fun t ht => ht.leave userId token

/-- **Steps as moves.** A clean step is a run of fair moves at every place of every
presence channel. -/
theorem place_step (h : Kept n) (a : ClusterAct Value) (hclean : Clean n a) {key : Key}
    (hkind : (ChannelInfo.of key.2).auth = .presence) (sid : Text) :
    Place.FairRun (place cfg n key sid)
      (place cfg (clusterStep cfg out maxMessageBytes n a) key sid) := by
  cases a with
  | worker a =>
    have hchanges : Changes clusterAdapter Unheld n (n.step clusterAdapter out maxMessageBytes a) :=
      n.step_changes clusterAdapter out maxMessageBytes a hclean
    -- along the changes of the step, each from a state that is kept
    refine (Changes.invariant (P := fun m => Kept m ∧
      Place.FairRun (place cfg n key sid) (place cfg m key sid)) ?_ hchanges ⟨h, .refl⟩).2
    rintro m m' ⟨hkept, hrun⟩ hchange
    exact ⟨hkept.change m m' hchange, hrun.trans (place_change cfg hkept hchange hkind sid)⟩
  | enqueue sid' => exact .of_eq (place_enqueue cfg n.adapter sid' _ key sid)
  | take sid' => exact .of_eq (place_take cfg n.adapter sid' _ key sid)
  | exec expireAt roster =>
    exact place_exec_step cfg out maxMessageBytes h expireAt roster hclean key sid
  | remoteJoin _ userId userInfo token =>
    exact .of_eq (place_remotely cfg n
      (fun t _ hne => presenceJoin_presmembers_ne t userId userInfo token _ hne) key sid)
  | remoteLeave _ userId token =>
    exact .of_eq (place_remotely cfg n
      (fun t _ hne => presenceLeave_presmembers_ne t userId token hne) key sid)

/-- A node that has just started over the given Redis. -/
def startNode (redis : Keyspace) : Node (Hub Value) Value :=
  { adapter := { core := { Core.empty with redis } } }

/-- The cluster's tables when the node starts: no refcount is negative, and no token is
of this node's id. -/
structure Foreign (cfg : Config Value) (redis : Keyspace) : Prop where
  counted : ∀ key, Counted (redis.channels key).pres
  absent : ∀ key sid, (redis.channels key).pres.presmembers.hget (memberToken cfg.nodeId sid) = none

/-- All commands are handled, all mailboxes drained and all batches over. -/
structure Quiescent (n : Node (Hub Value) Value) : Prop where
  posting : n.adapter.posting = []
  queue : n.adapter.queue = []
  running : n.adapter.running = []
  mailboxes : ∀ sid e, n.entries.hget sid = some e → e.ctx.mailbox.events = []
  batches : n.busy = ∅

instance (n : Node (Hub Value) Value) : Decidable (Quiescent n) :=
  decidable_of_iff (n.adapter.posting.isEmpty ∧ n.adapter.queue.isEmpty ∧
      n.adapter.running.isEmpty ∧
      (∀ sid ∈ n.entries.hkeys, (n.entries.hget sid).all fun e => e.ctx.mailbox.events.isEmpty) ∧
      n.busy = ∅)
    ⟨fun ⟨hposting, hqueue, hrunning, hmail, hbusy⟩ =>
      { posting := List.isEmpty_iff.mp hposting
        queue := List.isEmpty_iff.mp hqueue
        running := List.isEmpty_iff.mp hrunning
        mailboxes := fun sid e hget => by
          simpa [hget] using hmail sid (Hash.mem_hkeys_of_hget hget)
        batches := hbusy },
    fun h => ⟨by simp [h.posting], by simp [h.queue], by simp [h.running],
      fun sid _ => by
        cases hget : n.entries.hget sid with
        | none => rfl
        | some e => simp [h.mailboxes sid e hget],
      h.batches⟩⟩

/-- The invariant of the clean runs. -/
structure Matched (n : Node (Hub Value) Value) : Prop where
  kept : Kept n
  sound : ∀ key sid, (ChannelInfo.of key.2).auth = .presence → (place cfg n key sid).Sound

variable {cfg}

omit [BEq Value] in
theorem Matched.start {redis : Keyspace} (h : Foreign cfg redis) :
    Matched cfg (startNode redis : Node (Hub Value) Value) := by
  refine ⟨⟨⟨?_, ?_, ?_⟩, ⟨?_, ?_, h.counted⟩⟩, fun key sid _ => ?_⟩
  · exact fun sid e hget => nomatch hget
  · exact fun w key sid => rfl
  · exact fun sid e hget => nomatch hget
  · intro key sid member _ hsub
    exact absurd hsub (by simp [startNode, Core.empty])
  · exact fun key sid => List.mem_cons_self
  · have hnew : place cfg (startNode redis : Node (Hub Value) Value) key sid = {} := by
      ext1
      case held => simp [place, Hub.place, startNode, Core.empty, Registry.has]
      case granted =>
        show (redis.channels key).pres.presmembers.hexists _ = false
        rw [Hash.hexists, h.absent]
        rfl
      all_goals rfl
    rw [hnew]
    exact Place.sound_new

theorem Matched.step {a : ClusterAct Value} (h : Matched cfg n) (hclean : Clean n a) :
    Matched cfg (clusterStep cfg out maxMessageBytes n a) := by
  refine ⟨h.kept.step cfg out maxMessageBytes a hclean, fun key sid hkind => ?_⟩
  exact (h.sound key sid hkind).run
    (place_step cfg out maxMessageBytes h.kept a hclean hkind sid)

omit [BEq Value] in
theorem Matched.settled (h : Matched cfg n) (hquiet : Quiescent n) {key : Key}
    (hkind : (ChannelInfo.of key.2).auth = .presence) (sid : Text) :
    wants (session n sid) key = n.adapter.core.registry.has key sid ∧
      n.adapter.core.registry.has key sid =
        (n.adapter.core.redis.channels key).pres.presmembers.hexists
          (memberToken cfg.nodeId sid) := by
  refine (h.sound key sid hkind).settled ?_ ?_ ?_
  · simp [place, Hub.place, Hub.phases, hquiet.posting, hquiet.queue, hquiet.running, begun]
  · simp [place, Hub.place, Hub.phases, hquiet.running, denialOf]
  · show told (session n sid) key = false
    cases hlive : n.entries.hget sid with
    | none => simp [session, hlive, told]
    | some e => simp [session_live hlive, told, hquiet.mailboxes sid e hlive, refused]

end Runs

/-! ## A room for one -/

/-- Libraries for a client of one presence channel: an empty message subscribes, any
other unsubscribes. -/
def roomOutside : Outside Unit where
  hmac _ _ := "s"
  parseChannelData _ := some ⟨"7", ()⟩
  parseUserData _ := none
  isNull _ := true
  jsonBytes _ := 0
  fromUtf8 bytes := some (if bytes = [] then "join" else "leave")
  decode text :=
    if text = "join" then some (.subscribe "presence-room" (some "k:s") (some "d"))
    else some (.unsubscribe "presence-room")
  encode _ := []

def roomOpening (mailboxCapacity : Nat) : Opening where
  worker := 0
  token := 0
  version := 7
  highWater := 1000
  codel := ⟨0, 0⟩
  app := { id := "a", key := "k", secret := "x" }
  mailboxCapacity
  limits := ⟨100, 100, 100, 100, 100, 100, 100, 100⟩
  clustered := true
  capabilities := ⟨true, true, true, true, true, true⟩

def room : Key := ("a", "presence-room")

/-- The local half of a join. -/
def joining : ClusterAct Unit := .worker (.frame ['1'] ⟨true, .text, []⟩ {})

def joins : List (ClusterAct Unit) := [joining, .enqueue ['1']]

def leaves : List (ClusterAct Unit) :=
  [.worker (.frame ['1'] ⟨true, .text, [0]⟩ {}), .enqueue ['1']]

def drains : ClusterAct Unit := .worker (.drain ['1'] {})

def execs (operations : Nat) : List (ClusterAct Unit) :=
  List.replicate operations (.exec 0 ⟨[], [], 0⟩)

/-- The bridge handles the oldest command, which takes at most five operations. -/
def handles : List (ClusterAct Unit) := .take ['1'] :: execs 5

/-- Another node's user is in the room; then connection `1` opens. -/
def opens (mailboxCapacity : Nat) : List (ClusterAct Unit) :=
  [.remoteJoin room "8" [] ['m'], .worker (.establish ['1'] (roomOpening mailboxCapacity))]

end Pylon.Cluster
