import Pylon.Lib.Trace
import Pylon.Cluster.Core

/-!
# The reconcile loop beside the bridge

A node re-asserts its memberships from a snapshot of its registries: it
enumerates them, then writes one pipeline of commands. Meanwhile workers join
and leave, the bridge runs their commands, and other nodes and sweepers write
the same keys.

`NodeSys` is that node, one command or registry operation at a time. The
question is whether a removal is final: `removal_final_iff` says that it is
exactly when the loop holds no unwritten command carrying the removed token.
-/

namespace Pylon.Cluster

open Pylon.Lib Pylon.Redis Pylon.Channel

variable {Info : Type} [BEq Info]

/-- `(app, name)` groups of socket ids, as the registries list them. -/
abbrev LocalGroups := List (Key × List Text)

/-- One command of a reconcile tick. -/
inductive PipeCmd
  | sub (s : Subject)
  | hset (s : Subject) (tokens : List Text) (expireAt : Nat)
  | index (ss : List Subject)
  | apps (apps : List String)

/-- `group_by_app`, with the subjects' constructor applied. -/
def groupByApp (subject : Key → Subject) (groups : LocalGroups) : List (List Subject) :=
  ((groups.map fun g => g.1.1).dedup).map fun app =>
    (groups.filter fun g => g.1.1 = app).map fun g => subject g.1

/-- A tick's commands, in order: `resubscribe_missing`, then the pipeline of
`restamp_and_reindex`. -/
def tickCmds (nodeId : Text) (tracked : Finset Subject) (members bindings : LocalGroups)
    (expireAt : Nat) : List PipeCmd :=
  let stamps (sids : List Text) := sids.map (memberToken nodeId)
  let wanted := members.map (fun g => Subject.channel g.1) ++ bindings.map fun g => .user g.1
  (wanted.filter fun s => s ∉ tracked).map .sub ++
    members.map (fun g => .hset (.channel g.1) (stamps g.2) expireAt) ++
    bindings.map (fun g => .hset (.user g.1) (stamps g.2) expireAt) ++
    (groupByApp .channel members ++ groupByApp .user bindings).map .index ++
    [.apps (((members ++ bindings).map fun g => g.1.1).dedup)]

def Keyspace.indexAll (ks : Keyspace) (ss : List Subject) : Keyspace :=
  ss.foldl (fun ks s => ks.setMembership { ks.membership s with indexed := true } s) ks

/-- Run one command of a tick. -/
def execPipe (c : Core Info) : PipeCmd → Core Info
  | .sub s => { c with tracked := insert s c.tracked }
  | .hset s tokens expireAt =>
    let m := c.redis.membership s
    { c with
      redis := c.redis.setMembership
        { m with stamps := m.stamps.hsetAll tokens (some expireAt) } s }
  | .index ss => { c with redis := c.redis.indexAll ss }
  | .apps apps => { c with redis.apps := c.redis.apps ∪ apps.toFinset }

/-- The node: its core, the commands workers hold but have not sent, the
bridge's queue and current command, and the commands a tick has yet to run. -/
structure NodeSys (Info : Type) extends Core Info where
  inHand : Hash Nat (ClusterCmd Info)
  queue : List (ClusterCmd Info)
  running : List (BridgeOp Info)
  pipe : List PipeCmd

def NodeSys.empty : NodeSys Info := ⟨.empty, ∅, [], [], []⟩

/-- A step of the node or of its surroundings. `foreign` is a write by another
node or by a sweeper: anything that brings in no token of this node. -/
inductive NodeAct (Info : Type)
  | subscribe (worker : Nat) (key : Key) (sid : Text) (member : Option (PresenceMember Info))
  | unsubscribe (worker : Nat) (key : Key) (sid : Text)
  | signin (worker : Nat) (key : Key) (sid : Text)
  | signout (worker : Nat) (key : Key) (sid : Text)
  | send (worker : Nat)
  | drop (worker : Nat)
  | bridge (expireAt : Nat)
  | tick (members bindings : LocalGroups) (expireAt : Nat)
  | write
  | abort
  | foreign (s : Subject) (m : Membership)
  | foreignPresence (key : Key) (t : Presence String)

/-- The worker's local half, if it holds no unsent command. -/
def NodeSys.localHalf (n : NodeSys Info) (worker : Nat) (r : Core Info × ClusterCmd Info) :
    NodeSys Info :=
  if n.inHand.hget worker = none then
    { n with toCore := r.1, inHand := n.inHand.hset worker r.2 }
  else n

/-- A membership that brings in no token of the node. -/
def BringsNone (nodeId : Text) (old new : Membership) : Prop :=
  ∀ token ∈ new.stamps.hkeys, (nodeId ++ [':']) <+: token → token ∈ old.stamps.hkeys

instance (nodeId : Text) (old new : Membership) : Decidable (BringsNone nodeId old new) :=
  inferInstanceAs (Decidable (∀ _ ∈ _, _ → _))

def nodeStep (cfg : Config Info) (n : NodeSys Info) : NodeAct Info → NodeSys Info
  | .subscribe worker key sid member => n.localHalf worker (n.toCore.subscribe key sid member)
  | .unsubscribe worker key sid => n.localHalf worker (n.toCore.unsubscribe key sid)
  | .signin worker key sid => n.localHalf worker (n.toCore.signin key sid)
  | .signout worker key sid => n.localHalf worker (n.toCore.signout key sid)
  | .send worker =>
    match n.inHand.hget worker with
    | some cmd => { n with inHand := n.inHand.hdel worker, queue := n.queue ++ [cmd] }
    | none => n
  | .drop worker => { n with inHand := n.inHand.hdel worker }
  | .bridge expireAt =>
    match n.running with
    | op :: rest =>
      let r := execOp cfg expireAt n.toCore op
      { n with toCore := r.1, running := r.2 ++ rest }
    | [] =>
      match n.queue with
      | cmd :: queue => { n with queue := queue, running := program cmd }
      | [] => n
  | .tick members bindings expireAt =>
    -- the loop runs one tick at a time, and none from empty registries
    if n.pipe = [] ∧ n.registry.Lists members ∧ n.users.Lists bindings ∧
        ¬ (members = [] ∧ bindings = []) then
      { n with pipe := tickCmds cfg.nodeId n.tracked members bindings expireAt }
    else n
  | .write =>
    match n.pipe with
    | cmd :: pipe => { n with toCore := execPipe n.toCore cmd, pipe := pipe }
    | [] => n
  | .abort => { n with pipe := [] }
  | .foreign s m =>
    if BringsNone cfg.nodeId (n.redis.membership s) m then
      { n with redis := n.redis.setMembership m s }
    else n
  | .foreignPresence key t => { n with redis := n.redis.setPresence key t }

/-! ## Joins and leaves of one socket -/

def ClusterCmd.joins (s : Subject) (sid : Text) : ClusterCmd Info → Bool
  | .subscribe key sid' _ => decide (s = .channel key ∧ sid' = sid)
  | .presenceSubscribe key _ sid' _ => decide (s = .channel key ∧ sid' = sid)
  | .signin key sid' _ => decide (s = .user key ∧ sid' = sid)
  | _ => false

def BridgeOp.joins (s : Subject) (sid : Text) : BridgeOp Info → Bool
  | .membershipJoin s' sid' => decide (s = s' ∧ sid' = sid)
  | .presenceJoin key _ sid' => decide (s = .channel key ∧ sid' = sid)
  | _ => false

/-- The script that takes the socket's token out of the subject's hash. -/
def BridgeOp.leaves (s : Subject) (sid : Text) : BridgeOp Info → Bool
  | .unsubscribe key sid' => decide (s = .channel key ∧ sid' = sid)
  | .userSignout key sid' => decide (s = .user key ∧ sid' = sid)
  | _ => false

/-- The worker step that makes the socket a local member of the subject. -/
def NodeAct.joins (s : Subject) (sid : Text) : NodeAct Info → Bool
  | .subscribe _ key sid' _ => decide (s = .channel key ∧ sid' = sid)
  | .signin _ key sid' => decide (s = .user key ∧ sid' = sid)
  | _ => false

def PipeCmd.stamps (s : Subject) (token : Text) : PipeCmd → Bool
  | .hset s' tokens _ => decide (s = s' ∧ token ∈ tokens)
  | _ => false

/-- No join of the socket is on its way to Redis. -/
def NodeSys.Still (n : NodeSys Info) (s : Subject) (sid : Text) : Prop :=
  (∀ cmd ∈ n.queue, cmd.joins s sid = false) ∧
    (∀ worker ∈ n.inHand.hkeys,
      (n.inHand.hget worker).all (fun cmd => !cmd.joins s sid) = true) ∧
    ∀ op ∈ n.running, op.joins s sid = false

instance (n : NodeSys Info) (s : Subject) (sid : Text) : Decidable (n.Still s sid) :=
  inferInstanceAs (Decidable ((∀ _ ∈ _, _) ∧ (∀ _ ∈ _, _) ∧ ∀ _ ∈ _, _))

/-- The token is out of Redis, the socket out of the registries, and neither a
join nor a reconcile write of it is on its way. -/
structure Gone (cfg : Config Info) (n : NodeSys Info) (s : Subject) (sid : Text) : Prop where
  absent : (n.redis.membership s).stamps.hget (memberToken cfg.nodeId sid) = none
  unlocal : n.isLocal sid s = false
  still : n.Still s sid
  unpiped : ∀ cmd ∈ n.pipe, cmd.stamps s (memberToken cfg.nodeId sid) = false

/-! ## What one operation does to one socket -/

omit [BEq Info] in
theorem program_joins (s : Subject) (sid : Text) (cmd : ClusterCmd Info) :
    (program cmd).any (·.joins s sid) = cmd.joins s sid := by
  cases cmd with
  | subscribe key sid' nodeFirst | presenceSubscribe key m sid' nodeFirst
  | signin _ _ nodeFirst =>
    -- the subject is subscribed to on the way, which joins nothing
    cases nodeFirst <;> exact Bool.or_false _
  | unsubscribe key sid' nodeLast | presenceLeave key userId sid' nodeLast
  | signout _ _ nodeLast => cases nodeLast <;> rfl

variable {s : Subject} {op : BridgeOp Info} {sid : Text} (cfg : Config Info) (expireAt : Nat)
  (c : Core Info)

/-- What an operation makes the bridge await next joins nothing new. -/
theorem execOp_next_joins (hop : op.joins s sid = false) :
    ∀ op' ∈ (execOp cfg expireAt c op).2, op'.joins s sid = false := by
  intro op' hmem
  cases op with
  | checkLast =>
    simp only [execOp] at hmem
    split at hmem
    · exact absurd hmem (by simp)
    · rw [List.mem_singleton.mp hmem]
      rfl
  | presenceJoin =>
    simp only [execOp] at hmem
    split at hmem
    · rcases List.mem_pair.mp hmem with rfl | rfl <;> rfl
    · rcases List.mem_cons.mp hmem with rfl | hmem
      · simpa [BridgeOp.joins] using hop
      · rcases List.mem_pair.mp hmem with rfl | rfl <;> rfl
  | undoJoin =>
    simp only [execOp] at hmem
    split at hmem
    · rw [List.mem_singleton.mp hmem]
      rfl
    · exact absurd hmem (by simp)
  | _ => exact absurd hmem (by simp [execOp])

/-- An operation that joins something else does not make the socket local. -/
theorem execOp_isLocal (op : BridgeOp Info) (hlocal : c.isLocal sid s = false) :
    (execOp cfg expireAt c op).1.isLocal sid s = false := by
  cases op with
  | undoJoin =>
    cases s with
    | channel =>
      simp only [execOp, Core.isLocal, Registry.has_unsubscribe]
      split
      · rfl
      · exact hlocal
    | user => exact hlocal
  | _ => exact hlocal

/-- Only a join stamps a member. -/
theorem execOp_absent (hop : op.joins s sid = false)
    (h : (c.redis.membership s).stamps.hget (memberToken cfg.nodeId sid) = none) :
    ((execOp cfg expireAt c op).1.redis.membership s).stamps.hget
      (memberToken cfg.nodeId sid) = none := by
  -- a script that writes one subject's set, without the socket's token
  have hset (s' : Subject) {m : Membership}
      (hm : s' = s → m.stamps.hget (memberToken cfg.nodeId sid) = none) :
      ((c.redis.setMembership m s').membership s).stamps.hget
        (memberToken cfg.nodeId sid) = none := by
    rw [Keyspace.membership_setMembership]
    split
    next heq => exact hm heq.symm
    next => exact h
  cases op with
  | membershipJoin _ sid' =>
    refine hset _ fun heq => ?_
    subst heq
    have hne : memberToken cfg.nodeId sid ≠ memberToken cfg.nodeId sid' := by
      intro heq
      simp [BridgeOp.joins, memberToken_inj heq] at hop
    exact (Hash.hget_hset_ne _ _ hne).trans h
  | unsubscribe key =>
    refine hset (.channel key) fun heq => ?_
    subst heq
    exact (unsubscribe_shrinks _ _ _).elim (fun heq => heq.trans h) id
  | userSignout key =>
    refine hset (.user key) fun heq => ?_
    subst heq
    exact (userSignout_shrinks _ _ _).elim (fun heq => heq.trans h) id
  | presenceJoin | presenceLeave =>
    simp only [execOp, Keyspace.membership_setPresence]
    exact h
  | _ => exact h

theorem execOp_leaves (hop : op.leaves s sid = true) :
    ((execOp cfg expireAt c op).1.redis.membership s).stamps.hget
      (memberToken cfg.nodeId sid) = none := by
  cases op with
  | unsubscribe key sid' =>
    obtain ⟨rfl, rfl⟩ : s = .channel key ∧ sid' = sid := by simpa [BridgeOp.leaves] using hop
    simp only [execOp, Keyspace.membership_setMembership, if_true]
    rcases unsubscribe_cases (c.redis.membership (.channel key)) (memberToken cfg.nodeId sid')
      with ⟨-, heq⟩ | ⟨-, heq⟩
    · rw [heq]
      exact Hash.hget_empty _
    · rw [heq]
      exact Hash.hget_hdel_self _ _
  | userSignout key sid' =>
    obtain ⟨rfl, rfl⟩ : s = .user key ∧ sid' = sid := by simpa [BridgeOp.leaves] using hop
    simp only [execOp, Keyspace.membership_setMembership, if_true, userSignout]
    split
    · exact Hash.hget_empty _
    · exact Hash.hget_hdel_self _ _
  | _ => exact absurd hop (by simp [BridgeOp.leaves])

theorem membership_indexAll (ks : Keyspace) (ss : List Subject) (s : Subject) :
    ((ks.indexAll ss).membership s).stamps = (ks.membership s).stamps := by
  induction ss generalizing ks with
  | nil => rfl
  | cons _ ss ih =>
    show ((Keyspace.indexAll _ ss).membership s).stamps = _
    rw [ih, Keyspace.membership_setMembership]
    split
    next heq => rw [heq]
    next => rfl

omit [BEq Info] in
theorem execPipe_absent {token : Text} {cmd : PipeCmd} (hcmd : cmd.stamps s token = false)
    (h : (c.redis.membership s).stamps.hget token = none) :
    ((execPipe c cmd).redis.membership s).stamps.hget token = none := by
  cases cmd with
  | hset _ tokens =>
    simp only [execPipe, Keyspace.membership_setMembership]
    split
    next heq =>
      subst heq
      have hout : token ∉ tokens := by simpa [PipeCmd.stamps] using hcmd
      rw [Hash.hget_hsetAll, if_neg hout]
      exact h
    next => exact h
  | index =>
    simp only [execPipe, membership_indexAll]
    exact h
  | sub | apps => exact h

/-- A tick's commands carry the tokens of the sockets its snapshot lists. -/
theorem tickCmds_stamps {nodeId : Text} {tracked : Finset Subject} {members bindings : LocalGroups}
    {expireAt : Nat} {cmd : PipeCmd}
    (hcmd : cmd ∈ tickCmds nodeId tracked members bindings expireAt)
    (hstamps : cmd.stamps s (memberToken nodeId sid) = true) :
    (∃ g ∈ members, s = .channel g.1 ∧ sid ∈ g.2) ∨
      ∃ g ∈ bindings, s = .user g.1 ∧ sid ∈ g.2 := by
  simp only [tickCmds, List.mem_append, List.mem_map, List.mem_singleton] at hcmd
  rcases hcmd with (((⟨_, _, rfl⟩ | ⟨g, hg, rfl⟩) | ⟨g, hg, rfl⟩) | ⟨_, _, rfl⟩) | rfl
  · exact absurd hstamps (by simp [PipeCmd.stamps])
  · left
    obtain ⟨rfl, sid', hsid', heq⟩ : s = .channel g.1 ∧ ∃ sid' ∈ g.2,
        memberToken nodeId sid' = memberToken nodeId sid := by
      simpa [PipeCmd.stamps] using hstamps
    exact ⟨g, hg, rfl, memberToken_inj heq ▸ hsid'⟩
  · right
    obtain ⟨rfl, sid', hsid', heq⟩ : s = .user g.1 ∧ ∃ sid' ∈ g.2,
        memberToken nodeId sid' = memberToken nodeId sid := by
      simpa [PipeCmd.stamps] using hstamps
    exact ⟨g, hg, rfl, memberToken_inj heq ▸ hsid'⟩
  · exact absurd hstamps (by simp [PipeCmd.stamps])
  · exact absurd hstamps (by simp [PipeCmd.stamps])

/-! ## A removal is final -/

section Final

variable {cfg : Config Info} {n : NodeSys Info} {s : Subject} {sid : Text}

omit [BEq Info] in
theorem Gone.localHalf (h : Gone cfg n s sid) (worker : Nat) {r : Core Info × ClusterCmd Info}
    (hredis : r.1.redis = n.redis) (hlocal : r.1.isLocal sid s = false)
    (hcmd : r.2.joins s sid = false) : Gone cfg (n.localHalf worker r) s sid := by
  unfold NodeSys.localHalf
  split
  next hfree =>
    obtain ⟨hqueue, hhand, hrun⟩ := h.still
    refine ⟨?_, hlocal, ⟨hqueue, ?_, hrun⟩, h.unpiped⟩
    · dsimp only
      rw [hredis]
      exact h.absent
    · intro w hw
      rw [Hash.hget_hset]
      split
      next => simp [hcmd]
      next hne =>
        refine hhand w ?_
        rw [Hash.hkeys_hset] at hw
        exact Finset.mem_of_mem_insert_of_ne hw hne
  next => exact h

theorem Gone.bridge (h : Gone cfg n s sid) (expireAt : Nat) :
    Gone cfg (nodeStep cfg n (.bridge expireAt)) s sid := by
  obtain ⟨hqueue, hhand, hrun⟩ := h.still
  simp only [nodeStep]
  split
  next op rest heq =>
    have hop : op.joins s sid = false := hrun op (by rw [heq]; exact List.mem_cons_self)
    refine ⟨execOp_absent cfg expireAt n.toCore hop h.absent,
      execOp_isLocal cfg expireAt n.toCore op h.unlocal, ⟨hqueue, hhand, ?_⟩, h.unpiped⟩
    intro op' hop'
    rcases List.mem_append.mp hop' with hnext | hrest
    · exact execOp_next_joins cfg expireAt n.toCore hop op' hnext
    · exact hrun op' (by rw [heq]; exact List.mem_cons_of_mem op hrest)
  next =>
    split
    next cmd queue heq =>
      have hcmd : cmd.joins s sid = false := hqueue cmd (by rw [heq]; exact List.mem_cons_self)
      refine ⟨h.absent, h.unlocal, ⟨?_, hhand, ?_⟩, h.unpiped⟩
      · exact fun cmd' hcmd' => hqueue cmd' (by rw [heq]; exact List.mem_cons_of_mem cmd hcmd')
      · rw [← program_joins, List.any_eq_false] at hcmd
        exact fun op hop => by simpa using hcmd op hop
    next => exact h

theorem Gone.tick (h : Gone cfg n s sid) (members bindings : LocalGroups) (expireAt : Nat) :
    Gone cfg (nodeStep cfg n (.tick members bindings expireAt)) s sid := by
  simp only [nodeStep]
  split
  next hok =>
    refine ⟨h.absent, h.unlocal, h.still, ?_⟩
    intro cmd hcmd
    by_contra hstamps
    have hlocal := h.unlocal
    rcases tickCmds_stamps hcmd (by simpa using hstamps) with
      ⟨g, hg, rfl, hsid⟩ | ⟨g, hg, rfl, hsid⟩
    · simp [Core.isLocal, Registry.has_of_lists hok.2.1 hg hsid] at hlocal
    · simp [Core.isLocal, UserRegistry.has_of_lists hok.2.2.1 hg hsid] at hlocal
  next => exact h

theorem Gone.subscribe (h : Gone cfg n s sid) (worker : Nat) {key : Key} {sid' : Text}
    {member : Option (PresenceMember Info)}
    (ha : (NodeAct.subscribe worker key sid' member).joins s sid = false) :
    Gone cfg (nodeStep cfg n (.subscribe worker key sid' member)) s sid := by
  refine h.localHalf worker rfl ?_ (by cases member <;> exact ha)
  cases s with
  | channel key' =>
    have hne : ¬ (key' = key ∧ sid = sid') := by
      rintro ⟨rfl, rfl⟩
      simp [NodeAct.joins] at ha
    simp only [Core.subscribe, Core.isLocal, Registry.has_subscribe, if_neg hne]
    exact h.unlocal
  | user => exact h.unlocal

theorem Gone.unsubscribe (h : Gone cfg n s sid) (worker : Nat) (key : Key) (sid' : Text) :
    Gone cfg (nodeStep cfg n (.unsubscribe worker key sid')) s sid := by
  refine h.localHalf worker rfl ?_ (by simp only [Core.unsubscribe]; split <;> rfl)
  cases s with
  | channel =>
    simp only [Core.unsubscribe, Core.isLocal, Registry.has_unsubscribe]
    split
    · rfl
    · exact h.unlocal
  | user => exact h.unlocal

theorem Gone.signin (h : Gone cfg n s sid) (worker : Nat) {key : Key} {sid' : Text}
    (ha : (NodeAct.signin worker key sid' : NodeAct Info).joins s sid = false) :
    Gone cfg (nodeStep cfg n (.signin worker key sid')) s sid := by
  refine h.localHalf worker rfl ?_ ha
  cases s with
  | channel => exact h.unlocal
  | user key' =>
    have hne : ¬ (key' = key ∧ sid = sid') := by
      rintro ⟨rfl, rfl⟩
      simp [NodeAct.joins] at ha
    simp only [Core.signin, Core.isLocal, UserRegistry.has_signin, if_neg hne]
    exact h.unlocal

theorem Gone.signout (h : Gone cfg n s sid) (worker : Nat) (key : Key) (sid' : Text) :
    Gone cfg (nodeStep cfg n (.signout worker key sid')) s sid := by
  refine h.localHalf worker rfl ?_ rfl
  cases s with
  | channel => exact h.unlocal
  | user =>
    simp only [Core.signout, Core.isLocal, UserRegistry.has_signout]
    split
    · rfl
    · exact h.unlocal

theorem Gone.send (h : Gone cfg n s sid) (worker : Nat) :
    Gone cfg (nodeStep cfg n (.send worker)) s sid := by
  obtain ⟨hqueue, hhand, hrun⟩ := h.still
  simp only [nodeStep]
  split
  next cmd hcmd =>
    have hout := hhand worker (Hash.mem_hkeys_of_hget hcmd)
    rw [hcmd] at hout
    refine ⟨h.absent, h.unlocal, ⟨?_, ?_, hrun⟩, h.unpiped⟩
    · intro cmd' hmem
      rcases List.mem_append.mp hmem with hmem | hmem
      · exact hqueue cmd' hmem
      · rw [List.mem_singleton.mp hmem]
        simpa using hout
    · intro w hw
      rw [Hash.hkeys_hdel, Finset.mem_erase] at hw
      rw [Hash.hget_hdel_ne _ hw.1]
      exact hhand w hw.2
  next => exact h

theorem Gone.drop (h : Gone cfg n s sid) (worker : Nat) :
    Gone cfg (nodeStep cfg n (.drop worker)) s sid := by
  obtain ⟨hqueue, hhand, hrun⟩ := h.still
  refine ⟨h.absent, h.unlocal, ⟨hqueue, ?_, hrun⟩, h.unpiped⟩
  intro w hw
  simp only [nodeStep] at hw ⊢
  rw [Hash.hkeys_hdel, Finset.mem_erase] at hw
  rw [Hash.hget_hdel_ne _ hw.1]
  exact hhand w hw.2

theorem Gone.write (h : Gone cfg n s sid) : Gone cfg (nodeStep cfg n .write) s sid := by
  simp only [nodeStep]
  split
  next cmd pipe heq =>
    have hcmd := h.unpiped cmd (by rw [heq]; exact List.mem_cons_self)
    refine ⟨execPipe_absent n.toCore hcmd h.absent, ?_, h.still, ?_⟩
    · cases cmd <;> exact h.unlocal
    · exact fun cmd' hmem => h.unpiped cmd' (by rw [heq]; exact List.mem_cons_of_mem cmd hmem)
  next => exact h

/-- Other nodes bring in none of this node's tokens. -/
theorem Gone.foreign (h : Gone cfg n s sid) (subject : Subject) (m : Membership) :
    Gone cfg (nodeStep cfg n (.foreign subject m)) s sid := by
  simp only [nodeStep]
  split
  next hbrings =>
    refine ⟨?_, h.unlocal, h.still, h.unpiped⟩
    rw [Keyspace.membership_setMembership]
    split
    next heq =>
      -- a foreign write that brought the token in would have found it there
      subst heq
      by_contra hget
      have hold := hbrings _ (Hash.mem_hkeys.mpr hget) ⟨sid, by simp [memberToken]⟩
      exact Hash.mem_hkeys.mp hold h.absent
    next => exact h.absent
  next => exact h

/-- A member that is gone stays gone until a join names it. -/
theorem gone_step (h : Gone cfg n s sid) (a : NodeAct Info) (ha : a.joins s sid = false) :
    Gone cfg (nodeStep cfg n a) s sid := by
  cases a with
  | subscribe worker => exact h.subscribe worker ha

  | unsubscribe worker key sid' => exact h.unsubscribe worker key sid'

  | signin worker => exact h.signin worker ha

  | signout worker key sid' => exact h.signout worker key sid'

  | send worker => exact h.send worker

  | drop worker => exact h.drop worker

  | bridge expireAt => exact h.bridge expireAt
  | tick members bindings expireAt => exact h.tick members bindings expireAt
  | write => exact h.write

  | abort => exact ⟨h.absent, h.unlocal, h.still, fun _ hmem => absurd hmem (by simp [nodeStep])⟩
  | foreign subject m => exact h.foreign subject m

  | foreignPresence =>
    refine ⟨?_, h.unlocal, h.still, h.unpiped⟩
    simp only [nodeStep, Keyspace.membership_setPresence]
    exact h.absent

/-- The script that takes the token out, when no reconcile write of it is
pending, leaves it gone. -/
theorem gone_of_leaves (cfg : Config Info) (expireAt : Nat) {op : BridgeOp Info}
    {rest : List (BridgeOp Info)}
    (hrun : n.running = op :: rest) (hleaves : op.leaves s sid = true)
    (hlocal : n.isLocal sid s = false) (hstill : n.Still s sid)
    (hpipe : ∀ cmd ∈ n.pipe, cmd.stamps s (memberToken cfg.nodeId sid) = false) :
    Gone cfg (nodeStep cfg n (.bridge expireAt)) s sid := by
  obtain ⟨hqueue, hhand, hops⟩ := hstill
  have hop : op.joins s sid = false := hops op (by rw [hrun]; exact List.mem_cons_self)
  simp only [nodeStep, hrun]
  refine ⟨execOp_leaves cfg expireAt n.toCore hleaves,
    execOp_isLocal cfg expireAt n.toCore op hlocal, ⟨hqueue, hhand, ?_⟩, hpipe⟩
  intro op' hop'
  rcases List.mem_append.mp hop' with hnext | hrest
  · exact execOp_next_joins cfg expireAt n.toCore hop op' hnext
  · exact hops op' (by rw [hrun]; exact List.mem_cons_of_mem op hrest)

/-- Writing a prefix of the pending commands. -/
theorem pipe_writes (cfg : Config Info) (pre post : List PipeCmd) (m : NodeSys Info)
    (hpipe : m.pipe = pre ++ post) :
    (run (nodeStep cfg) m (List.replicate pre.length .write)).pipe = post := by
  induction pre generalizing m with
  | nil => exact hpipe
  | cons _ _ ih =>
    refine ih _ ?_
    simp only [nodeStep, hpipe, List.cons_append]

omit [BEq Info] in
theorem execPipe_stamps (c : Core Info) {token : Text} {cmd : PipeCmd}
    (hcmd : cmd.stamps s token = true) :
    ((execPipe c cmd).redis.membership s).stamps.hget token ≠ none := by
  cases cmd with
  | hset s' tokens =>
    obtain ⟨rfl, hin⟩ : s = s' ∧ token ∈ tokens := by simpa [PipeCmd.stamps] using hcmd
    simp [execPipe, Hash.hget_hsetAll, hin]
  | _ => exact absurd hcmd (by simp [PipeCmd.stamps])

end Final

/-- Let the bridge be about to run the script that takes a socket's token out
of a channel's or user's hash, the socket being out of the registry and no
join of it on its way. The token stays out, whatever follows short of a new
join of the socket, exactly when no command of a reconcile tick that is still
to be written carries it. -/
theorem removal_final_iff (cfg : Config Info) (n : NodeSys Info) (s : Subject) (sid : Text)
    (hnext : n.running.head?.any (·.leaves s sid) = true) (hlocal : n.isLocal sid s = false)
    (hstill : n.Still s sid) :
    (∀ expireAt as, (∀ a ∈ as, a.joins s sid = false) →
        ((run (nodeStep cfg) (nodeStep cfg n (.bridge expireAt)) as).redis.membership s).stamps.hget
          (memberToken cfg.nodeId sid) = none) ↔
      ∀ cmd ∈ n.pipe, cmd.stamps s (memberToken cfg.nodeId sid) = false := by
  obtain ⟨op, rest, hrun, hleaves⟩ : ∃ op rest, n.running = op :: rest ∧
      op.leaves s sid = true := by
    cases hrun : n.running with
    | nil => simp [hrun] at hnext
    | cons op rest => exact ⟨op, rest, rfl, by simpa [hrun] using hnext⟩
  constructor
  · -- a pending command that carries the token brings it back when it is written
    intro hfinal cmd hcmd
    by_contra hstamps
    obtain ⟨pre, post, hpipe⟩ := List.append_of_mem hcmd
    have hpipe' : (nodeStep cfg n (.bridge 0)).pipe = pre ++ cmd :: post := by
      simp only [nodeStep, hrun, hpipe]
    have hwrites : ∀ a ∈ (List.replicate pre.length .write ++ [.write] : List (NodeAct Info)),
        a.joins s sid = false := by
      intro a ha
      obtain rfl : a = .write := by
        rcases List.mem_append.mp ha with ha | ha
        · exact List.eq_of_mem_replicate ha
        · exact List.mem_singleton.mp ha
      rfl
    have hback := hfinal 0 _ hwrites
    have hreach := pipe_writes cfg pre (cmd :: post) _ hpipe'
    rw [run_append] at hback
    generalize run (nodeStep cfg) (nodeStep cfg n (.bridge 0))
      (List.replicate pre.length .write) = m
      at hback hreach
    simp only [run_cons, run_nil, nodeStep, hreach] at hback
    exact execPipe_stamps m.toCore (by simpa using hstamps) hback
  · intro hpipe expireAt as has
    have hgone := gone_of_leaves cfg expireAt hrun hleaves hlocal hstill hpipe
    have hall := @Along.of_mem _ _ (nodeStep cfg) _ as has (nodeStep cfg n (.bridge expireAt))
    exact (hall.invariant (fun m a (hm : Gone cfg m s sid) ha => gone_step hm a ha) hgone).absent

/-- A node with one connection in one channel, whose removal is about to run. -/
def leavingNode (acts : List (NodeAct Bool)) : NodeSys Bool :=
  run (nodeStep ⟨['n'], 100, fun b => if b then ['t'] else ['f']⟩) .empty
    ([.subscribe 0 ("app", "chan") ['s'] none, .send 0, .bridge 1, .bridge 1, .bridge 1,
        .bridge 1] ++
      acts ++
      [.unsubscribe 0 ("app", "chan") ['s'], .send 0, .bridge 2, .bridge 2, .bridge 2])

/-- No tick under way: the removal is final. -/
theorem removal_final_iff_no_tick :
    (∀ expireAt as, (∀ a ∈ as, a.joins (.channel ("app", "chan")) ['s'] = false) →
        ((run (nodeStep ⟨['n'], 100, fun b : Bool => if b then ['t'] else ['f']⟩)
          (nodeStep ⟨['n'], 100, fun b : Bool => if b then ['t'] else ['f']⟩ (leavingNode [])
            (.bridge expireAt)) as).redis.membership (.channel ("app", "chan"))).stamps.hget
          (memberToken ['n'] ['s']) = none) ↔
      ∀ cmd ∈ (leavingNode []).pipe,
        cmd.stamps (.channel ("app", "chan")) (memberToken ['n'] ['s']) = false :=
  removal_final_iff ⟨['n'], 100, fun b : Bool => if b then ['t'] else ['f']⟩ (leavingNode [])
    (.channel ("app", "chan")) ['s'] (by decide) (by decide) (by decide)

/-- A tick snapshots the connection, the connection leaves, its `UNSUBSCRIBE`
runs, then the tick's `HSET` is written: the token of a closed connection is
back in the channel's hash. -/
theorem removal_undone_by_tick :
    (leavingNode [.tick [(("app", "chan"), [['s']])] [] 60]).running.head?.any
        (·.leaves (.channel ("app", "chan")) ['s']) = true ∧
      (leavingNode [.tick [(("app", "chan"), [['s']])] [] 60]).isLocal ['s']
        (.channel ("app", "chan")) = false ∧
      (leavingNode [.tick [(("app", "chan"), [['s']])] [] 60]).Still
        (.channel ("app", "chan")) ['s'] ∧
      ((run (nodeStep ⟨['n'], 100, fun b : Bool => if b then ['t'] else ['f']⟩)
        (leavingNode [.tick [(("app", "chan"), [['s']])] [] 60])
        [.bridge 3, .write]).redis.membership (.channel ("app", "chan"))).stamps.hget
          (memberToken ['n'] ['s']) = some (some 60) := by
  decide

end Pylon.Cluster
