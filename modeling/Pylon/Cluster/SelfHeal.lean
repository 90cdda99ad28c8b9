import Pylon.Cluster.Reconcile

/-!
# What a reconcile tick restores

Redis may lose what a node wrote: the keyspace is wiped, or a sweeper takes a
live node for dead and reaps its members. The reconcile loop writes the node's
memberships again on every tick, from the registries.

* **`Restored`** asks for every row of a live connection: the tokens in `occ`
  and `usr`, the entries in `chans`, `users` and `apps`, and the presence rows;
* a tick restores all but the presence rows, which no command of it writes.
-/

namespace Pylon.Cluster

open Pylon.Lib Pylon.Redis Pylon.Channel

variable {Info : Type} [BEq Info]

/-- One iteration of `membership_reconcile_loop`; empty registries are skipped. -/
def Core.reconcile (cfg : Config Info) (c : Core Info) (members bindings : LocalGroups)
    (expireAt : Nat) : Core Info :=
  if members = [] ∧ bindings = [] then c
  else run execPipe c (tickCmds cfg.nodeId c.tracked members bindings expireAt)

/-- The rows of a live membership: its token, its subject's index entry and its
app's. -/
def Keyspace.Records (ks : Keyspace) (s : Subject) (app : String) (token : Text) : Prop :=
  (ks.membership s).stamps.hget token ≠ none ∧ (ks.membership s).indexed = true ∧ app ∈ ks.apps

/-- The rows of a live presence connection. -/
def Keyspace.Seats (ks : Keyspace) (key : Key) (userId : String) (token : Text) : Prop :=
  (ks.channels key).pres.presmembers.hget token = some userId ∧
    (ks.channels key).pres.presusers.hget userId ≠ none ∧
    (ks.channels key).pres.presinfo.hget userId ≠ none

/-- Every live subscription and binding of the node is recorded. -/
def Recorded (cfg : Config Info) (c : Core Info) : Prop :=
  (∀ key sid, c.registry.has key sid = true →
    c.redis.Records (.channel key) key.1 (memberToken cfg.nodeId sid)) ∧
  ∀ key sid, c.users.has key sid = true →
    c.redis.Records (.user key) key.1 (memberToken cfg.nodeId sid)

/-- Every live presence connection of the node has its rows. -/
def Seated (cfg : Config Info) (c : Core Info) : Prop :=
  ∀ key sid member, c.registry.subscriber key sid = some (some member) →
    c.redis.Seats key member.userId (memberToken cfg.nodeId sid)

/-- The cluster tables contain all of the node. -/
def Restored (cfg : Config Info) (c : Core Info) : Prop :=
  Recorded cfg c ∧ Seated cfg c

/-! ## The tick is a run of the node -/

variable {bindings members : LocalGroups} (cfg : Config Info) (c : Core Info)

/-! ## What the commands leave alone -/

omit [BEq Info] in
theorem execPipe_registry (cmd : PipeCmd) :
    (execPipe c cmd).registry = c.registry ∧ (execPipe c cmd).users = c.users := by
  cases cmd <;> exact ⟨rfl, rfl⟩

theorem pres_indexAll (ks : Keyspace) (ss : List Subject) (key : Key) :
    ((ks.indexAll ss).channels key).pres = (ks.channels key).pres := by
  induction ss generalizing ks with
  | nil => rfl
  | cons _ ss ih =>
    show ((Keyspace.indexAll _ ss).channels key).pres = _
    rw [ih, Keyspace.pres_setMembership]

omit [BEq Info] in
theorem execPipe_pres (cmd : PipeCmd) (key : Key) :
    ((execPipe c cmd).redis.channels key).pres = (c.redis.channels key).pres := by
  cases cmd with
  | sub | apps => rfl
  | hset => exact Keyspace.pres_setMembership _ _ _ _
  | index => exact pres_indexAll _ _ _

omit [BEq Info] in
theorem run_execPipe_frame (cmds : List PipeCmd) :
    (run execPipe c cmds).registry = c.registry ∧ (run execPipe c cmds).users = c.users ∧
      ∀ key, ((run execPipe c cmds).redis.channels key).pres = (c.redis.channels key).pres := by
  induction cmds generalizing c with
  | nil => exact ⟨rfl, rfl, fun _ => rfl⟩
  | cons cmd _ ih =>
    obtain ⟨hreg, husers, hpres⟩ := ih (execPipe c cmd)
    obtain ⟨hreg', husers'⟩ := execPipe_registry c cmd
    refine ⟨hreg.trans hreg', husers.trans husers', fun key => ?_⟩
    exact (hpres key).trans (execPipe_pres c cmd key)

/-! ## What the commands write -/

theorem indexed_indexAll (ks : Keyspace) (ss : List Subject) (s : Subject) :
    ((ks.indexAll ss).membership s).indexed = true ↔
      s ∈ ss ∨ (ks.membership s).indexed = true := by
  induction ss generalizing ks with
  | nil => simp [Keyspace.indexAll]
  | cons s' ss ih =>
    show ((Keyspace.indexAll _ ss).membership s).indexed = true ↔ _
    rw [ih, Keyspace.membership_setMembership, List.mem_cons]
    by_cases heq : s = s'
    · simp [heq]
    · simp [heq]

omit [BEq Info] in
/-- A command takes out no token, no index entry and no app. -/
theorem execPipe_keeps (cmd : PipeCmd) (s : Subject) (token : Text) (app : String) :
    ((c.redis.membership s).stamps.hget token ≠ none →
      ((execPipe c cmd).redis.membership s).stamps.hget token ≠ none) ∧
    ((c.redis.membership s).indexed = true →
      ((execPipe c cmd).redis.membership s).indexed = true) ∧
    (app ∈ c.redis.apps → app ∈ (execPipe c cmd).redis.apps) := by
  cases cmd with
  | sub => exact ⟨id, id, id⟩
  | hset s' =>
    simp only [execPipe, Keyspace.membership_setMembership]
    refine ⟨?_, ?_, ?_⟩
    · intro hget
      split
      next heq =>
        subst heq
        rw [Hash.hget_hsetAll]
        split
        · exact Option.some_ne_none _
        · exact hget
      next => exact hget
    · intro hidx
      split
      next heq =>
        subst heq
        exact hidx
      next => exact hidx
    · intro happ
      cases s' <;> exact happ
  | index ss =>
    refine ⟨?_, ?_, ?_⟩
    · intro hget
      simp only [execPipe, membership_indexAll]
      exact hget
    · intro hidx
      exact (indexed_indexAll _ _ _).mpr (Or.inr hidx)
    · intro happ
      have hkeep : ∀ (ks : Keyspace) (ss : List Subject), (ks.indexAll ss).apps = ks.apps := by
        intro ks ss
        induction ss generalizing ks with
        | nil => rfl
        | cons s' ss ih =>
          show (Keyspace.indexAll _ ss).apps = _
          rw [ih]
          cases s' <;> rfl
      show app ∈ (c.redis.indexAll ss).apps
      rw [hkeep]
      exact happ
  | apps => exact ⟨id, id, fun happ => Finset.mem_union_left _ happ⟩

omit [BEq Info] in
/-- A run that stamps the token, indexes the subject and adds the app records
the membership. -/
theorem run_records {cmds : List PipeCmd} {s : Subject} {app : String} {token : Text}
    {tokens : List Text} {expireAt : Nat} {ss : List Subject} {apps : List String}
    (hstamp : PipeCmd.hset s tokens expireAt ∈ cmds) (htoken : token ∈ tokens)
    (hindex : PipeCmd.index ss ∈ cmds) (hs : s ∈ ss) (hadd : PipeCmd.apps apps ∈ cmds)
    (happ : app ∈ apps) : (run execPipe c cmds).redis.Records s app token := by
  refine ⟨?_, ?_, ?_⟩
  · apply run_establishes
      (P := fun c : Core Info => (c.redis.membership s).stamps.hget token ≠ none) hstamp
    · intro c
      simp only [execPipe, Keyspace.membership_setMembership, if_true]
      rw [Hash.hget_hsetAll, if_pos htoken]
      exact Option.some_ne_none _
    · intro c cmd
      exact (execPipe_keeps c cmd s token app).1
  · apply run_establishes (P := fun c : Core Info => (c.redis.membership s).indexed = true) hindex
    · intro c
      exact (indexed_indexAll _ _ _).mpr (Or.inl hs)
    · intro c cmd
      exact (execPipe_keeps c cmd s token app).2.1
  · apply run_establishes (P := fun c : Core Info => app ∈ c.redis.apps) hadd
    · intro c
      exact Finset.mem_union_right _ (List.mem_toFinset.mpr happ)
    · intro c cmd
      exact (execPipe_keeps c cmd s token app).2.2

theorem mem_groupByApp {subject : Key → Subject} {groups : LocalGroups} {g : Key × List Text}
    (hg : g ∈ groups) : ∃ ss ∈ groupByApp subject groups, subject g.1 ∈ ss := by
  refine ⟨_, List.mem_map.mpr ⟨g.1.1, List.mem_dedup.mpr ?_, rfl⟩, ?_⟩
  · exact List.mem_map.mpr ⟨g, hg, rfl⟩
  · exact List.mem_map.mpr ⟨g, List.mem_filter.mpr ⟨hg, decide_eq_true rfl⟩, rfl⟩

section

omit [BEq Info]

/-- A tick records every local member and every binding it walked. -/
theorem tick_records {expireAt : Nat} {g : Key × List Text} {sid : Text} (hsid : sid ∈ g.2) :
    let cmds := tickCmds cfg.nodeId c.tracked members bindings expireAt
    (g ∈ members → (run execPipe c cmds).redis.Records (.channel g.1) g.1.1
      (memberToken cfg.nodeId sid)) ∧
    (g ∈ bindings → (run execPipe c cmds).redis.Records (.user g.1) g.1.1
      (memberToken cfg.nodeId sid)) := by
  intro cmds
  have htoken : memberToken cfg.nodeId sid ∈ g.2.map (memberToken cfg.nodeId) :=
    List.mem_map_of_mem hsid
  have hadd : PipeCmd.apps (((members ++ bindings).map fun g => g.1.1).dedup) ∈ cmds := by
    simp [cmds, tickCmds]
  refine ⟨?_, ?_⟩
  · intro hg
    obtain ⟨ss, hss, hs⟩ := @mem_groupByApp .channel members g hg
    have hstamp : PipeCmd.hset (.channel g.1)
        (g.2.map (memberToken cfg.nodeId)) expireAt ∈ cmds := by
      simp only [cmds, tickCmds, List.mem_append, List.mem_map]
      exact .inl (.inl (.inl (.inr ⟨g, hg, rfl⟩)))
    have hindex : PipeCmd.index ss ∈ cmds := by
      simp only [cmds, tickCmds, List.mem_append, List.mem_map]
      exact .inl (.inr ⟨ss, .inl hss, rfl⟩)
    refine run_records c hstamp htoken hindex hs hadd (List.mem_dedup.mpr ?_)
    exact List.mem_map.mpr ⟨g, List.mem_append_left _ hg, rfl⟩
  · intro hg
    obtain ⟨ss, hss, hs⟩ := @mem_groupByApp .user bindings g hg
    have hstamp : PipeCmd.hset (.user g.1) (g.2.map (memberToken cfg.nodeId)) expireAt ∈ cmds := by
      simp only [cmds, tickCmds, List.mem_append, List.mem_map]
      exact .inl (.inl (.inr ⟨g, hg, rfl⟩))
    have hindex : PipeCmd.index ss ∈ cmds := by
      simp only [cmds, tickCmds, List.mem_append, List.mem_map]
      exact .inl (.inr ⟨ss, .inr hss, rfl⟩)
    refine run_records c hstamp htoken hindex hs hadd (List.mem_dedup.mpr ?_)
    exact List.mem_map.mpr ⟨g, List.mem_append_right _ hg, rfl⟩

/-! ## The tick -/

/-- From any state of Redis, a tick records every subscription and binding. -/
theorem reconcile_records (hmembers : c.registry.Lists members) (hbindings : c.users.Lists bindings)
    (expireAt : Nat) : Recorded cfg (c.reconcile cfg members bindings expireAt) := by
  unfold Core.reconcile
  split
  next hnone =>
    -- nothing is listed, so nothing is live
    obtain ⟨rfl, rfl⟩ := hnone
    refine ⟨?_, ?_⟩
    · intro key sid hhas
      obtain ⟨g, hg, -⟩ := Registry.lists_of_has hmembers hhas
      exact absurd hg List.not_mem_nil
    · intro key sid hhas
      obtain ⟨g, hg, -⟩ := UserRegistry.lists_of_has hbindings hhas
      exact absurd hg List.not_mem_nil
  next =>
    obtain ⟨hreg, husers, -⟩ :=
      run_execPipe_frame c (tickCmds cfg.nodeId c.tracked members bindings expireAt)
    refine ⟨?_, ?_⟩
    · intro key sid hhas
      rw [hreg] at hhas
      obtain ⟨g, hg, rfl, hsid⟩ := Registry.lists_of_has hmembers hhas
      exact (tick_records cfg c hsid).1 hg
    · intro key sid hhas
      rw [husers] at hhas
      obtain ⟨g, hg, rfl, hsid⟩ := UserRegistry.lists_of_has hbindings hhas
      exact (tick_records cfg c hsid).2 hg

/-- A tick leaves the presence rows as it finds them. -/
theorem reconcile_seated_iff (members bindings : LocalGroups) (expireAt : Nat) :
    Seated cfg (c.reconcile cfg members bindings expireAt) ↔ Seated cfg c := by
  unfold Core.reconcile
  split
  · exact Iff.rfl
  · obtain ⟨hreg, -, hpres⟩ :=
      run_execPipe_frame c (tickCmds cfg.nodeId c.tracked members bindings expireAt)
    simp only [Seated, Keyspace.Seats, hreg, hpres]

/-- After a tick the cluster tables contain all of the node exactly when the
presence rows of its connections had survived. -/
theorem reconcile_restores_iff (cfg : Config Info) (c : Core Info) {members bindings : LocalGroups}
    (hmembers : c.registry.Lists members) (hbindings : c.users.Lists bindings) (expireAt : Nat) :
    Restored cfg (c.reconcile cfg members bindings expireAt) ↔ Seated cfg c := by
  have hrecorded := reconcile_records cfg c hmembers hbindings expireAt
  have hseated := reconcile_seated_iff cfg c members bindings expireAt
  exact ⟨fun h => hseated.mp h.2, fun h => ⟨hrecorded, hseated.mpr h⟩⟩

end

/-- The occupancy hash is gone, the presence rows are there: the tick restores all. -/
theorem reconcile_restores_occupancy :
    let cfg : Config Nat := ⟨['n'], 100, fun _ => ['i']⟩
    let key : Key := ("app", "presence-room")
    let c : Core Nat :=
      { (Core.empty : Core Nat) with
        registry := (Registry.empty.subscribe key ['s'] (some ⟨"u", 7⟩)).1
        redis := Keyspace.empty.setPresence key
          (presenceJoin .empty "u" ['i'] (memberToken ['n'] ['s']) 100).1 }
    Restored cfg (c.reconcile cfg [(key, [['s']])] [] 60) := by
  intro cfg key c
  refine (reconcile_restores_iff cfg c (by decide) (by decide) 60).mpr ?_
  intro key' sid member hsub
  have hin := @Registry.subscriber_subscribe Text Nat _ _ .empty key key' ['s'] sid (some ⟨"u", 7⟩)
  have hsub' := hin.symm.trans hsub
  split at hsub'
  next heq =>
    obtain ⟨rfl, rfl⟩ := heq
    cases hsub'
    unfold Keyspace.Seats
    decide
  next =>
    rw [Registry.subscriber_empty] at hsub'
    cases hsub'

/-- A presence connection joins, a sweeper takes its node for dead and reaps it, the
node's next tick runs: the connection is in `occ` again, not in `presmembers`. -/
theorem reconcile_leaves_presence_reaped :
    let cfg : Config Nat := ⟨['n'], 100, fun _ => ['i']⟩
    let key : Key := ("app", "presence-room")
    let n : NodeSys Nat := run (nodeStep cfg) .empty
      [.subscribe 0 key ['s'] (some ⟨"u", 7⟩), .send 0, .bridge 10, .bridge 10, .bridge 10,
        .bridge 10, .bridge 10, .bridge 10, .foreignPresence key .empty,
        .foreign (.channel key) .empty, .tick [(key, [['s']])] [] 60, .write, .write, .write,
        .write]
    n.pipe = [] ∧ n.redis.Records (.channel key) key.1 (memberToken cfg.nodeId ['s']) ∧
      ¬ Restored cfg n.toCore := by
  intro cfg key n
  refine ⟨by decide, by unfold Keyspace.Records; decide, ?_⟩
  rintro ⟨-, hseated⟩
  have hrow := (hseated key ['s'] ⟨"u", 7⟩ (by decide)).1
  exact absurd hrow (by decide)

end Pylon.Cluster
