import Pylon.Cluster.SelfHeal

/-!
# The node's watch subscriptions

A node is subscribed in Redis to the `watch` key of every user that one of its
connections watches. As for channels, the edges are taken in the registry by
the workers and spent later by the bridge, in whatever order the commands
reach it. Unlike for channels, the bridge spends a down edge without looking
at the registry again, and a reconcile tick brings no `watch` key back.

So an `UNSUBSCRIBE` must strand no watcher (`Unstranded`).
-/

namespace Pylon.Cluster

open Pylon.Lib Pylon.Redis Pylon.Channel

variable {Info : Type}

/-- The commands that drive the `watch` keys, as far as they do. -/
inductive WatchCmd
  | watch (app : String) (newlyWatched : List String)
  | unwatch (app : String) (noLongerWatched : List String)

/-- One `SUBSCRIBE` or `UNSUBSCRIBE` of a `watch` key. -/
inductive WatchOp
  | sub (key : Key)
  | unsub (key : Key)
  deriving DecidableEq

/-- `cluster_watch`, `cluster_unwatch`. -/
def WatchCmd.program : WatchCmd → List WatchOp
  | .watch app newly => newly.map fun u => .sub (app, u)
  | .unwatch app gone => gone.map fun u => .unsub (app, u)

/-- The node: what a reconcile tick works on, the watch registry, the subscribed
`watch` keys, the commands workers hold, the bridge's queue and current command. -/
structure WatchSys (Info : Type) where
  core : Core Info
  registry : WatchRegistry Text
  subscribed : Finset Key
  inHand : Hash Nat WatchCmd
  queue : List WatchCmd
  running : List WatchOp

def WatchSys.empty : WatchSys Info := ⟨.empty, .empty, ∅, ∅, [], []⟩

/-- The steps of the node. -/
inductive WatchAct
  | watch (worker : Nat) (app : String) (sid : Text) (watched : List String)
  | unwatch (worker : Nat) (app : String) (sid : Text)
  | send (worker : Nat)
  | bridge
  | tick (members bindings : LocalGroups) (expireAt : Nat)

/-- A worker's local half, if it holds no unsent command. -/
def WatchSys.localHalf (s : WatchSys Info) (worker : Nat) (registry : WatchRegistry Text)
    (cmd : WatchCmd) : WatchSys Info :=
  if s.inHand.hget worker = none then
    { s with registry := registry, inHand := s.inHand.hset worker cmd }
  else s

def watchStep (cfg : Config Info) (s : WatchSys Info) : WatchAct → WatchSys Info
  | .watch worker app sid watched =>
    let r := s.registry.watch app sid watched
    s.localHalf worker r.1 (.watch app r.2)
  | .unwatch worker app sid =>
    let r := s.registry.unwatch app sid
    s.localHalf worker r.1 (.unwatch app r.2)
  | .send worker =>
    match s.inHand.hget worker with
    | some cmd => { s with inHand := s.inHand.hdel worker, queue := s.queue ++ [cmd] }
    | none => s
  | .bridge =>
    match s.running with
    | .sub key :: rest => { s with subscribed := insert key s.subscribed, running := rest }
    | .unsub key :: rest => { s with subscribed := s.subscribed.erase key, running := rest }
    | [] =>
      match s.queue with
      | cmd :: queue => { s with queue := queue, running := cmd.program }
      | [] => s
  | .tick members bindings expireAt =>
    -- `resubscribe_missing` knows the `msg` and `usermsg` keys only
    { s with core := s.core.reconcile cfg members bindings expireAt }

/-- A command makes the bridge `SUBSCRIBE` to the key. -/
def WatchCmd.Subscribes (key : Key) (cmd : WatchCmd) : Prop := .sub key ∈ cmd.program

instance (key : Key) (cmd : WatchCmd) : Decidable (cmd.Subscribes key) :=
  inferInstanceAs (Decidable (_ ∈ _))

/-- A `SUBSCRIBE` of the key waits in a worker's hand or in the queue. -/
def WatchSys.Awaits (s : WatchSys Info) (key : Key) : Prop :=
  (∃ worker ∈ s.inHand.hkeys, ∃ cmd ∈ s.inHand.hget worker, cmd.Subscribes key) ∨
    ∃ cmd ∈ s.queue, cmd.Subscribes key

instance (s : WatchSys Info) (key : Key) : Decidable (s.Awaits key) :=
  inferInstanceAs (Decidable ((∃ worker ∈ _, ∃ cmd ∈ s.inHand.hget worker, cmd.Subscribes key) ∨ _))

/-- The operation is an `UNSUBSCRIBE` of a user somebody watches, with no
`SUBSCRIBE` to come. -/
def WatchOp.Strands (s : WatchSys Info) : WatchOp → Prop
  | .sub _ => False
  | .unsub key => s.registry.watchersOf key ≠ ∅ ∧ ¬ s.Awaits key

instance (s : WatchSys Info) : ∀ op : WatchOp, Decidable (op.Strands s)
  | .sub _ => isFalse not_false
  | .unsub key => inferInstanceAs (Decidable (s.registry.watchersOf key ≠ ∅ ∧ ¬ s.Awaits key))

/-- The bridge strands no watcher. -/
def Unstranded (s : WatchSys Info) : WatchAct → Prop
  | .bridge => ∀ op ∈ s.running.head?, ¬ op.Strands s
  | _ => True

instance (s : WatchSys Info) : ∀ a, Decidable (Unstranded s a)
  | .bridge => inferInstanceAs (Decidable (∀ op ∈ s.running.head?, ¬ op.Strands s))
  | .watch .. | .unwatch .. | .send _ | .tick .. => isTrue trivial

/-- A watched user's key is subscribed, or will be. -/
def WatchSys.Noticed (s : WatchSys Info) : Prop :=
  ∀ key, s.registry.watchersOf key ≠ ∅ →
    s.Awaits key ∨ .sub key ∈ s.running ∨ key ∈ s.subscribed

/-! ## Steps -/

variable {s : WatchSys Info}

theorem WatchSys.Awaits.localHalf {key : Key} (h : s.Awaits key) {worker : Nat}
    (hfree : s.inHand.hget worker = none) (registry : WatchRegistry Text) (cmd : WatchCmd) :
    WatchSys.Awaits { s with registry := registry, inHand := s.inHand.hset worker cmd } key := by
  rcases h with ⟨w, hw, cmd', hget, hsub⟩ | hqueue
  · have hne : w ≠ worker := by
      rintro rfl
      rw [hfree] at hget
      cases hget
    refine .inl ⟨w, ?_, cmd', ?_, hsub⟩
    · rw [Hash.hkeys_hset]
      exact Finset.mem_insert_of_mem hw
    · dsimp only
      rw [Hash.hget_hset_ne _ _ hne]
      exact hget
  · exact .inr hqueue

variable {cmd : WatchCmd}

/-- A local half whose command names every user it is the first to watch. -/
theorem WatchSys.Noticed.localHalf (h : s.Noticed) (worker : Nat) {registry : WatchRegistry Text}
    (hcmd : ∀ key, registry.watchersOf key ≠ ∅ → s.registry.watchersOf key ≠ ∅ ∨
      cmd.Subscribes key) :
    (s.localHalf worker registry cmd).Noticed := by
  unfold WatchSys.localHalf
  split
  next hfree =>
    intro key hwatched
    rcases hcmd key hwatched with hbefore | hsub
    · rcases h key hbefore with hawaits | hlater
      · exact .inl (WatchSys.Awaits.localHalf hawaits hfree registry cmd)
      · exact .inr hlater
    · refine .inl (.inl ⟨worker, ?_, cmd, Hash.hget_hset_self _ _ _, hsub⟩)
      rw [Hash.hkeys_hset]
      exact Finset.mem_insert_self _ _
  next => exact h

theorem WatchSys.Noticed.send (h : s.Noticed) {worker : Nat}
    (hhand : s.inHand.hget worker = some cmd) :
    WatchSys.Noticed { s with inHand := s.inHand.hdel worker, queue := s.queue ++ [cmd] } := by
  intro key hwatched
  rcases h key hwatched with (⟨w, hw, cmd', hget, hsub⟩ | ⟨cmd', hmem, hsub⟩) | hlater
  · left
    by_cases heq : w = worker
    · subst heq
      obtain rfl : cmd = cmd' := by simpa [hhand] using hget
      exact .inr ⟨cmd, List.mem_append_right _ (List.mem_singleton_self _), hsub⟩
    · refine .inl ⟨w, ?_, cmd', ?_, hsub⟩
      · rw [Hash.hkeys_hdel]
        exact Finset.mem_erase.mpr ⟨heq, hw⟩
      · dsimp only
        rw [Hash.hget_hdel_ne _ heq]
        exact hget
  · exact .inl (.inr ⟨cmd', List.mem_append_left _ hmem, hsub⟩)
  · exact .inr hlater

theorem WatchSys.Noticed.take (h : s.Noticed) (hidle : s.running = []) {queue : List WatchCmd}
    (hqueue : s.queue = cmd :: queue) :
    WatchSys.Noticed { s with queue := queue, running := cmd.program } := by
  intro key hwatched
  rcases h key hwatched with (hhand | ⟨cmd', hmem, hsub⟩) | hrun | hsubscribed
  · exact .inl (.inl hhand)
  · rw [hqueue] at hmem
    rcases List.mem_cons.mp hmem with rfl | hmem
    · exact .inr (.inl hsub)
    · exact .inl (.inr ⟨cmd', hmem, hsub⟩)
  · rw [hidle] at hrun
    exact absurd hrun List.not_mem_nil
  · exact .inr (.inr hsubscribed)

/-- A watched key is given up only by an operation that strands it. -/
theorem noticed_step (cfg : Config Info) (s : WatchSys Info) (a : WatchAct) (h : s.Noticed)
    (ha : Unstranded s a) : (watchStep cfg s a).Noticed := by
  cases a with
  | watch worker =>
    apply h.localHalf worker
    intro key hwatched
    rcases WatchRegistry.watchersOf_watch hwatched with hbefore | ⟨happ, hin⟩
    · exact .inl hbefore
    · exact .inr (List.mem_map.mpr ⟨key.2, hin, by rw [← happ]⟩)
  | unwatch worker app sid =>
    apply h.localHalf worker
    intro key hwatched
    left
    intro hnone
    apply hwatched
    rw [← Finset.subset_empty, ← hnone]
    exact WatchRegistry.watchersOf_unwatch s.registry app sid key
  | send =>
    simp only [watchStep]
    split
    next cmd hhand => exact h.send hhand
    next => exact h
  | bridge =>
    simp only [watchStep]
    split
    next key' rest hrunning =>
      intro key hwatched
      rcases h key hwatched with hawaits | hrun | hsubscribed
      · exact .inl hawaits
      · rw [hrunning] at hrun
        rcases List.mem_cons.mp hrun with heq | hlater
        · cases heq
          exact .inr (.inr (Finset.mem_insert_self _ _))
        · exact .inr (.inl hlater)
      · exact .inr (.inr (Finset.mem_insert_of_mem hsubscribed))
    next key' rest hrunning =>
      intro key hwatched
      have hkey : ¬ WatchOp.Strands s (.unsub key') := ha (.unsub key') (by rw [hrunning]; rfl)
      rcases h key hwatched with hawaits | hrun | hsubscribed
      · exact .inl hawaits
      · rw [hrunning] at hrun
        rcases List.mem_cons.mp hrun with heq | hlater
        · cases heq
        · exact .inr (.inl hlater)
      · by_cases heq : key = key'
        · -- the key itself: the condition keeps its watchers from being stranded
          subst heq
          left
          by_contra hnone
          exact hkey ⟨hwatched, hnone⟩
        · exact .inr (.inr (Finset.mem_erase.mpr ⟨heq, hsubscribed⟩))
    next hidle =>
      split
      next cmd queue hqueue => exact h.take hidle hqueue
      next => exact h
  | tick => exact h

/-! ## Subscriptions follow watchers -/

/-- Every command is handled. -/
def WatchSys.Handled (s : WatchSys Info) : Prop :=
  s.inHand = ∅ ∧ s.queue = [] ∧ s.running = []

/-- In every run in which no `UNSUBSCRIBE` strands a watcher, once all commands are
handled the node is subscribed to the key of every user watched here. -/
theorem watch_subscription_follows (cfg : Config Info) (as : List WatchAct)
    (has : Along (watchStep cfg) Unstranded .empty as)
    (hdone : (run (watchStep cfg) .empty as).Handled) (key : Key)
    (hwatched : (run (watchStep cfg) .empty as).registry.watchersOf key ≠ ∅) :
    key ∈ (run (watchStep cfg) .empty as).subscribed := by
  obtain ⟨hhand, hqueue, hrunning⟩ := hdone
  have hnoticed : (run (watchStep cfg) .empty as).Noticed := by
    refine has.invariant (noticed_step cfg) ?_
    intro key hsome
    exact absurd rfl hsome
  rcases hnoticed key hwatched with (⟨w, hw, -⟩ | ⟨cmd, hmem, -⟩) | hrun | hsubscribed
  · rw [hhand] at hw
    exact absurd hw (Finset.notMem_empty w)
  · rw [hqueue] at hmem
    exact absurd hmem List.not_mem_nil
  · rw [hrunning] at hrun
    exact absurd hrun List.not_mem_nil
  · exact hsubscribed

/-- One connection stops watching, another starts, and their commands arrive in that
order. -/
theorem watch_subscription_follows_in_order :
    let cfg : Config Nat := ⟨['n'], 100, fun _ => []⟩
    let as : List WatchAct :=
      [.watch 0 "app" ['a'] ["u"], .send 0, .bridge, .bridge, .unwatch 0 "app" ['a'],
        .watch 1 "app" ['b'] ["u"], .send 0, .send 1, .bridge, .bridge, .bridge, .bridge,
        .tick [] [] 9]
    Along (watchStep cfg) Unstranded .empty as ∧
      ("app", "u") ∈ (run (watchStep cfg) .empty as).subscribed := by
  intro cfg as
  have has : Along (watchStep cfg) Unstranded .empty as := by decide
  have hdone : (run (watchStep cfg) .empty as).Handled :=
    ⟨Hash.hlen_eq_zero.mp (by decide), by decide, by decide⟩
  have hwatched : (run (watchStep cfg) .empty as).registry.watchersOf ("app", "u") ≠ ∅ := by
    decide
  clear_value as
  exact ⟨has, watch_subscription_follows cfg as has hdone ("app", "u") hwatched⟩

/-- The same with the two commands the other way round: the late `UNSUBSCRIBE` takes
the subscription from the new watcher, and the tick does not bring it back. -/
theorem watch_subscription_lost :
    let cfg : Config Nat := ⟨['n'], 100, fun _ => []⟩
    let as : List WatchAct :=
      [.watch 0 "app" ['a'] ["u"], .send 0, .bridge, .bridge, .unwatch 0 "app" ['a'],
        .watch 1 "app" ['b'] ["u"], .send 1, .send 0, .bridge, .bridge, .bridge, .bridge,
        .tick [] [] 9]
    (run (watchStep cfg) .empty as).Handled ∧
      ['b'] ∈ (run (watchStep cfg) .empty as).registry.watchersOf ("app", "u") ∧
      ("app", "u") ∉ (run (watchStep cfg) .empty as).subscribed := by
  intro cfg as
  refine ⟨⟨Hash.hlen_eq_zero.mp (by decide), by decide, by decide⟩, by decide, by decide⟩

end Pylon.Cluster
