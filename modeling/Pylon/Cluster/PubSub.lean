import Pylon.Cluster.Reconcile

/-!
# The node's pub/sub subscriptions

A node is subscribed in Redis to the subjects it has local members of. The
edges are taken on the workers (`node_first`, `node_last`) and spent later by
the bridge, and two workers' commands may reach the bridge in another order
than their local halves ran.

A `node_first` command makes the bridge `SUBSCRIBE`; a `node_last` command makes
it look at the registry once more (`checkLast`) and `UNSUBSCRIBE` only if there is
nobody. So a subject with a local member is heard, and one without falls silent,
once the bridge is through (`Heard`, `Hushed`).
-/

namespace Pylon.Cluster

open Pylon.Lib Pylon.Redis Pylon.Channel

variable {Info : Type} [BEq Info]

/-! ## Edges -/

/-- What a command makes the bridge do about a subscription. -/
inductive Touch
  | listen
  | check
  deriving DecidableEq

/-- The edge a command carries for a subject. -/
def ClusterCmd.touch (s : Subject) : ClusterCmd Info → Option Touch
  | .subscribe key _ nodeFirst | .presenceSubscribe key _ _ nodeFirst =>
    if nodeFirst = true ∧ s = .channel key then some .listen else none
  | .unsubscribe key _ nodeLast | .presenceLeave key _ _ nodeLast =>
    if nodeLast = true ∧ s = .channel key then some .check else none
  | .signin key _ nodeFirst => if nodeFirst = true ∧ s = .user key then some .listen else none
  | .signout key _ nodeLast => if nodeLast = true ∧ s = .user key then some .check else none

section

omit [BEq Info]

theorem mem_program (s : Subject) (cmd : ClusterCmd Info) :
    (.subChannel s ∈ program cmd ↔ cmd.touch s = some .listen) ∧
      (.checkLast s ∈ program cmd ↔ cmd.touch s = some .check) := by
  cases cmd with
  | subscribe key sid first | presenceSubscribe key m sid first | signin key sid first =>
    cases first <;> simp [program, ClusterCmd.touch]
  | unsubscribe key sid last | presenceLeave key u sid last | signout key sid last =>
    cases last <;> simp [program, ClusterCmd.touch]

/-- A program starts with its `SUBSCRIBE` and has no second; it decides about
`UNSUBSCRIBE` and about taking a join back only while it runs. -/
theorem program_shape (s : Subject) (key : Key) (sid : Text) (cmd : ClusterCmd Info) :
    .subChannel s ∉ (program cmd).tail ∧ .unsubChannel s ∉ program cmd ∧
      .undoJoin key sid ∉ program cmd := by
  cases cmd with
  | subscribe key sid first | presenceSubscribe key m sid first | signin key sid first =>
    cases first <;> simp [program]
  | unsubscribe key sid last | presenceLeave key u sid last | signout key sid last =>
    cases last <;> simp [program]

/-! ## Local halves -/

theorem Core.anyLocal_iff (c : Core Info) (s : Subject) :
    c.anyLocal s = true ↔ ∃ sid, c.isLocal sid s = true := by
  cases s with
  | channel key =>
    have hcount := Registry.count_eq_zero c.registry key
    have hany : c.anyLocal (.channel key) = (c.registry.count key != 0) := rfl
    rw [hany, bne_iff_ne, Ne, hcount]
    simp [Core.isLocal]
  | user =>
    simp [Core.anyLocal, Core.isLocal, UserRegistry.has, Finset.card_eq_zero,
      Finset.eq_empty_iff_forall_notMem]

end

variable {n : NodeSys Info} {r : Core Info × ClusterCmd Info} {s s₀ : Subject} {op : BridgeOp Info}
  {cmd : ClusterCmd Info} {home : Text → Nat} {cfg : Config Info} {sid₀ : Text} {worker : Nat}
  {c : Core Info}

section

omit [BEq Info]

theorem Core.anyLocal_of_isLocal {sid : Text} (h : c.isLocal sid s = true) : c.anyLocal s = true :=
  (c.anyLocal_iff s).mpr ⟨sid, h⟩

/-- What the local half `r` of an operation of socket `sid₀` on subject `s₀`
does, whichever operation it is. -/
structure Performs (c : Core Info) (r : Core Info × ClusterCmd Info) (s₀ : Subject) (sid₀ : Text) :
    Prop where
  tracked : r.1.tracked = c.tracked
  locals : ∀ sid s, ¬ (s = s₀ ∧ sid = sid₀) → r.1.isLocal sid s = c.isLocal sid s
  raises : c.anyLocal s₀ = false → r.1.anyLocal s₀ = true → r.2.touch s₀ = some .listen
  lowers : c.anyLocal s₀ = true → r.1.anyLocal s₀ = false → r.2.touch s₀ = some .check
  touches : ∀ s, s ≠ s₀ → r.2.touch s = none
  joined : r.2.touch s₀ = some .listen → r.1.isLocal sid₀ s₀ = true

/-- A local half that brings the socket in, and listens when it is the first. -/
theorem Performs.of_join (first : Prop) [Decidable first] (htracked : r.1.tracked = c.tracked)
    (hlocal : ∀ sid s, r.1.isLocal sid s = if s = s₀ ∧ sid = sid₀ then true else c.isLocal sid s)
    (htouch : ∀ s, r.2.touch s = if first ∧ s = s₀ then some .listen else none)
    (hfirst : c.anyLocal s₀ = false → first) : Performs c r s₀ sid₀ := by
  have hin : r.1.isLocal sid₀ s₀ = true := by rw [hlocal, if_pos ⟨rfl, rfl⟩]
  refine ⟨htracked, ?_, ?_, ?_, ?_, fun _ => hin⟩
  · intro sid s hne
    rw [hlocal, if_neg hne]
  · intro hbefore _
    rw [htouch, if_pos ⟨hfirst hbefore, rfl⟩]
  · intro _ hafter
    rw [Core.anyLocal_of_isLocal hin] at hafter
    cases hafter
  · intro s hne
    rw [htouch]
    exact if_neg fun h => hne h.2

/-- A local half that takes the socket out, and checks when it was the last. -/
theorem Performs.of_leave (last : Prop) [Decidable last] (htracked : r.1.tracked = c.tracked)
    (hlocal : ∀ sid s, r.1.isLocal sid s = if s = s₀ ∧ sid = sid₀ then false else c.isLocal sid s)
    (htouch : ∀ s, r.2.touch s = if last ∧ s = s₀ then some .check else none)
    (hlast : c.anyLocal s₀ = true → r.1.anyLocal s₀ = false → last) : Performs c r s₀ sid₀ := by
  refine ⟨htracked, ?_, ?_, ?_, ?_, ?_⟩
  · intro sid s hne
    rw [hlocal, if_neg hne]
  · intro hbefore hafter
    -- a leave brings nobody in
    obtain ⟨sid, hin⟩ := (Core.anyLocal_iff _ _).mp hafter
    rw [hlocal] at hin
    split at hin
    · cases hin
    · rw [Core.anyLocal_of_isLocal hin] at hbefore
      cases hbefore
  · intro hbefore hafter
    rw [htouch, if_pos ⟨hlast hbefore hafter, rfl⟩]
  · intro s hne
    rw [htouch]
    exact if_neg fun h => hne h.2
  · intro hlisten
    rw [htouch] at hlisten
    split at hlisten <;> cases hlisten

end

theorem subscribe_performs (c : Core Info) (key : Key) (sid : Text)
    (member : Option (PresenceMember Info)) :
    Performs c (c.subscribe key sid member) (.channel key) sid := by
  have hreg : (c.subscribe key sid member).1.registry =
      (c.registry.subscribe key sid member).1 := rfl
  refine Performs.of_join ((c.registry.subscribe key sid member).1.count key = 1) rfl ?_ ?_ ?_
  · intro sid' s
    cases s with
    | channel => simp [Core.isLocal, hreg, Registry.has_subscribe]
    | user => rfl
  · intro s
    rw [← Registry.count_subscribe]
    cases member <;> simp [Core.subscribe, ClusterCmd.touch]
  · intro hbefore
    have hnone : c.registry.count key = 0 := by simpa [Core.anyLocal, Registry.count] using hbefore
    exact Registry.count_subscribe_first hnone sid member

theorem unsubscribe_performs (c : Core Info) (key : Key) (sid : Text) :
    Performs c (c.unsubscribe key sid) (.channel key) sid := by
  have hreg : (c.unsubscribe key sid).1.registry = (c.registry.unsubscribe key sid).1 := rfl
  refine Performs.of_leave ((c.registry.unsubscribe key sid).1.count key = 0) rfl ?_ ?_ ?_
  · intro sid' s
    cases s with
    | channel => simp [Core.isLocal, hreg, Registry.has_unsubscribe]
    | user => rfl
  · intro s
    rw [← Registry.count_unsubscribe]
    simp only [Core.unsubscribe]
    cases (c.registry.unsubscribe key sid).2.presence <;> simp [ClusterCmd.touch]
  · intro _ hafter
    simpa [Core.anyLocal, Registry.count, hreg] using hafter

section

omit [BEq Info]

theorem signin_performs (c : Core Info) (key : Key) (sid : Text) :
    Performs c (c.signin key sid) (.user key) sid := by
  have hreg : (c.signin key sid).1.users = (c.users.signin key sid).1 := rfl
  refine Performs.of_join (((c.users.users.hget key).getD ∅).card = 0) rfl ?_ ?_ ?_
  · intro sid' s
    cases s with
    | channel => rfl
    | user => simp [Core.isLocal, hreg, UserRegistry.has_signin]
  · intro s
    simp [Core.signin, UserRegistry.signin, ClusterCmd.touch]
  · intro hbefore
    simpa [Core.anyLocal] using hbefore

theorem signout_performs (c : Core Info) (key : Key) (sid : Text) :
    Performs c (c.signout key sid) (.user key) sid := by
  have hreg : (c.signout key sid).1.users = (c.users.signout key sid).1 := rfl
  refine Performs.of_leave ((c.users.signout key sid).2 = true) rfl ?_ ?_ ?_
  · intro sid' s
    cases s with
    | channel => rfl
    | user => simp [Core.isLocal, hreg, UserRegistry.has_signout]
  · intro s
    simp [Core.signout, ClusterCmd.touch]
  · intro hbefore hafter
    -- the socket signed out was the user's last, so the reply says so
    cases hget : c.users.users.hget key with
    | none => simp [Core.anyLocal, hget] at hbefore
    | some entry =>
      by_cases hleft : (entry.erase sid).card = 0
      · simp [UserRegistry.signout, hget, hleft]
      · simp [Core.anyLocal, hreg, UserRegistry.signout, hget, hleft] at hafter

theorem Performs.anyLocal (h : Performs c r s₀ sid₀) (hne : s ≠ s₀) :
    r.1.anyLocal s = c.anyLocal s := by
  rw [Bool.eq_iff_iff, Core.anyLocal_iff, Core.anyLocal_iff]
  constructor
  · rintro ⟨sid, hin⟩
    exact ⟨sid, by rwa [h.locals sid s fun heq => hne heq.1] at hin⟩
  · rintro ⟨sid, hin⟩
    exact ⟨sid, by rwa [h.locals sid s fun heq => hne heq.1]⟩

end

/-! ## Bridge operations -/

/-- No operation but taking a join back changes who is local. -/
theorem execOp_locals (cfg : Config Info) (expireAt : Nat) (c : Core Info)
    (hop : ∀ key sid, op ≠ .undoJoin key sid) (sid : Text) (s : Subject) :
    (execOp cfg expireAt c op).1.isLocal sid s = c.isLocal sid s := by
  cases op with
  | undoJoin key sid' => exact absurd rfl (hop key sid')
  | _ => cases s <;> rfl

/-- Nobody becomes local by an operation of the bridge. -/
theorem execOp_anyLocal (cfg : Config Info) (expireAt : Nat) (c : Core Info) (op : BridgeOp Info)
    (h : (execOp cfg expireAt c op).1.anyLocal s = true) : c.anyLocal s = true := by
  obtain ⟨sid, hin⟩ := (Core.anyLocal_iff _ _).mp h
  refine (c.anyLocal_iff s).mpr ⟨sid, ?_⟩
  by_contra hout
  rw [Bool.not_eq_true] at hout
  rw [execOp_isLocal cfg expireAt c op hout] at hin
  cases hin

/-- What an operation makes the bridge await next: never a `SUBSCRIBE` or a second
look, and an `UNSUBSCRIBE` only of a subject nobody is in. -/
theorem execOp_next (cfg : Config Info) (expireAt : Nat) (c : Core Info) (op : BridgeOp Info)
    (s : Subject) :
    .subChannel s ∉ (execOp cfg expireAt c op).2 ∧
      (.unsubChannel s ∈ (execOp cfg expireAt c op).2 →
        (execOp cfg expireAt c op).1.anyLocal s = false) := by
  cases op with
  | checkLast s' =>
    simp only [execOp]
    split
    · simp
    next hnone =>
      refine ⟨by simp, ?_⟩
      intro hmem
      obtain rfl : s = s' := by simpa using hmem
      exact Bool.eq_false_of_not_eq_true hnone
  | presenceJoin =>
    simp only [execOp]
    split <;> simp
  | undoJoin key sid =>
    simp only [execOp]
    split
    next hcount =>
      refine ⟨by simp, ?_⟩
      intro hmem
      obtain rfl : s = .channel key := by simpa using hmem
      have hzero : (c.registry.unsubscribe key sid).1.count key = 0 := by
        rw [← Registry.count_unsubscribe]
        simpa using hcount
      show ((c.registry.unsubscribe key sid).1.count key != 0) = false
      rw [hzero]
      rfl
    next => simp
  | _ => simp [execOp]

/-- Only `SUBSCRIBE` and `UNSUBSCRIBE` change the subscriptions. -/
theorem mem_tracked_execOp (cfg : Config Info) (expireAt : Nat) (c : Core Info)
    (op : BridgeOp Info) (s : Subject) :
    s ∈ (execOp cfg expireAt c op).1.tracked ↔
      op = .subChannel s ∨ (s ∈ c.tracked ∧ op ≠ .unsubChannel s) := by
  cases op with
  | subChannel =>
    simp only [execOp, Finset.mem_insert, BridgeOp.subChannel.injEq]
    constructor
    · rintro (rfl | hin)
      · exact .inl rfl
      · exact .inr ⟨hin, by simp⟩
    · rintro (rfl | ⟨hin, -⟩)
      · exact .inl rfl
      · exact .inr hin
  | unsubChannel =>
    simp only [execOp, Finset.mem_erase, Ne, BridgeOp.unsubChannel.injEq]
    constructor
    · rintro ⟨hne, hin⟩
      exact .inr ⟨hin, fun heq => hne heq.symm⟩
    · rintro (heq | ⟨hin, hne⟩)
      · cases heq
      · exact ⟨fun heq => hne heq.symm, hin⟩
  | _ => simp [execOp]

/-! ## The up edge -/

/-- The reconcile loop is off, no command is dropped, and a socket's operations
are its own worker's. -/
def Lockstep (home : Text → Nat) : NodeAct Info → Prop
  | .subscribe worker _ sid _ | .unsubscribe worker _ sid | .signin worker _ sid
  | .signout worker _ sid => worker = home sid
  | .drop _ | .tick _ _ _ | .write | .abort => False
  | .send _ | .bridge _ | .foreign _ _ | .foreignPresence _ _ => True

instance (home : Text → Nat) : ∀ a : NodeAct Info, Decidable (Lockstep home a)
  | .subscribe worker _ sid _ | .unsubscribe worker _ sid | .signin worker _ sid
  | .signout worker _ sid => inferInstanceAs (Decidable (worker = home sid))
  | .drop _ | .tick _ _ _ | .write | .abort => isFalse not_false
  | .send _ | .bridge _ | .foreign _ _ | .foreignPresence _ _ => isTrue trivial

/-- A program still with its `SUBSCRIBE` has not begun. -/
def NodeSys.Unbegun (n : NodeSys Info) : Prop :=
  ∀ s, .subChannel s ∈ n.running → ∃ cmd, n.running = program cmd

/-- A `SUBSCRIBE` of the subject is to come. -/
def NodeSys.Listening (n : NodeSys Info) (s : Subject) : Prop :=
  (∃ worker cmd, n.inHand.hget worker = some cmd ∧ cmd.touch s = some .listen) ∨
    (∃ cmd ∈ n.queue, cmd.touch s = some .listen) ∨ .subChannel s ∈ n.running

/-- A subject with a local member is subscribed for good, or will be. -/
def NodeSys.Heard (n : NodeSys Info) (s : Subject) : Prop :=
  n.anyLocal s = true → n.Listening s ∨ (s ∈ n.tracked ∧ .unsubChannel s ∉ n.running)

section

omit [BEq Info]

/-- A local half leaves the commands on their way where they are. -/
theorem NodeSys.Listening.localHalf (h : n.Listening s) (r : Core Info × ClusterCmd Info)
    (hfree : n.inHand.hget worker = none) :
    NodeSys.Listening { n with toCore := r.1, inHand := n.inHand.hset worker r.2 } s := by
  rcases h with ⟨w, cmd, hhand, htouch⟩ | hqueue | hrun
  · have hne : w ≠ worker := by
      rintro rfl
      rw [hfree] at hhand
      cases hhand
    exact .inl ⟨w, cmd, (Hash.hget_hset_ne _ _ hne).trans hhand, htouch⟩
  · exact .inr (.inl hqueue)
  · exact .inr (.inr hrun)

theorem NodeSys.Heard.localHalf (h : n.Heard s) (worker : Nat) (hr : Performs n.toCore r s₀ sid₀) :
    (n.localHalf worker r).Heard s := by
  unfold NodeSys.localHalf
  split
  next hfree =>
    intro hafter
    have hafter : r.1.anyLocal s = true := hafter
    cases hbefore : n.anyLocal s with
    | true =>
      rcases h hbefore with hlisten | ⟨htracked, hrun⟩
      · exact .inl (NodeSys.Listening.localHalf hlisten r hfree)
      · exact .inr ⟨hr.tracked ▸ htracked, hrun⟩
    | false =>
      -- the subject was raised by this very half, which carries the edge
      obtain rfl : s = s₀ := by
        by_contra hne
        rw [hr.anyLocal hne, hbefore] at hafter
        cases hafter
      exact .inl (.inl ⟨worker, r.2, Hash.hget_hset_self _ _ _, hr.raises hbefore hafter⟩)
  next => exact h

theorem NodeSys.Heard.send (h : n.Heard s) (hhand : n.inHand.hget worker = some cmd) :
    NodeSys.Heard { n with inHand := n.inHand.hdel worker, queue := n.queue ++ [cmd] } s := by
  intro hlocal
  rcases h hlocal with (⟨w, cmd', hget, htouch⟩ | ⟨cmd', hmem, htouch⟩ | hrun) | htracked
  · by_cases heq : w = worker
    · subst heq
      obtain rfl : cmd = cmd' := by simpa [hhand] using hget
      exact .inl (.inr (.inl ⟨cmd, List.mem_append_right _ (List.mem_singleton_self _), htouch⟩))
    · exact .inl (.inl ⟨w, cmd', (Hash.hget_hdel_ne _ heq).trans hget, htouch⟩)
  · exact .inl (.inr (.inl ⟨cmd', List.mem_append_left _ hmem, htouch⟩))
  · exact .inl (.inr (.inr hrun))
  · exact .inr htracked

theorem NodeSys.Heard.take (h : n.Heard s) (hidle : n.running = []) {queue : List (ClusterCmd Info)}
    (hqueue : n.queue = cmd :: queue) :
    NodeSys.Heard { n with queue := queue, running := program cmd } s := by
  intro hlocal
  rcases h hlocal with (hhand | ⟨cmd', hmem, htouch⟩ | hrun) | ⟨htracked, -⟩
  · exact .inl (.inl hhand)
  · rw [hqueue] at hmem
    rcases List.mem_cons.mp hmem with rfl | hmem
    · exact .inl (.inr (.inr ((mem_program s cmd').1.mpr htouch)))
    · exact .inl (.inr (.inl ⟨cmd', hmem, htouch⟩))
  · rw [hidle] at hrun
    exact absurd hrun List.not_mem_nil
  · exact .inr ⟨htracked, (program_shape s ("", "") [] cmd).2.1⟩

theorem NodeSys.Unbegun.rest (h : n.Unbegun) {rest : List (BridgeOp Info)}
    (hrunning : n.running = op :: rest) (s : Subject) : .subChannel s ∉ rest := by
  intro hmem
  have hin : BridgeOp.subChannel s ∈ n.running := by
    rw [hrunning]
    exact List.mem_cons_of_mem op hmem
  obtain ⟨cmd, hfresh⟩ := h s hin
  have htail : (program cmd).tail = rest := by rw [← hfresh, hrunning, List.tail_cons]
  exact (program_shape s ("", "") [] cmd).1 (htail ▸ hmem)

end

/-- `UNSUBSCRIBE` runs only behind a look that found no local member. -/
theorem NodeSys.Heard.exec (h : n.Heard s) (hunbegun : n.Unbegun) (expireAt : Nat)
    {rest : List (BridgeOp Info)} (hrunning : n.running = op :: rest) :
    NodeSys.Heard { n with
      toCore := (execOp cfg expireAt n.toCore op).1
      running := (execOp cfg expireAt n.toCore op).2 ++ rest } s := by
  intro hlocal
  obtain ⟨-, hunsub⟩ := execOp_next cfg expireAt n.toCore op s
  have hnext : .unsubChannel s ∉ (execOp cfg expireAt n.toCore op).2 := by
    intro hmem
    have hnone := hunsub hmem
    have hlocal : (execOp cfg expireAt n.toCore op).1.anyLocal s = true := hlocal
    rw [hlocal] at hnone
    cases hnone
  rcases h (execOp_anyLocal cfg expireAt n.toCore op hlocal) with
    (hhand | hqueue | hrun) | ⟨htracked, hrun⟩
  · exact .inl (.inl hhand)
  · exact .inl (.inr (.inl hqueue))
  · -- the `SUBSCRIBE` is the operation that runs, and its program has no `UNSUBSCRIBE`
    right
    obtain ⟨cmd, hfresh⟩ := hunbegun s hrun
    rw [hrunning] at hrun
    obtain rfl : .subChannel s = op :=
      (List.mem_cons.mp hrun).resolve_right (NodeSys.Unbegun.rest hunbegun hrunning s)
    refine ⟨(mem_tracked_execOp cfg expireAt n.toCore _ s).mpr (.inl rfl), ?_⟩
    intro hmem
    rcases List.mem_append.mp hmem with hmem | hmem
    · exact hnext hmem
    · apply (program_shape s ("", "") [] cmd).2.1
      rw [← hfresh, hrunning]
      exact List.mem_cons_of_mem _ hmem
  · right
    rw [hrunning] at hrun
    refine ⟨(mem_tracked_execOp cfg expireAt n.toCore op s).mpr (.inr ⟨htracked, ?_⟩), ?_⟩
    · rintro rfl
      exact hrun List.mem_cons_self
    · intro hmem
      rcases List.mem_append.mp hmem with hmem | hmem
      · exact hnext hmem
      · exact hrun (List.mem_cons_of_mem _ hmem)

theorem NodeSys.Unbegun.exec (h : n.Unbegun) (expireAt : Nat) {rest : List (BridgeOp Info)}
    (hrunning : n.running = op :: rest) :
    NodeSys.Unbegun { n with
      toCore := (execOp cfg expireAt n.toCore op).1
      running := (execOp cfg expireAt n.toCore op).2 ++ rest } := by
  intro s hmem
  rcases List.mem_append.mp hmem with hmem | hmem
  · exact absurd hmem (execOp_next cfg expireAt n.toCore op s).1
  · exact absurd hmem (NodeSys.Unbegun.rest h hrunning s)

theorem heard_step (cfg : Config Info) (home : Text → Nat) (n : NodeSys Info) (a : NodeAct Info)
    (h : n.Unbegun ∧ ∀ s, n.Heard s) (ha : Lockstep home a) :
    (nodeStep cfg n a).Unbegun ∧ ∀ s, (nodeStep cfg n a).Heard s := by
  obtain ⟨hunbegun, hheard⟩ := h
  have hhalf : ∀ worker r, (n.localHalf worker r).Unbegun := by
    intro worker r
    unfold NodeSys.localHalf
    split <;> exact hunbegun
  cases a with
  | subscribe worker key sid member =>
    exact ⟨hhalf _ _, fun s => (hheard s).localHalf worker (subscribe_performs _ key sid member)⟩
  | unsubscribe worker key sid =>
    exact ⟨hhalf _ _, fun s => (hheard s).localHalf worker (unsubscribe_performs _ key sid)⟩
  | signin worker key sid =>
    exact ⟨hhalf _ _, fun s => (hheard s).localHalf worker (signin_performs _ key sid)⟩
  | signout worker key sid =>
    exact ⟨hhalf _ _, fun s => (hheard s).localHalf worker (signout_performs _ key sid)⟩
  | send =>
    simp only [nodeStep]
    split
    next cmd hhand => exact ⟨hunbegun, fun s => (hheard s).send hhand⟩
    next => exact ⟨hunbegun, hheard⟩
  | bridge expireAt =>
    simp only [nodeStep]
    split
    next op rest hrunning =>
      exact ⟨hunbegun.exec expireAt hrunning,
        fun s => (hheard s).exec hunbegun expireAt hrunning⟩
    next hidle =>
      split
      next cmd queue hqueue =>
        exact ⟨fun _ _ => ⟨cmd, rfl⟩, fun s => (hheard s).take hidle hqueue⟩
      next => exact ⟨hunbegun, hheard⟩
  | foreign =>
    simp only [nodeStep]
    split <;> exact ⟨hunbegun, hheard⟩
  | foreignPresence => exact ⟨hunbegun, hheard⟩
  | drop | tick | write | abort => exact ha.elim

/-! ## The down edge -/

/-- The cap refuses no presence join the bridge runs. -/
def Unrefused (cfg : Config Info) (n : NodeSys Info) : NodeAct Info → Prop
  | .bridge _ =>
    ∀ key member sid, n.running.head? = some (.presenceJoin key member sid) →
      0 ≤ (presenceJoin (n.redis.channels key).pres member.userId (cfg.encode member.userInfo)
        (memberToken cfg.nodeId sid) cfg.maxPresenceMembers).2
  | _ => True

/-- The edges of a subject in a list of commands, in order. -/
def touches (s : Subject) (cmds : List (ClusterCmd Info)) : List Touch :=
  cmds.filterMap (·.touch s)

/-- An up edge in a worker's hand is of a socket of that worker which is in. -/
def NodeSys.Homed (home : Text → Nat) (n : NodeSys Info) : Prop :=
  ∀ worker cmd s, n.inHand.hget worker = some cmd → cmd.touch s = some .listen →
    ∃ sid, home sid = worker ∧ n.isLocal sid s = true

/-- After what runs now the node will not be subscribed to the subject, unless
somebody comes in. -/
def NodeSys.Settling (n : NodeSys Info) (s : Subject) : Prop :=
  .checkLast s ∈ n.running ∨ .unsubChannel s ∈ n.running ∨
    (.subChannel s ∉ n.running ∧ s ∉ n.tracked)

/-- A subject without a local member is unsubscribed, or a look at the registry
comes after every `SUBSCRIBE` that is still to come. -/
def NodeSys.Hushed (n : NodeSys Info) (s : Subject) : Prop :=
  n.anyLocal s = false →
    (∃ worker cmd, n.inHand.hget worker = some cmd ∧ cmd.touch s = some .check) ∨
      (touches s n.queue).getLast? = some .check ∨ (touches s n.queue = [] ∧ n.Settling s)

/-- What holds along a run without refusals. -/
structure NodeSys.Tuned (home : Text → Nat) (n : NodeSys Info) : Prop where
  unbegun : n.Unbegun
  homed : n.Homed home
  kept : ∀ key sid, .undoJoin key sid ∉ n.running
  hushed : ∀ s, n.Hushed s

section

omit [BEq Info]

/-- Without a local member nobody holds an up edge. -/
theorem NodeSys.Homed.no_listen (h : n.Homed home) (hnone : n.anyLocal s = false)
    (hhand : n.inHand.hget worker = some cmd) : cmd.touch s ≠ some .listen := by
  intro htouch
  obtain ⟨sid, -, hin⟩ := h worker cmd s hhand htouch
  rw [Core.anyLocal_of_isLocal hin] at hnone
  cases hnone

theorem NodeSys.Homed.localHalf (h : n.Homed home) (hr : Performs n.toCore r s₀ sid₀) :
    (n.localHalf (home sid₀) r).Homed home := by
  unfold NodeSys.localHalf
  split
  next hfree =>
    intro worker cmd s hhand htouch
    rw [Hash.hget_hset] at hhand
    split at hhand
    next heq =>
      subst heq
      cases hhand
      obtain rfl : s = s₀ := by
        by_contra hne
        rw [hr.touches s hne] at htouch
        cases htouch
      exact ⟨sid₀, rfl, hr.joined htouch⟩
    next hne =>
      obtain ⟨sid, hhome, hin⟩ := h worker cmd s hhand htouch
      refine ⟨sid, hhome, ?_⟩
      show r.1.isLocal sid s = true
      rw [hr.locals sid s]
      · exact hin
      · rintro ⟨-, rfl⟩
        exact hne hhome.symm
  next => exact h

theorem NodeSys.Hushed.localHalf (h : n.Hushed s) (worker : Nat)
    (hr : Performs n.toCore r s₀ sid₀) :
    (n.localHalf worker r).Hushed s := by
  unfold NodeSys.localHalf
  split
  next hfree =>
    intro hafter
    have hafter : r.1.anyLocal s = false := hafter
    cases hbefore : n.anyLocal s with
    | true =>
      -- the subject was lowered by this very half, which carries the edge
      obtain rfl : s = s₀ := by
        by_contra hne
        rw [hr.anyLocal hne, hbefore] at hafter
        cases hafter
      exact .inl ⟨worker, r.2, Hash.hget_hset_self _ _ _, hr.lowers hbefore hafter⟩
    | false =>
      rcases h hbefore with ⟨w, cmd, hhand, htouch⟩ | hlast | ⟨hnone, hsettling⟩
      · have hne : w ≠ worker := by
          rintro rfl
          rw [hfree] at hhand
          cases hhand
        exact .inl ⟨w, cmd, (Hash.hget_hset_ne _ _ hne).trans hhand, htouch⟩
      · exact .inr (.inl hlast)
      · refine .inr (.inr ⟨hnone, ?_⟩)
        rcases hsettling with hcheck | hunsub | ⟨hsub, htracked⟩
        · exact .inl hcheck
        · exact .inr (.inl hunsub)
        · exact .inr (.inr ⟨hsub, hr.tracked.symm ▸ htracked⟩)
  next => exact h

theorem touches_snoc (s : Subject) (queue : List (ClusterCmd Info)) (cmd : ClusterCmd Info) :
    touches s (queue ++ [cmd]) = touches s queue ++ (cmd.touch s).toList := by
  rw [touches, List.filterMap_append]
  cases htouch : cmd.touch s <;> simp [touches, htouch]

/-- An up edge still in a worker's hand means that somebody is in. -/
theorem NodeSys.Hushed.send (h : n.Hushed s) (hhomed : n.Homed home)
    (hhand : n.inHand.hget worker = some cmd) :
    NodeSys.Hushed { n with inHand := n.inHand.hdel worker, queue := n.queue ++ [cmd] } s := by
  intro hnone
  have hnone : n.anyLocal s = false := hnone
  rcases htouch : cmd.touch s with _ | _ | _
  · -- the command is about something else
    have hsame : touches s (n.queue ++ [cmd]) = touches s n.queue := by
      rw [touches_snoc, htouch]
      exact List.append_nil _
    rcases h hnone with ⟨w, cmd', hget, hcheck⟩ | hlast | ⟨hempty, hsettling⟩
    · have hne : w ≠ worker := by
        rintro rfl
        obtain rfl : cmd = cmd' := by simpa [hhand] using hget
        rw [htouch] at hcheck
        cases hcheck
      exact .inl ⟨w, cmd', (Hash.hget_hdel_ne _ hne).trans hget, hcheck⟩
    · exact .inr (.inl (hsame ▸ hlast))
    · exact .inr (.inr ⟨hsame ▸ hempty, hsettling⟩)
  · exact absurd htouch (hhomed.no_listen hnone hhand)
  · -- the look goes to the end of the queue
    right
    left
    show (touches s (n.queue ++ [cmd])).getLast? = some .check
    rw [touches_snoc, htouch]
    exact List.getLast?_concat

theorem NodeSys.Hushed.take (h : n.Hushed s) (hidle : n.running = [])
    {queue : List (ClusterCmd Info)} (hqueue : n.queue = cmd :: queue) :
    NodeSys.Hushed { n with queue := queue, running := program cmd } s := by
  intro hnone
  have hcons : touches s n.queue = (cmd.touch s).toList ++ touches s queue := by
    rw [hqueue, touches, List.filterMap_cons]
    cases cmd.touch s <;> rfl
  rcases h hnone with hhand | hlast | ⟨hempty, hsettling⟩
  · exact .inl hhand
  · rw [hcons] at hlast
    by_cases hmore : touches s queue = []
    · -- the look is the command taken
      rw [hmore, List.append_nil] at hlast
      have htouch : cmd.touch s = some .check := by
        cases htouch : cmd.touch s with
        | none => simp [htouch] at hlast
        | some => simpa [htouch] using hlast
      exact .inr (.inr ⟨hmore, .inl ((mem_program s cmd).2.mpr htouch)⟩)
    · rw [List.getLast?_append_of_ne_nil _ hmore] at hlast
      exact .inr (.inl hlast)
  · rw [hcons, List.append_eq_nil_iff] at hempty
    obtain ⟨hcmd, hmore⟩ := hempty
    have htouch : cmd.touch s = none := by
      cases htouch : cmd.touch s with
      | none => rfl
      | some => simp [htouch] at hcmd
    refine .inr (.inr ⟨hmore, .inr (.inr ⟨?_, ?_⟩)⟩)
    · show .subChannel s ∉ program cmd
      rw [(mem_program s _).1, htouch]
      exact fun h => by cases h
    · unfold NodeSys.Settling at hsettling
      rw [hidle] at hsettling
      simpa using hsettling

end

theorem NodeSys.Settling.exec (h : n.Settling s) (hunbegun : n.Unbegun)
    (hnone : n.anyLocal s = false) (expireAt : Nat) {rest : List (BridgeOp Info)}
    (hrunning : n.running = op :: rest) :
    NodeSys.Settling { n with
      toCore := (execOp cfg expireAt n.toCore op).1
      running := (execOp cfg expireAt n.toCore op).2 ++ rest } s := by
  have hnosub : .subChannel s ∉ (execOp cfg expireAt n.toCore op).2 ++ rest := by
    intro hmem
    rcases List.mem_append.mp hmem with hmem | hmem
    · exact (execOp_next cfg expireAt n.toCore op s).1 hmem
    · exact NodeSys.Unbegun.rest hunbegun hrunning s hmem
  have htracked := mem_tracked_execOp cfg expireAt n.toCore op s
  unfold NodeSys.Settling at h ⊢
  rw [hrunning] at h
  rcases h with hcheck | hunsub | ⟨hsub, hout⟩
  · rcases List.mem_cons.mp hcheck with rfl | hlater
    · -- the look finds nobody
      refine .inr (.inl (List.mem_append_left _ ?_))
      simp [execOp, hnone]
    · exact .inl (List.mem_append_right _ hlater)
  · rcases List.mem_cons.mp hunsub with rfl | hlater
    · refine .inr (.inr ⟨hnosub, fun hin => ?_⟩)
      rcases htracked.mp hin with heq | ⟨-, hne⟩
      · cases heq
      · exact hne rfl
    · exact .inr (.inl (List.mem_append_right _ hlater))
  · refine .inr (.inr ⟨hnosub, fun hin => ?_⟩)
    rcases htracked.mp hin with heq | ⟨hin, -⟩
    · exact hsub (heq ▸ List.mem_cons_self)
    · exact hout hin

/-- A join within the cap is not taken back. -/
theorem execOp_no_undo {expireAt : Nat} (hok : Unrefused cfg n (.bridge expireAt))
    {rest : List (BridgeOp Info)} (hrunning : n.running = op :: rest) (key : Key) (sid : Text) :
    .undoJoin key sid ∉ (execOp cfg expireAt n.toCore op).2 := by
  cases op with
  | presenceJoin key' member sid' =>
    have hreply := hok key' member sid' (by rw [hrunning]; rfl)
    simp only [execOp, if_neg (not_lt.mpr hreply)]
    simp
  | checkLast | undoJoin =>
    simp only [execOp]
    split <;> simp
  | _ => simp [execOp]

theorem NodeSys.Tuned.exec (h : n.Tuned home) {expireAt : Nat}
    (hok : Unrefused cfg n (.bridge expireAt)) {rest : List (BridgeOp Info)}
    (hrunning : n.running = op :: rest) :
    NodeSys.Tuned home { n with
      toCore := (execOp cfg expireAt n.toCore op).1
      running := (execOp cfg expireAt n.toCore op).2 ++ rest } := by
  have hundo : ∀ key sid, op ≠ .undoJoin key sid := by
    rintro key sid rfl
    apply h.kept key sid
    rw [hrunning]
    exact List.mem_cons_self
  have hlocals := execOp_locals cfg expireAt n.toCore hundo
  refine ⟨h.unbegun.exec expireAt hrunning, ?_, ?_, ?_⟩
  · intro worker cmd s hhand htouch
    obtain ⟨sid, hhome, hin⟩ := h.homed worker cmd s hhand htouch
    exact ⟨sid, hhome, (hlocals sid s).trans hin⟩
  · intro key sid hmem
    rcases List.mem_append.mp hmem with hmem | hmem
    · exact execOp_no_undo hok hrunning key sid hmem
    · apply h.kept key sid
      rw [hrunning]
      exact List.mem_cons_of_mem op hmem
  · intro s hafter
    have hnone : n.anyLocal s = false := by
      by_contra hsome
      rw [Bool.not_eq_false] at hsome
      obtain ⟨sid, hin⟩ := (Core.anyLocal_iff _ _).mp hsome
      have hstill := Core.anyLocal_of_isLocal ((hlocals sid s).trans hin)
      have hafter : (execOp cfg expireAt n.toCore op).1.anyLocal s = false := hafter
      rw [hstill] at hafter
      cases hafter
    rcases h.hushed s hnone with hhand | hlast | ⟨hempty, hsettling⟩
    · exact .inl hhand
    · exact .inr (.inl hlast)
    · exact .inr (.inr ⟨hempty, NodeSys.Settling.exec hsettling h.unbegun hnone expireAt hrunning⟩)

omit [BEq Info] in
theorem NodeSys.Tuned.localHalf (h : n.Tuned home) (hworker : worker = home sid₀)
    (hr : Performs n.toCore r s₀ sid₀) : (n.localHalf worker r).Tuned home := by
  subst hworker
  have hrunning : (n.localHalf (home sid₀) r).running = n.running := by
    unfold NodeSys.localHalf
    split <;> rfl
  refine ⟨?_, h.homed.localHalf hr, ?_, fun s => (h.hushed s).localHalf _ hr⟩
  · unfold NodeSys.Unbegun
    rw [hrunning]
    exact h.unbegun
  · rw [hrunning]
    exact h.kept

theorem tuned_step (cfg : Config Info) (home : Text → Nat) (n : NodeSys Info) (a : NodeAct Info)
    (h : n.Tuned home) (ha : Lockstep home a ∧ Unrefused cfg n a) :
    (nodeStep cfg n a).Tuned home := by
  obtain ⟨hlock, hok⟩ := ha
  cases a with
  | subscribe _ key sid member => exact h.localHalf hlock (subscribe_performs _ key sid member)
  | unsubscribe _ key sid => exact h.localHalf hlock (unsubscribe_performs _ key sid)
  | signin _ key sid => exact h.localHalf hlock (signin_performs _ key sid)
  | signout _ key sid => exact h.localHalf hlock (signout_performs _ key sid)
  | send =>
    simp only [nodeStep]
    split
    next cmd hhand =>
      refine ⟨h.unbegun, ?_, h.kept, fun s => (h.hushed s).send h.homed hhand⟩
      intro w cmd' s hget htouch
      rw [Hash.hget_hdel] at hget
      split at hget
      · cases hget
      · exact h.homed w cmd' s hget htouch
    next => exact h
  | bridge =>
    simp only [nodeStep]
    split
    next op rest hrunning => exact h.exec hok hrunning
    next hidle =>
      split
      next cmd queue hqueue =>
        refine ⟨fun _ _ => ⟨cmd, rfl⟩, h.homed, ?_, fun s => (h.hushed s).take hidle hqueue⟩
        intro key sid
        exact (program_shape (.channel key) key sid cmd).2.2
      next => exact h
  | foreign =>
    simp only [nodeStep]
    split
    · exact ⟨h.unbegun, h.homed, h.kept, h.hushed⟩
    · exact h
  | foreignPresence => exact ⟨h.unbegun, h.homed, h.kept, h.hushed⟩
  | drop | tick | write | abort => exact hlock.elim

/-! ## Subscriptions follow membership -/

/-- Every command is handled. -/
def NodeSys.Handled (n : NodeSys Info) : Prop :=
  n.inHand = ∅ ∧ n.queue = [] ∧ n.running = []

/-- In every run, once all commands are handled the node is subscribed to every
subject it has a local member of; and, where the cap refused no join, to no
other. -/
theorem subscription_follows_membership (cfg : Config Info) (home : Text → Nat)
    (as : List (NodeAct Info)) (has : Along (nodeStep cfg) (fun _ a => Lockstep home a) .empty as)
    (hdone : (run (nodeStep cfg) .empty as).Handled) :
    let n := run (nodeStep cfg) .empty as
    (∀ s, n.anyLocal s = true → s ∈ n.tracked) ∧
      (Along (nodeStep cfg) (Unrefused cfg) .empty as →
        ∀ s, n.anyLocal s = false → s ∉ n.tracked) := by
  intro n
  obtain ⟨hhand, hqueue, hrunning⟩ := hdone
  refine ⟨?_, ?_⟩
  · intro s hlocal
    have hheard : n.Unbegun ∧ ∀ s, n.Heard s := by
      refine has.invariant (heard_step cfg home) ⟨fun _ hmem => absurd hmem List.not_mem_nil, ?_⟩
      intro s hany
      cases s <;> exact absurd hany Bool.false_ne_true
    rcases hheard.2 s hlocal with (⟨w, cmd, hget, -⟩ | ⟨cmd, hmem, -⟩ | hrun) | ⟨htracked, -⟩
    · rw [hhand, Hash.hget_empty] at hget
      cases hget
    · rw [hqueue] at hmem
      exact absurd hmem List.not_mem_nil
    · rw [hrunning] at hrun
      exact absurd hrun List.not_mem_nil
    · exact htracked
  · intro hok s hnone
    have hboth : Along (nodeStep cfg) (fun n a => Lockstep home a ∧ Unrefused cfg n a) .empty as :=
      has.and hok
    have htuned : n.Tuned home := by
      refine hboth.invariant (tuned_step cfg home) ⟨?_, ?_, ?_, ?_⟩
      · exact fun _ hmem => absurd hmem List.not_mem_nil
      · intro w cmd s hget
        exact absurd hget (by simp [NodeSys.empty])
      · exact fun _ _ => List.not_mem_nil
      · intro s _
        exact .inr (.inr ⟨rfl, .inr (.inr ⟨List.not_mem_nil, Finset.notMem_empty s⟩)⟩)
    rcases htuned.hushed s hnone with ⟨w, cmd, hget, -⟩ | hlast | ⟨-, hsettling⟩
    · rw [hhand, Hash.hget_empty] at hget
      cases hget
    · rw [hqueue] at hlast
      cases hlast
    · unfold NodeSys.Settling at hsettling
      rw [hrunning] at hsettling
      simpa using hsettling

/-- The last leave of one worker and the first join of another, sent in the other
order: the bridge's look finds the new subscriber. -/
theorem subscription_follows_inverted :
    let cfg : Config Nat := ⟨['n'], 100, fun _ => []⟩
    let key : Key := ("app", "room")
    let home : Text → Nat := fun sid => if sid = ['a'] then 0 else 1
    let as : List (NodeAct Nat) :=
      [.subscribe 0 key ['a'] none, .send 0, .bridge 9, .bridge 9, .bridge 9, .bridge 9,
        .unsubscribe 0 key ['a'], .subscribe 1 key ['b'] none, .send 1, .send 0, .bridge 9,
        .bridge 9, .bridge 9, .bridge 9, .bridge 9, .bridge 9, .bridge 9]
    Along (nodeStep cfg) (fun _ a => Lockstep home a) .empty as ∧
      .channel key ∈ (run (nodeStep cfg) .empty as).tracked := by
  intro cfg key home as
  have has : Along (nodeStep cfg) (fun _ a => Lockstep home a) .empty as := by decide
  have hdone : (run (nodeStep cfg) .empty as).Handled :=
    ⟨Hash.hlen_eq_zero.mp (by decide), by decide, by decide⟩
  have hlocal : (run (nodeStep cfg) .empty as).anyLocal (.channel key) = true := by decide
  clear_value as
  obtain ⟨hheard, -⟩ := subscription_follows_membership cfg home as has hdone
  exact ⟨has, hheard (.channel key) hlocal⟩

end Pylon.Cluster
