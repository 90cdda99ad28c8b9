import Pylon.Channel.Registry
import Pylon.Lib.Sharded

/-!
# The channel registry under concurrent calls

`subscribe` is one access under its shard's lock. `unsubscribe` is two: the socket
is taken out of the channel, and where that left the channel empty a second access
removes the entry if it is empty still. In between, the empty entry is visible and
other threads may subscribe to the channel, leave it again, or find it to prune
themselves.

`unsubscribe_eq` says that the two accesses without anything between are the
`unsubscribe` of the sequential model. `registry_edges` is about every
interleaving.
-/

namespace Pylon.Channel

open Pylon.Lib

variable {Sid Info : Type} [DecidableEq Sid] [BEq Info]

namespace Registry

/-- The first access of `Registry::unsubscribe`. -/
def leave (reg : Registry Sid Info) (key : Key) (sid : Sid) :
    Registry Sid Info × UnsubscribeOutcome :=
  match reg.channels.hget key with
  | some state =>
    let r := state.remove sid
    (⟨reg.channels.hset key r.1⟩, ⟨r.1.subscriptionCount, r.2, r.1.isEmpty⟩)
  | none => (reg, ⟨0, none, false⟩)

/-- The second access, made when the first reported the channel vacated. -/
def prune (reg : Registry Sid Info) (key : Key) : Registry Sid Info :=
  ⟨Sharded.removeIf ChannelState.isEmpty reg.channels key⟩

variable (reg : Registry Sid Info) (key : Key) (sid : Sid)

theorem unsubscribe_eq :
    reg.unsubscribe key sid =
      (if (reg.leave key sid).2.vacated then (reg.leave key sid).1.prune key
        else (reg.leave key sid).1, (reg.leave key sid).2) := by
  unfold unsubscribe leave
  cases hget : reg.channels.hget key with
  | none => rfl
  | some =>
    dsimp only
    split
    next hempty => simp [prune, Sharded.removeIf, hempty]
    next => rfl

def sockets (state : ChannelState Sid Info) : Finset Sid := state.subscribers.hkeys

/-- The sockets in a channel. -/
def members (reg : Registry Sid Info) (key : Key) : Finset Sid :=
  Sharded.content sockets reg.channels key

omit [DecidableEq Sid] [BEq Info] in
theorem isEmpty_iff (state : ChannelState Sid Info) :
    state.isEmpty = true ↔ sockets state = ∅ := by
  simp [ChannelState.isEmpty, Hash.hlen, sockets]

theorem sockets_add (channel : String) (sid : Sid) (member : Option (PresenceMember Info))
    (state : ChannelState Sid Info) :
    sockets (state.add channel sid member).1 = insert sid (sockets state) := by
  rw [sockets, add_subscribers, Hash.hkeys_hset, Hash.hkeys_hdel]
  ext sid'
  by_cases hsid : sid' = sid <;> simp [hsid, sockets]

theorem sockets_remove (state : ChannelState Sid Info) :
    sockets (state.remove sid).1 = (sockets state).erase sid := by
  rw [sockets, remove_subscribers, Hash.hkeys_hdel]
  rfl

/-! ## What each access does -/

theorem leave_channels :
    (reg.leave key sid).1.channels =
      Sharded.adjust (fun state => (state.remove sid).1) reg.channels key := by
  unfold leave Sharded.adjust
  cases reg.channels.hget key <;> rfl

theorem subscribe_channels (member : Option (PresenceMember Info)) :
    (reg.subscribe key sid member).1.channels =
      Sharded.upsert .empty (fun state => (state.add key.2 sid member).1) reg.channels key :=
  rfl

theorem members_subscribe (key' : Key) (sid : Sid) (member : Option (PresenceMember Info)) :
    (reg.subscribe key sid member).1.members key' =
      if key' = key then insert sid (reg.members key) else reg.members key' := by
  rw [members, subscribe_channels]
  exact Sharded.content_upsert sockets rfl (sockets_add key.2 sid member) _ key key'

theorem members_leave (key' : Key) (sid : Sid) :
    (reg.leave key sid).1.members key' =
      if key' = key then (reg.members key).erase sid else reg.members key' := by
  rw [members, leave_channels]
  exact Sharded.content_adjust (sockets_remove sid) _ key key'

omit [DecidableEq Sid] [BEq Info] in
theorem members_prune (key' : Key) : (reg.prune key).members key' = reg.members key' :=
  Sharded.content_removeIf (fun state => (isEmpty_iff state).mp) _ key key'

omit [DecidableEq Sid] [BEq Info] in
theorem count_eq_card : reg.count key = (reg.members key).card := by
  unfold count members Sharded.content
  cases reg.channels.hget key <;> rfl

/-- A subscribe reports the channel occupied exactly when nobody was in it. -/
theorem subscribe_occupied (member : Option (PresenceMember Info)) :
    (reg.subscribe key sid member).2.occupied = true ↔ reg.members key = ∅ := by
  have hbefore : (((reg.channels.hget key).getD .empty).subscriptionCount == 0) = true ↔
      reg.members key = ∅ := by
    rw [beq_iff_eq, ← Finset.card_eq_zero, ← count_eq_card, count]
    cases reg.channels.hget key <;> simp [ChannelState.empty, ChannelState.subscriptionCount]
  have hafter : (reg.subscribe key sid member).2.subscriptionCount =
      (insert sid (reg.members key)).card := by
    rw [count_subscribe, count_eq_card, members_subscribe, if_pos rfl]
  show (_ && (reg.subscribe key sid member).2.subscriptionCount == 1) = true ↔ _
  rw [Bool.and_eq_true, hbefore, hafter]
  refine and_iff_left_of_imp fun hnone => ?_
  simp [hnone]

/-- A leave that finds an entry reports what is in it afterwards. -/
theorem leave_outcome {reg : Registry Sid Info} {key : Key}
    (hentry : (reg.channels.hget key).isSome = true) (sid : Sid) :
    (reg.leave key sid).2.subscriptionCount = ((reg.members key).erase sid).card ∧
      ((reg.leave key sid).2.vacated = true ↔ (reg.members key).erase sid = ∅) := by
  obtain ⟨state, hget⟩ := Option.isSome_iff_exists.mp hentry
  have hmembers : reg.members key = sockets state := by
    simp [members, Sharded.content, hget]
  have hleave : (reg.leave key sid).2 =
      ⟨(state.remove sid).1.subscriptionCount, (state.remove sid).2,
        (state.remove sid).1.isEmpty⟩ := by
    simp [leave, hget]
  rw [hleave, hmembers]
  dsimp only
  rw [isEmpty_iff, ← sockets_remove]
  exact ⟨rfl, Iff.rfl⟩

omit [DecidableEq Sid] [BEq Info] in
theorem isSome_of_mem_members {reg : Registry Sid Info} {key : Key} {sid : Sid}
    (h : sid ∈ reg.members key) : (reg.channels.hget key).isSome = true :=
  (Sharded.isSome_iff sockets _ _).mpr (.inl (Finset.ne_empty_of_mem h))

end Registry

/-! ## Interleavings -/

/-- The registry, and the keys that unsubscribe calls have still to prune. -/
structure RegistrySys (Sid Info : Type) where
  registry : Registry Sid Info
  pruning : Hash Nat Key

def RegistrySys.empty : RegistrySys Sid Info := ⟨.empty, ∅⟩

/-- One access under a shard lock. -/
inductive RegistryAct (Sid Info : Type)
  | subscribe (key : Key) (sid : Sid) (member : Option (PresenceMember Info))
  | leave (call : Nat) (key : Key) (sid : Sid)
  | prune (call : Nat)

def registryStep (s : RegistrySys Sid Info) : RegistryAct Sid Info → RegistrySys Sid Info
  | .subscribe key sid member => { s with registry := (s.registry.subscribe key sid member).1 }
  | .leave call key sid =>
    { registry := (s.registry.leave key sid).1
      pruning := if (s.registry.leave key sid).2.vacated then s.pruning.hset call key
        else s.pruning }
  | .prune call =>
    match s.pruning.hget call with
    | some key => { registry := s.registry.prune key, pruning := s.pruning.hdel call }
    | none => s

/-- Only members unsubscribe, and a call prunes before its thread makes the next. -/
def Behaved (s : RegistrySys Sid Info) : RegistryAct Sid Info → Prop
  | .leave call key sid => s.pruning.hget call = none ∧ sid ∈ s.registry.members key
  | _ => True

instance (s : RegistrySys Sid Info) : ∀ a, Decidable (Behaved s a)
  | .leave _ _ _ => inferInstanceAs (Decidable (_ ∧ _))
  | .subscribe _ _ _ | .prune _ => isTrue trivial

/-- The edges of a channel: occupied and vacated outcomes. -/
def occupancyEdge (key : Key) (s : RegistrySys Sid Info) : RegistryAct Sid Info → Option Edge
  | .subscribe key' sid member =>
    if key' = key ∧ (s.registry.subscribe key' sid member).2.occupied then some .up else none
  | .leave _ key' sid =>
    if key' = key ∧ (s.registry.leave key' sid).2.vacated then some .down else none
  | .prune _ => none

/-- The subscription count a step reports, with its channel. -/
def reportedCount (s : RegistrySys Sid Info) : RegistryAct Sid Info → Option (Key × Nat)
  | .subscribe key sid member =>
    some (key, (s.registry.subscribe key sid member).2.subscriptionCount)
  | .leave _ key sid => some (key, (s.registry.leave key sid).2.subscriptionCount)
  | .prune _ => none

/-- Who is in which channel, going by the calls alone. -/
def joinedStep (joined : Key → Finset Sid) : RegistryAct Sid Info → Key → Finset Sid
  | .subscribe key sid _ => Function.update joined key (insert sid (joined key))
  | .leave _ key sid => Function.update joined key ((joined key).erase sid)
  | .prune _ => joined

/-- Some call is about to prune the channel. -/
def RegistrySys.Pruning (s : RegistrySys Sid Info) (key : Key) : Prop :=
  ∃ call, s.pruning.hget call = some key

/-- So it is for every empty entry. -/
def RegistrySys.Attended (s : RegistrySys Sid Info) : Prop :=
  Sharded.Attended Registry.sockets s.registry.channels s.Pruning

/-- An entry is left empty only by a call that has still to prune it. -/
theorem attended_step (s : RegistrySys Sid Info) (a : RegistryAct Sid Info) (h : s.Attended)
    (ha : Behaved s a) : (registryStep s a).Attended := by
  cases a with
  | subscribe key sid member =>
    exact h.upsert (Registry.sockets_add key.2 sid member) fun _ _ hcall => hcall
  | leave call _ sid =>
    obtain ⟨hfree, hmember⟩ := ha
    have hvacated := (Registry.leave_outcome (Registry.isSome_of_mem_members hmember) sid).2
    rw [RegistrySys.Attended]
    simp only [registryStep, Registry.leave_channels]
    refine h.adjust ?_ ?_
    · rintro key' ⟨call', hcall'⟩
      refine ⟨call', ?_⟩
      dsimp only
      split
      · rw [Hash.hget_hset_ne]
        · exact hcall'
        · rintro rfl
          rw [hfree] at hcall'
          cases hcall'
      · exact hcall'
    · intro _ hnone
      rw [Sharded.content_adjust (Registry.sockets_remove sid), if_pos rfl] at hnone
      refine ⟨call, ?_⟩
      dsimp only
      rw [if_pos (hvacated.mpr hnone)]
      exact Hash.hget_hset_self _ _ _
  | prune =>
    simp only [registryStep]
    split
    next key hcall =>
      refine h.removeIf Registry.isEmpty_iff ?_
      rintro key' hne ⟨call', hcall'⟩
      refine ⟨call', ?_⟩
      dsimp only
      rw [Hash.hget_hdel_ne]
      · exact hcall'
      · rintro rfl
        rw [hcall] at hcall'
        exact hne (Option.some.inj hcall').symm
    next => exact h

/-- The map's membership follows the calls, whatever entries come and go. -/
theorem members_step (s : RegistrySys Sid Info) (a : RegistryAct Sid Info) :
    (registryStep s a).registry.members = joinedStep s.registry.members a := by
  funext key
  cases a with
  | subscribe key' sid member =>
    rw [joinedStep, Function.update_apply]
    exact Registry.members_subscribe s.registry key' key sid member
  | leave _ key' sid =>
    rw [joinedStep, Function.update_apply]
    exact Registry.members_leave s.registry key' key sid
  | prune =>
    simp only [registryStep, joinedStep]
    split
    · exact Registry.members_prune _ _ _
    · rfl

theorem members_run (s : RegistrySys Sid Info) (as : List (RegistryAct Sid Info)) :
    (run registryStep s as).registry.members = run joinedStep s.registry.members as := by
  induction as generalizing s with
  | nil => rfl
  | cons _ _ ih => rw [run_cons, run_cons, ih, members_step]

theorem reportedCount_eq {s : RegistrySys Sid Info} {a : RegistryAct Sid Info}
    (ha : Behaved s a) : ∀ r ∈ reportedCount s a,
      r.2 = ((registryStep s a).registry.members r.1).card := by
  intro r hr
  cases a with
  | subscribe =>
    obtain rfl := Option.some.inj hr
    rw [Registry.count_subscribe, Registry.count_eq_card]
    rfl
  | leave _ key sid =>
    obtain rfl := Option.some.inj hr
    show (s.registry.leave key sid).2.subscriptionCount =
      ((s.registry.leave key sid).1.members key).card
    rw [Registry.members_leave, if_pos rfl]
    exact (Registry.leave_outcome (Registry.isSome_of_mem_members ha.2) sid).1
  | prune => cases hr

/-- A step reports exactly the changes between empty and occupied. -/
theorem occupancyEdge_awards (key : Key) {s : RegistrySys Sid Info} {a : RegistryAct Sid Info}
    (ha : Behaved s a) :
    Awards (fun s => s.registry.members key ≠ ∅) s (registryStep s a) (occupancyEdge key s a) := by
  have hmembers := congrFun (members_step s a) key
  -- a step on another channel awards nothing and leaves this one as it is
  have hsame : (registryStep s a).registry.members key = s.registry.members key →
      Awards (fun s => s.registry.members key ≠ ∅) s (registryStep s a) none := by
    intro heq
    show _ ≠ _ ↔ _ ≠ _
    rw [heq]
  cases a with
  | subscribe key' sid =>
    rw [joinedStep, Function.update_apply] at hmembers
    simp only [occupancyEdge, Registry.subscribe_occupied]
    by_cases hkey : key' = key
    · subst hkey
      simp only [true_and]
      rw [if_pos rfl] at hmembers
      exact Sharded.awards_insert Iff.rfl (x := sid) (by rw [hmembers])
    · rw [if_neg (fun hboth => hkey hboth.1)]
      rw [if_neg (Ne.symm hkey)] at hmembers
      exact hsame hmembers
  | leave _ key' sid =>
    rw [joinedStep, Function.update_apply] at hmembers
    simp only [occupancyEdge,
      (Registry.leave_outcome (Registry.isSome_of_mem_members ha.2) sid).2]
    by_cases hkey : key' = key
    · subst hkey
      simp only [true_and]
      rw [if_pos rfl] at hmembers
      exact Sharded.awards_erase ha.2 Iff.rfl (by rw [hmembers])
    · rw [if_neg (fun hboth => hkey hboth.1)]
      rw [if_neg (Ne.symm hkey)] at hmembers
      exact hsame hmembers
  | prune => exact hsame hmembers

/-- Over every interleaving in which only members unsubscribe, for every channel:
occupied and vacated outcomes alternate; every count reported is the size of the
membership right after its access; that membership is the one the calls come to,
so no join is lost; and with no call in progress exactly the channels with members
have an entry. -/
theorem registry_edges (as : List (RegistryAct Sid Info))
    (has : Along registryStep Behaved (.empty : RegistrySys Sid Info) as) :
    (∀ key, Alternates (edges registryStep (occupancyEdge key) .empty as)) ∧
    Along registryStep (fun s a => ∀ r ∈ reportedCount s a,
      r.2 = ((registryStep s a).registry.members r.1).card) .empty as ∧
    (run registryStep .empty as).registry.members = run joinedStep (fun _ => ∅) as ∧
    ((run registryStep .empty as).pruning = ∅ → ∀ key,
      ((run registryStep .empty as).registry.channels.hget key).isSome = true ↔
        (run registryStep .empty as).registry.members key ≠ ∅) := by
  have hempty : (.empty : RegistrySys Sid Info).registry.members = fun _ => ∅ := by
    funext key
    exact Sharded.content_empty key
  have hattended : (.empty : RegistrySys Sid Info).Attended := Sharded.Attended.empty
  refine ⟨fun key => ?_, ?_, ?_, ?_⟩
  · have hstep := fun (s : RegistrySys Sid Info) a h ha =>
      And.intro (attended_step s a h ha) (occupancyEdge_awards key ha)
    refine (alternates_edges hstep hattended ?_ has).1
    rw [hempty]
    exact not_not.mpr rfl
  · exact has.of_invariant (fun s a h ha => ⟨attended_step s a h ha, reportedCount_eq ha⟩) hattended
  · rw [members_run, hempty]
  · intro hidle key
    have hrun := has.invariant attended_step hattended
    refine Sharded.isSome_iff_of_not_vacant fun hvacant => ?_
    obtain ⟨call, hcall⟩ := hrun key hvacant
    rw [hidle] at hcall
    exact absurd hcall (by simp)

/-- Between the two accesses of one unsubscribe another socket joins the emptied
channel; it is kept, and prunes when it leaves. -/
theorem registry_edges_rejoin :
    edges registryStep (occupancyEdge ("a", "c")) (.empty : RegistrySys Nat Bool)
        [.subscribe ("a", "c") 1 none, .leave 0 ("a", "c") 1, .subscribe ("a", "c") 2 none,
          .prune 0, .leave 0 ("a", "c") 2, .prune 0] = [.up, .down, .up, .down] ∧
      Alternates (edges registryStep (occupancyEdge ("a", "c")) (.empty : RegistrySys Nat Bool)
        [.subscribe ("a", "c") 1 none, .leave 0 ("a", "c") 1, .subscribe ("a", "c") 2 none,
          .prune 0, .leave 0 ("a", "c") 2, .prune 0]) :=
  ⟨by decide, (registry_edges _ (by decide)).1 ("a", "c")⟩

end Pylon.Channel
