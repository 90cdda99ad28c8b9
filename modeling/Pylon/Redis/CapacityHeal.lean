import Pylon.Redis.Capacity

/-!
# The capacity self-heal

A node's hash `nodeconns:{node}` can go missing while the node lives: another
node's sweeper reclaimed it, or its TTL lapsed. The heartbeat of the node
looks whether the hash is there (`EXPIRE` answers `0` when it is not) and then
re-seeds it from `conn_counts`, the live sessions of every app.

A tick that finds no hash restores the node's own counts and the totals of the
apps it has sessions of. A tick that finds one restores nothing. What an expired
hash held of an app without sessions left stays in its total: the totals are those
of the keys with the hash put back (`Residue`).
-/

namespace Pylon.Redis

open Pylon.Lib

variable {Node App : Type} [DecidableEq Node] [DecidableEq App]

/-- The shared keys and one node's `conn_counts`. -/
structure HealSys (Node App : Type) where
  keys : CapacityKeys Node App
  connCounts : Hash App Nat

/-- The node's live sessions of an app; no entry counts as zero. -/
def HealSys.live (s : HealSys Node App) (app : App) : Nat := (s.connCounts.hget app).getD 0

/-- Nothing is stored and nothing is connected. -/
def HealSys.empty : HealSys Node App := ⟨.empty, ∅⟩

/-- The app and count pairs `reseed_node_capacity` sends: those above zero. -/
def seedPairs (entries : List (App × Nat)) : List (App × Int) :=
  (entries.filter fun p => decide (0 < p.2)).map fun p => (p.1, (p.2 : Int))

/-- A tick of `node_heartbeat_loop`, where `entries` is the walk of `conn_counts`. -/
def heartbeat (self : Node) (t : CapacityKeys Node App) (entries : List (App × Nat)) :
    CapacityKeys Node App :=
  -- `SET node:{self}`, `SADD nodes`
  let t := { t with alive := insert self t.alive, nodes := insert self t.nodes }
  -- `EXPIRE nodeconns:{self}` answers 1
  if t.node self ≠ ∅ then t
  else if seedPairs entries = [] then t
  else (reseedNodeCapacity t self (seedPairs entries)).1

/-- A session counted or uncounted, a script, a hash's TTL lapsing, a tick. The
local half of an admission or a close and its script are steps of their own. -/
inductive HealAct (Node App : Type)
  | establish (app : App)
  | close (app : App)
  | script (a : CapacityAct Node App)
  | expire (node : Node)
  | tick (entries : List (App × Nat))

/-- One step of the node or of its cluster; a `tick` whose `entries` are not a
walk of `conn_counts` does nothing. -/
def healStep (self : Node) (s : HealSys Node App) : HealAct Node App → HealSys Node App
  | .establish app => { s with connCounts := s.connCounts.hset app (s.live app + 1) }
  | .close app =>
    -- `fetch_sub`, then `remove_if` at zero
    { s with
      connCounts :=
        if s.live app ≤ 1 then s.connCounts.hdel app
        else s.connCounts.hset app (s.live app - 1) }
  | .script a => { s with keys := capacityStep s.keys a }
  | .expire node => { s with keys := { s.keys with nodeconns := s.keys.nodeconns.hdel node } }
  | .tick entries =>
    if s.connCounts.Enumerates entries then { s with keys := heartbeat self s.keys entries } else s

/-- The other nodes that hold units are in the `nodes` set. -/
def OthersListed (self : Node) (t : CapacityKeys Node App) : Prop :=
  ∀ other ∈ t.nodeconns.hkeys, other ≠ self → t.node other ≠ ∅ → other ∈ t.nodes

instance (self : Node) (t : CapacityKeys Node App) : Decidable (OthersListed self t) :=
  inferInstanceAs (Decidable (∀ other ∈ _, other ≠ self → t.node other ≠ ∅ → other ∈ t.nodes))

omit [DecidableEq App] in
theorem seedPairs_pos (entries : List (App × Nat)) : ∀ p ∈ seedPairs entries, 0 < p.2 := by
  intro p hp
  obtain ⟨q, hq, rfl⟩ := List.mem_map.mp hp
  have hpos : 0 < q.2 := of_decide_eq_true (List.mem_filter.mp hq).2
  show (0 : Int) < q.2
  omega

variable {t : CapacityKeys Node App} {entries : List (App × Nat)}

/-- The keys after the two commands every tick begins with. -/
def CapacityKeys.advertised (t : CapacityKeys Node App) (self : Node) : CapacityKeys Node App :=
  { t with alive := insert self t.alive, nodes := insert self t.nodes }

variable {self : Node}

omit [DecidableEq App] in
theorem OthersListed.advertised (h : OthersListed self t) :
    OthersListed self (t.advertised self) := by
  intro other hkey hne hsome
  exact Finset.mem_insert_of_mem (h other hkey hne hsome)

theorem heartbeat_absent (habsent : t.node self = ∅) (entries : List (App × Nat)) :
    heartbeat self t entries =
      if seedPairs entries = [] then t.advertised self
      else (reseedNodeCapacity (t.advertised self) self (seedPairs entries)).1 := by
  have hnode : (t.advertised self).node self = ∅ := habsent
  exact if_neg fun hsome => hsome hnode

theorem Balanced.heartbeat (h : Balanced t) (hlisted : OthersListed self t)
    (entries : List (App × Nat)) : Balanced (heartbeat self t entries) := by
  have hadv : Balanced (t.advertised self) := ⟨h.sum, h.apps, h.nodes⟩
  by_cases habsent : t.node self = ∅
  · rw [heartbeat_absent habsent]
    split
    · exact hadv
    · exact hadv.reseedNodeCapacity ⟨hlisted.advertised, seedPairs_pos entries⟩
  · have hkeep : Redis.heartbeat self t entries = t.advertised self := if_pos habsent
    rw [hkeep]
    exact hadv

/-- Nothing that gives the node a hash again or recomputes a total. -/
def Unrepaired (self : Node) : HealAct Node App → Prop
  | .script (.admitting _ node _) => node ≠ self
  | .script (.reseed ..) | .expire _ | .tick _ => False
  | _ => True

section Restored

variable {node : Node} (hash : Hash App Int)

omit [DecidableEq App] in
theorem CapacityKeys.setNode_comm (hne : node ≠ self) (t : CapacityKeys Node App)
    (h : Hash App Int) :
    (t.setNode self hash).setNode node h = (t.setNode node h).setNode self hash := by
  have hconns : (t.nodeconns.hset self hash).hset node h =
      (t.nodeconns.hset node h).hset self hash := by
    ext1 n
    simp only [Hash.hget_hset]
    split
    next heq =>
      subst heq
      rw [if_neg hne]
    next => rfl
  simp only [CapacityKeys.setNode, hconns]

/-! A script of another node does the same whether the hash is there or not. -/

theorem admitApp_setNode (hne : node ≠ self) (t : CapacityKeys Node App) (app : App)
    (capacity : Nat) :
    (admitApp (t.setNode self hash) app node capacity).1 =
      (admitApp t app node capacity).1.setNode self hash := by
  have hnode := t.node_setNode_ne hash hne
  have hcomm := CapacityKeys.setNode_comm hash hne t ((t.node node).hincrby app 1).1
  have happ : (t.setNode self hash).appconns = t.appconns := rfl
  unfold admitApp
  rw [hnode, hcomm, happ]
  by_cases hfull : 0 < capacity ∧ (capacity : Int) ≤ units t.appconns app
  · rw [if_pos hfull, if_pos hfull]
  · rw [if_neg hfull, if_neg hfull]
    rfl

theorem releaseApp_setNode (hne : node ≠ self) (t : CapacityKeys Node App) (app : App) :
    (releaseApp (t.setNode self hash) app node).1 =
      (releaseApp t app node).1.setNode self hash := by
  have hnode := t.node_setNode_ne hash hne
  have hcomm := CapacityKeys.setNode_comm hash hne t
  unfold releaseApp
  simp only [hnode, hcomm]
  split <;> rfl

theorem reclaimNode_setNode (hne : node ≠ self) (t : CapacityKeys Node App)
    (counts : List (App × Int)) :
    (reclaimNode (t.setNode self hash) node counts).1 =
      (reclaimNode t node counts).1.setNode self hash := by
  have hconns : (t.nodeconns.hset self hash).hdel node =
      (t.nodeconns.hdel node).hset self hash := by
    ext1 n
    simp only [Hash.hget_hset, Hash.hget_hdel]
    split
    next heq =>
      subst heq
      rw [if_neg hne]
    next => rfl
  unfold reclaimNode CapacityKeys.setNode
  dsimp only
  split
  · rfl
  · simp only [hconns]

/-- The node's hash is gone, and put back it would be in balance with the totals. -/
structure Residue (node : Node) (hash : Hash App Int) (t : CapacityKeys Node App) : Prop where
  absent : t.node node = ∅
  balanced : Balanced (t.setNode node hash)

variable {hash}

theorem Residue.sum (h : Residue self hash t) (app : App) :
    units t.appconns app = t.total app + units hash app := by
  have hsum : units t.appconns app = (t.setNode self hash).total app := h.balanced.sum app
  have htotal := t.total_setNode self hash app
  rw [h.absent, units_empty] at htotal
  omega

/-- Every script that repairs nothing leaves the residue. -/
theorem Residue.capacityStep (h : Residue self hash t) {a : CapacityAct Node App}
    (ha : Unrepaired self (.script a)) : Residue self hash (capacityStep t a) := by
  cases a with
  | admitting app node capacity =>
    refine ⟨?_, ?_⟩
    · simp only [Redis.capacityStep, admitApp]
      split
      · exact h.absent
      · exact (CapacityKeys.node_setNode_ne _ _ (Ne.symm ha)).trans h.absent
    · rw [Redis.capacityStep, ← admitApp_setNode hash ha]
      exact h.balanced.admitApp app node capacity
  | release app node =>
    by_cases hnode : node = self
    · -- the node's own release finds nothing to give back
      subst hnode
      have hfloor : (releaseApp t app node).1 =
          t.setNode node (Hash.hdel (∅ : Hash App Int) app) := by
        simp [releaseApp, h.absent, Hash.hincrby, Hash.hget_empty, Hash.hdel_hset]
      have hempty : Hash.hdel (∅ : Hash App Int) app = ∅ :=
        Hash.hdel_of_hget_none (Hash.hget_empty app)
      rw [Redis.capacityStep, hfloor, hempty]
      refine ⟨t.node_setNode_self node ∅, ?_⟩
      have hback : (t.setNode node ∅).setNode node hash = t.setNode node hash := by
        simp [CapacityKeys.setNode]
      rw [hback]
      exact h.balanced
    · refine ⟨?_, ?_⟩
      · simp only [Redis.capacityStep, releaseApp]
        split <;> exact (CapacityKeys.node_setNode_ne _ _ (Ne.symm hnode)).trans h.absent
      · rw [Redis.capacityStep, ← releaseApp_setNode hash hnode]
        exact h.balanced.releaseApp app node
  | reclaim node counts =>
    simp only [Redis.capacityStep]
    split
    next hcounts =>
      by_cases hnode : node = self
      · -- the reply for the node itself is empty
        subst hnode
        have hnone : counts = [] := by
          have hkeys := hcounts.2.1
          rw [h.absent] at hkeys
          simpa using hkeys
        subst hnone
        unfold Redis.reclaimNode
        split
        · exact h
        · refine ⟨by simp [CapacityKeys.node], ?_⟩
          have hback : CapacityKeys.setNode { t with
              appconns := List.foldl reclaimApp t.appconns []
              nodeconns := t.nodeconns.hdel node } node hash = t.setNode node hash := by
            have hconns : (t.nodeconns.hdel node).hset node hash = t.nodeconns.hset node hash := by
              ext1 n
              simp only [Hash.hget_hset, Hash.hget_hdel]
              split <;> rfl
            simp only [CapacityKeys.setNode, hconns, List.foldl_nil]
          rw [hback]
          exact h.balanced
      · refine ⟨?_, ?_⟩
        · unfold Redis.reclaimNode
          split
          · exact h.absent
          · simpa [CapacityKeys.node, Hash.hget_hdel_ne _ (Ne.symm hnode)] using h.absent
        · rw [← reclaimNode_setNode hash hnode]
          refine h.balanced.reclaimNode ?_
          rwa [t.node_setNode_ne hash hnode]
    next => exact h
  | reseed => exact ha.elim
  | advertise | lapse | forget =>
    exact ⟨h.absent, ⟨h.balanced.sum, h.balanced.apps, h.balanced.nodes⟩⟩

theorem Residue.healStep {s : HealSys Node App} (h : Residue self hash s.keys)
    {a : HealAct Node App} (ha : Unrepaired self a) :
    Residue self hash (healStep self s a).keys := by
  cases a with
  | establish | close => exact h
  | script a => exact h.capacityStep ha
  | expire | tick => exact ha.elim

/-- What an expiry took from the books stays missing until a repair. -/
theorem Residue.run {s : HealSys Node App} (h : Residue self hash s.keys)
    {as : List (HealAct Node App)} (has : ∀ a ∈ as, Unrepaired self a) :
    Residue self hash (run (Redis.healStep self) s as).keys := by
  induction as generalizing s with
  | nil => exact h
  | cons a _ ih =>
    exact ih (h.healStep (has a List.mem_cons_self)) fun b hb => has b (List.mem_cons_of_mem _ hb)

end Restored

end Pylon.Redis
