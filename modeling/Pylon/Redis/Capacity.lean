import Mathlib.Algebra.Order.BigOperators.Group.Finset
import Mathlib.Data.Int.Order.Basic
import Pylon.Lib.Tally
import Pylon.Lib.Trace
import Pylon.Redis.Scripts

/-!
# Cluster capacity

An app's connections are counted twice in Redis: `appconns` has the cluster
total of every app, and each node has a hash `nodeconns:{node}` with its own
units. Four scripts write the two in step: `admitApp` and `releaseApp` for a
connection, `reclaimNode` for a sweeper, `reseedNodeCapacity` for a heartbeat.

The sum law is that the total of an app is the sum of the nodes' units of it,
with no field stored at zero or below.
-/

namespace Pylon.Redis

open Pylon.Lib

variable {Node App : Type} [DecidableEq Node] [DecidableEq App]

/-- The keys of the capacity gate. -/
structure CapacityKeys (Node App : Type) where
  appconns : Hash App Int
  /-- `nodeconns:{node}`, by node. -/
  nodeconns : Hash Node (Hash App Int)
  /-- The `nodes` set. -/
  nodes : Finset Node
  /-- The nodes whose `node:{node}` liveness key exists. -/
  alive : Finset Node

namespace CapacityKeys

/-- No key exists. -/
def empty : CapacityKeys Node App := ⟨∅, ∅, ∅, ∅⟩

/-- The hash `nodeconns:{node}`; empty when there is no such key. -/
def node (t : CapacityKeys Node App) (n : Node) : Hash App Int := (t.nodeconns.hget n).getD ∅

def setNode (t : CapacityKeys Node App) (n : Node) (h : Hash App Int) : CapacityKeys Node App :=
  { t with nodeconns := t.nodeconns.hset n h }

end CapacityKeys

/-- `tonumber(redis.call('HGET', h, app) or '0')`. -/
def units (h : Hash App Int) (app : App) : Int := (h.hget app).getD 0

/-- The sum over all nodes of `nodeconns[node][app]`. -/
def CapacityKeys.total (t : CapacityKeys Node App) (app : App) : Int :=
  t.nodeconns.tally fun h => units h app

/-! ## The scripts -/

/-- `ADMIT_APP_LUA`: `1` when admitted; capacity zero is unlimited. -/
def admitApp (t : CapacityKeys Node App) (app : App) (node : Node) (capacity : Nat) :
    CapacityKeys Node App × Int :=
  if 0 < capacity ∧ (capacity : Int) ≤ units t.appconns app then (t, 0)
  else
    ({ t.setNode node ((t.node node).hincrby app 1).1 with
        appconns := (t.appconns.hincrby app 1).1 }, 1)

/-- `RELEASE_APP_LUA`: the remaining cluster total. -/
def releaseApp (t : CapacityKeys Node App) (app : App) (node : Node) :
    CapacityKeys Node App × Int :=
  let hash := ((t.node node).hincrby app (-1)).1
  let held := ((t.node node).hincrby app (-1)).2
  if held < 0 then (t.setNode node (hash.hdel app), 0)
  else
    let t := t.setNode node (if held = 0 then hash.hdel app else hash)
    let appconns := (t.appconns.hincrby app (-1)).1
    let total := (t.appconns.hincrby app (-1)).2
    ({ t with appconns := if total ≤ 0 then appconns.hdel app else appconns }, total)

/-- One turn of the loop of `RECLAIM_NODE_LUA`. -/
def reclaimApp (appconns : Hash App Int) (p : App × Int) : Hash App Int :=
  if units appconns p.1 ≤ p.2 then appconns.hdel p.1 else (appconns.hincrby p.1 (-p.2)).1

/-- `RECLAIM_NODE_LUA`, where `counts` is the reply of its `HGETALL`; `-1` when
the node's liveness key is back. -/
def reclaimNode (t : CapacityKeys Node App) (node : Node) (counts : List (App × Int)) :
    CapacityKeys Node App × Int :=
  if node ∈ t.alive then (t, -1)
  else
    ({ t with
        appconns := counts.foldl reclaimApp t.appconns
        nodeconns := t.nodeconns.hdel node }, counts.length)

/-- `HSET` of one field after the other. -/
def hsetPairs (h : Hash App Int) (pairs : List (App × Int)) : Hash App Int :=
  pairs.foldl (fun h p => h.hset p.1 p.2) h

/-- The units of the other nodes that `SMEMBERS nodes` lists. -/
def CapacityKeys.others (t : CapacityKeys Node App) (node : Node) (app : App) : Int :=
  ∑ other ∈ t.nodes.erase node, units (t.node other) app

/-- `RESEED_NODE_CAPACITY_LUA`: the number of apps re-seeded. -/
def reseedNodeCapacity (t : CapacityKeys Node App) (node : Node) (pairs : List (App × Int)) :
    CapacityKeys Node App × Int :=
  let t := t.setNode node (hsetPairs (t.node node) pairs)
  ({ t with
      appconns := hsetPairs t.appconns (pairs.map fun p => (p.1, p.2 + t.others node p.1)) },
    pairs.length)

/-! ## Runs -/

/-- The scripts, and what nodes and time do to the `nodes` set and the liveness
keys. -/
inductive CapacityAct (Node App : Type)
  | admitting (app : App) (node : Node) (capacity : Nat)
  | release (app : App) (node : Node)
  | reclaim (node : Node) (counts : List (App × Int))
  | reseed (node : Node) (pairs : List (App × Int))
  | advertise (node : Node)
  | lapse (node : Node)
  | forget (node : Node)

/-- One script or command. A `reclaim` whose `counts` are not what `HGETALL`
may reply does nothing. -/
def capacityStep (t : CapacityKeys Node App) : CapacityAct Node App → CapacityKeys Node App
  | .admitting app node capacity => (admitApp t app node capacity).1
  | .release app node => (releaseApp t app node).1
  | .reclaim node counts =>
    if (t.node node).Enumerates counts then (reclaimNode t node counts).1 else t
  | .reseed node pairs => (reseedNodeCapacity t node pairs).1
  | .advertise node => { t with alive := insert node t.alive, nodes := insert node t.nodes }
  | .lapse node => { t with alive := t.alive.erase node }
  | .forget node => { t with nodes := t.nodes.erase node }

/-- What is assumed of a re-seed: the other nodes that hold units are in the
`nodes` set, and the counts are positive. -/
def Seedable (t : CapacityKeys Node App) : CapacityAct Node App → Prop
  | .reseed node pairs =>
    (∀ other ∈ t.nodeconns.hkeys, other ≠ node → t.node other ≠ ∅ → other ∈ t.nodes) ∧
      ∀ p ∈ pairs, 0 < p.2
  | _ => True

instance (t : CapacityKeys Node App) : ∀ a, Decidable (Seedable t a)
  | .reseed node pairs =>
    inferInstanceAs (Decidable ((∀ other ∈ _, other ≠ node → t.node other ≠ ∅ → other ∈ t.nodes) ∧
      ∀ p ∈ pairs, 0 < p.2))
  | .admitting .. | .release .. | .reclaim .. | .advertise _ | .lapse _ | .forget _ =>
    isTrue trivial

/-! ## Fields -/

section Fields

variable (h : Hash App Int) (app app' : App) (v : Int)

@[simp] theorem units_empty : units (∅ : Hash App Int) app = 0 := rfl

theorem units_of_hget {h : Hash App Int} {app : App} {v : Int} (hget : h.hget app = some v) :
    units h app = v := by
  rw [units, hget, Option.getD_some]

theorem units_hset : units (h.hset app v) app' = if app' = app then v else units h app' := by
  simp only [units, Hash.hget_hset]
  split <;> rfl

theorem units_hdel : units (h.hdel app) app' = if app' = app then 0 else units h app' := by
  simp only [units, Hash.hget_hdel]
  split <;> rfl

theorem hincrby_units : (h.hincrby app v).1 = h.hset app (units h app + v) := rfl

/-- No field is stored at zero or below. -/
def Positive (h : Hash App Int) : Prop := ∀ app v, h.hget app = some v → 0 < v

theorem Positive.empty : Positive (∅ : Hash App Int) := by
  intro app v hget
  rw [Hash.hget_empty] at hget
  cases hget

theorem Positive.hset {h : Hash App Int} {v : Int} (hpos : Positive h) (app : App) (hv : 0 < v) :
    Positive (h.hset app v) := by
  intro app' v' hget
  rw [Hash.hget_hset] at hget
  split at hget
  · cases hget
    exact hv
  · exact hpos app' v' hget

theorem Positive.hdel {h : Hash App Int} (hpos : Positive h) (app : App) :
    Positive (h.hdel app) := by
  intro app' v' hget
  rw [Hash.hget_hdel] at hget
  split at hget
  · cases hget
  · exact hpos app' v' hget

theorem Positive.units_nonneg {h : Hash App Int} (hpos : Positive h) (app : App) :
    0 ≤ units h app := by
  cases hget : h.hget app with
  | none => simp [units, hget]
  | some v =>
    rw [units_of_hget hget]
    exact (hpos app v hget).le

end Fields

/-! ## Nodes -/

namespace CapacityKeys

variable (t : CapacityKeys Node App) (n n' : Node) (h : Hash App Int) (app : App)

theorem weight_node : t.nodeconns.weight (fun h => units h app) n = units (t.node n) app := by
  unfold Hash.weight node
  cases t.nodeconns.hget n <;> rfl

omit [DecidableEq App] in
@[simp] theorem node_setNode_self : (t.setNode n h).node n = h := by
  simp [node, setNode]

omit [DecidableEq App] in
theorem node_setNode_ne {n n' : Node} (hne : n' ≠ n) : (t.setNode n h).node n' = t.node n' := by
  simp only [node, setNode, Hash.hget_hset_ne _ _ hne]

theorem total_setNode :
    (t.setNode n h).total app + units (t.node n) app = t.total app + units h app := by
  rw [← weight_node]
  exact Hash.tally_hset _ _ _ _

/-- A node's own units and those of the other nodes. -/
theorem total_eq_add_erase :
    t.total app = units (t.node n) app + ∑ other ∈ t.nodeconns.hkeys.erase n,
      units (t.node other) app := by
  unfold total
  rw [Hash.tally_eq_add_erase _ _ n]
  simp only [weight_node]

omit [DecidableEq App] in
theorem node_of_absent {t : CapacityKeys Node App} {n : Node} (hn : n ∉ t.nodeconns.hkeys) :
    t.node n = ∅ := by
  rw [Hash.mem_hkeys, not_not] at hn
  rw [node, hn, Option.getD_none]

/-- The other nodes' units, when every one of them that has any is in `nodes`. -/
theorem others_eq {t : CapacityKeys Node App} {n : Node}
    (hlisted : ∀ other ∈ t.nodeconns.hkeys, other ≠ n → t.node other ≠ ∅ → other ∈ t.nodes) :
    t.others n app = ∑ other ∈ t.nodeconns.hkeys.erase n, units (t.node other) app := by
  have hall : t.others n app =
      ∑ other ∈ (t.nodeconns.hkeys ∪ t.nodes).erase n, units (t.node other) app := by
    apply Finset.sum_subset (Finset.erase_subset_erase n Finset.subset_union_right)
    intro other hin hout
    have hne : other ≠ n := Finset.ne_of_mem_erase hin
    have hunlisted : other ∉ t.nodes := fun hmem => hout (Finset.mem_erase.mpr ⟨hne, hmem⟩)
    have hnone : t.node other = ∅ := by
      by_contra hsome
      have hkey : other ∈ t.nodeconns.hkeys := by
        by_contra habsent
        exact hsome (node_of_absent habsent)
      exact hunlisted (hlisted other hkey hne hsome)
    rw [hnone, units_empty]
  rw [hall]
  symm
  apply Finset.sum_subset (Finset.erase_subset_erase n Finset.subset_union_left)
  intro other hin hout
  have hne : other ≠ n := Finset.ne_of_mem_erase hin
  rw [node_of_absent fun hkey => hout (Finset.mem_erase.mpr ⟨hne, hkey⟩), units_empty]

end CapacityKeys

/-! ## The sum law -/

/-- The law: totals are sums, and only positive values are stored. -/
structure Balanced (t : CapacityKeys Node App) : Prop where
  sum : ∀ app, units t.appconns app = t.total app
  apps : Positive t.appconns
  nodes : ∀ n, Positive (t.node n)

theorem Balanced.empty : Balanced (CapacityKeys.empty : CapacityKeys Node App) :=
  ⟨fun _ => (Hash.tally_empty _).symm, .empty, fun _ => .empty⟩

variable {t : CapacityKeys Node App} {h : Hash App Int}

theorem Balanced.units_le_total (h : Balanced t) (n : Node) (app : App) :
    units (t.node n) app ≤ t.total app := by
  rw [t.total_eq_add_erase n app]
  have hrest : 0 ≤ ∑ other ∈ t.nodeconns.hkeys.erase n, units (t.node other) app :=
    Finset.sum_nonneg fun other _ => (h.nodes other).units_nonneg app
  omega

/-- Writing one node's hash keeps the law when the totals follow it. -/
theorem Balanced.setNode (h : Balanced t) {n : Node} {hash apps : Hash App Int}
    (hhash : Positive hash) (happs : Positive apps)
    (hfollow : ∀ app, units apps app + units (t.node n) app = units t.appconns app +
      units hash app) :
    Balanced { t.setNode n hash with appconns := apps } := by
  refine ⟨fun app => ?_, happs, fun n' => ?_⟩
  · show units apps app = (t.setNode n hash).total app
    have htotal := t.total_setNode n hash app
    have hsum := h.sum app
    have hmove := hfollow app
    omega
  · show Positive ((t.setNode n hash).node n')
    by_cases hn : n' = n
    · subst hn
      rwa [t.node_setNode_self]
    · rw [t.node_setNode_ne hash hn]
      exact h.nodes n'

theorem Balanced.admitApp (h : Balanced t) (app : App) (node : Node) (capacity : Nat) :
    Balanced (admitApp t app node capacity).1 := by
  unfold Redis.admitApp
  split
  · exact h
  · have hnode := (h.nodes node).units_nonneg app
    have happ := h.apps.units_nonneg app
    simp only [hincrby_units]
    refine h.setNode ((h.nodes node).hset app (by omega)) (h.apps.hset app (by omega)) ?_
    intro app'
    rw [units_hset, units_hset]
    split
    next heq =>
      subst heq
      omega
    next => omega

theorem Balanced.releaseApp (h : Balanced t) (app : App) (node : Node) :
    Balanced (releaseApp t app node).1 := by
  have hnode := (h.nodes node).units_nonneg app
  have hle := h.units_le_total node app
  have hsum := h.sum app
  have hheld : ((t.node node).hincrby app (-1)).2 = units (t.node node) app - 1 := rfl
  have htotal : (t.appconns.hincrby app (-1)).2 = units t.appconns app - 1 := rfl
  simp only [Redis.releaseApp, hheld, hincrby_units, Hash.hdel_hset]
  split
  next hnone =>
    -- the node holds nothing: its field is deleted, the total stays
    refine h.setNode ((h.nodes node).hdel app) h.apps ?_
    intro app'
    rw [units_hdel]
    split
    next heq =>
      subst heq
      omega
    next => omega
  next hsome =>
    have hsetNode : ∀ hash : Hash App Int, (t.setNode node hash).appconns = t.appconns :=
      fun _ => rfl
    simp only [hsetNode, htotal]
    refine h.setNode ?_ ?_ ?_
    · split
      · exact (h.nodes node).hdel app
      · exact (h.nodes node).hset app (by omega)
    · split
      · exact h.apps.hdel app
      · exact h.apps.hset app (by omega)
    · intro app'
      by_cases heq : app' = app
      · subst heq
        split <;> split <;> simp only [units_hset, units_hdel, if_true] <;> omega
      · split <;> split <;> simp only [units_hset, units_hdel, if_neg heq]

theorem Positive.reclaimApp (hpos : Positive h) (p : App × Int) : Positive (reclaimApp h p) := by
  unfold Redis.reclaimApp
  split
  · exact hpos.hdel p.1
  · rw [hincrby_units]
    exact hpos.hset p.1 (by omega)

theorem Positive.reclaimApps (hpos : Positive h) (counts : List (App × Int)) :
    Positive (counts.foldl Redis.reclaimApp h) := by
  induction counts generalizing h with
  | nil => exact hpos
  | cons p _ ih => exact ih (hpos.reclaimApp p)

theorem units_reclaimApp {p : App × Int} (hle : p.2 ≤ units h p.1) (app : App) :
    units (reclaimApp h p) app = if app = p.1 then units h app - p.2 else units h app := by
  unfold reclaimApp
  split
  next hall =>
    rw [units_hdel]
    split
    next heq =>
      subst heq
      omega
    next => rfl
  next =>
    rw [hincrby_units, units_hset]
    split
    next heq =>
      subst heq
      omega
    next => rfl

/-- The loop of a reclaim takes each app's count off its total. -/
theorem units_reclaimApps {hash : Hash App Int} {counts : List (App × Int)}
    (hnodup : (counts.map Prod.fst).Nodup) (hcounts : ∀ p ∈ counts, hash.hget p.1 = some p.2)
    (hle : ∀ app, units hash app ≤ units h app) (app : App) :
    units (counts.foldl reclaimApp h) app =
      if app ∈ counts.map Prod.fst then units h app - units hash app else units h app := by
  induction counts generalizing h hash with
  | nil => rfl
  | cons p counts ih =>
    obtain ⟨hnew, hnodup⟩ := List.nodup_cons.mp hnodup
    have hp : units hash p.1 = p.2 := units_of_hget (hcounts p List.mem_cons_self)
    have hfirst := units_reclaimApp (hp ▸ hle p.1) (p := p)
    -- the fields the rest of the reply names are those of the hash without this one
    have hrest : ∀ q ∈ counts, (hash.hdel p.1).hget q.1 = some q.2 := by
      intro q hq
      have hne : q.1 ≠ p.1 := fun heq => hnew (heq ▸ List.mem_map_of_mem hq)
      rw [Hash.hget_hdel_ne _ hne]
      exact hcounts q (List.mem_cons_of_mem _ hq)
    have hle' : ∀ app, units (hash.hdel p.1) app ≤ units (reclaimApp h p) app := by
      intro app
      rw [hfirst, units_hdel]
      have hle := hle app
      split
      next heq =>
        subst heq
        omega
      next => exact hle
    rw [List.foldl_cons, ih hnodup hrest hle', hfirst, units_hdel]
    by_cases heq : app = p.1
    · subst heq
      rw [if_neg hnew, if_pos rfl, if_pos (by simp), hp]
    · have hmem : app ∈ (p :: counts).map Prod.fst ↔ app ∈ counts.map Prod.fst := by
        rw [List.map_cons, List.mem_cons, or_iff_right heq]
      simp only [hmem, if_neg heq]

theorem Balanced.reclaimNode (h : Balanced t) {node : Node} {counts : List (App × Int)}
    (hcounts : (t.node node).Enumerates counts) : Balanced (reclaimNode t node counts).1 := by
  unfold Redis.reclaimNode
  split
  · exact h
  obtain ⟨hnodup, hkeys, hvals⟩ := hcounts
  refine ⟨fun app => ?_, h.apps.reclaimApps counts, fun n' => ?_⟩
  · have htotal : (t.nodeconns.hdel node).tally (fun h => units h app) +
        units (t.node node) app = t.total app := by
      rw [← t.weight_node]
      exact Hash.tally_hdel _ _ _
    have hsum := h.sum app
    have hle : ∀ app, units (t.node node) app ≤ units t.appconns app := by
      intro app
      rw [h.sum]
      exact h.units_le_total node app
    show units (counts.foldl reclaimApp t.appconns) app =
      (t.nodeconns.hdel node).tally (fun h => units h app)
    rw [units_reclaimApps hnodup hvals hle]
    split
    next => omega
    next hout =>
      have habsent : units (t.node node) app = 0 := by
        rw [← List.mem_toFinset, hkeys, Hash.mem_hkeys, not_not] at hout
        rw [units, hout, Option.getD_none]
      omega
  · show Positive (((t.nodeconns.hdel node).hget n').getD ∅)
    rw [Hash.hget_hdel]
    split
    · exact Positive.empty
    · exact h.nodes n'

theorem Positive.hsetPairs (hpos : Positive h) {pairs : List (App × Int)}
    (hpairs : ∀ p ∈ pairs, 0 < p.2) : Positive (hsetPairs h pairs) := by
  induction pairs generalizing h with
  | nil => exact hpos
  | cons p _ ih =>
    refine ih (hpos.hset p.1 (hpairs p List.mem_cons_self)) ?_
    intro q hq
    exact hpairs q (List.mem_cons_of_mem _ hq)

/-- Two hashes written from one list of pairs, the second with `extra` on top:
an app in the list has its last count in both, the others keep what they had. -/
theorem units_hsetPairs (extra : App → Int) (pairs : List (App × Int)) (h h' : Hash App Int)
    (app : App) :
    (app ∈ pairs.map Prod.fst →
      units (hsetPairs h' (pairs.map fun p => (p.1, p.2 + extra p.1))) app =
        units (hsetPairs h pairs) app + extra app) ∧
    (app ∉ pairs.map Prod.fst →
      units (hsetPairs h' (pairs.map fun p => (p.1, p.2 + extra p.1))) app = units h' app ∧
        units (hsetPairs h pairs) app = units h app) := by
  induction pairs generalizing h h' with
  | nil => exact ⟨fun hin => absurd hin List.not_mem_nil, fun _ => ⟨rfl, rfl⟩⟩
  | cons p pairs ih =>
    obtain ⟨hin, hout⟩ := ih (h.hset p.1 p.2) (h'.hset p.1 (p.2 + extra p.1))
    by_cases hlater : app ∈ pairs.map Prod.fst
    · exact ⟨fun _ => hin hlater, fun hnot => absurd (List.mem_cons_of_mem _ hlater) hnot⟩
    · obtain ⟨hfst, hsnd⟩ := hout hlater
      constructor
      · intro hmem
        obtain rfl : app = p.1 := (List.mem_cons.mp hmem).resolve_right hlater
        rw [units_hset, if_pos rfl] at hfst hsnd
        show _ = units (hsetPairs (h.hset p.1 p.2) pairs) p.1 + extra p.1
        rw [hsnd]
        exact hfst
      · intro hnot
        have hne : app ≠ p.1 := fun heq => hnot (heq ▸ List.mem_cons_self)
        rw [units_hset, if_neg hne] at hfst hsnd
        exact ⟨hfst, hsnd⟩

theorem CapacityKeys.others_setNode (t : CapacityKeys Node App) (n : Node) (h : Hash App Int)
    (app : App) : (t.setNode n h).others n app = t.others n app := by
  apply Finset.sum_congr rfl
  intro other hother
  rw [t.node_setNode_ne h (Finset.ne_of_mem_erase hother)]

theorem Balanced.reseedNodeCapacity (h : Balanced t) {node : Node} {pairs : List (App × Int)}
    (hseed : Seedable t (.reseed node pairs)) : Balanced (reseedNodeCapacity t node pairs).1 := by
  obtain ⟨hlisted, hpairs⟩ := hseed
  have hothers : ∀ app, t.others node app = t.total app - units (t.node node) app := by
    intro app
    have htotal := t.total_eq_add_erase node app
    rw [CapacityKeys.others_eq app hlisted]
    omega
  simp only [Redis.reseedNodeCapacity, CapacityKeys.others_setNode]
  refine h.setNode ((h.nodes node).hsetPairs hpairs) (h.apps.hsetPairs ?_) ?_
  · intro q hq
    obtain ⟨p, hp, rfl⟩ := List.mem_map.mp hq
    have hpos := hpairs p hp
    have hle := h.units_le_total node p.1
    have hrest := hothers p.1
    show 0 < p.2 + t.others node p.1
    omega
  · intro app
    obtain ⟨hin, hout⟩ := units_hsetPairs (t.others node) pairs (t.node node) t.appconns app
    have hsum := h.sum app
    have hrest := hothers app
    show units (hsetPairs t.appconns _) app + _ = units t.appconns app + _
    by_cases hseeded : app ∈ pairs.map Prod.fst
    · rw [hin hseeded]
      omega
    · obtain ⟨happ, hnode⟩ := hout hseeded
      rw [happ, hnode]

/-- Every script moves a node's count and the total together. -/
theorem balanced_step (t : CapacityKeys Node App) (a : CapacityAct Node App) (h : Balanced t)
    (hseed : Seedable t a) : Balanced (capacityStep t a) := by
  cases a with
  | admitting app node capacity => exact h.admitApp app node capacity
  | release app node => exact h.releaseApp app node
  | reclaim =>
    simp only [capacityStep]
    split
    next hcounts => exact h.reclaimNode hcounts
    next => exact h
  | reseed => exact h.reseedNodeCapacity hseed
  | advertise | lapse | forget => exact ⟨h.sum, h.apps, h.nodes⟩

/-- Under the law a bounded admission succeeds exactly when the sum has room. -/
theorem Balanced.admits_iff (h : Balanced t) (app : App) (node : Node) {capacity : Nat}
    (hcap : 0 < capacity) :
    (Redis.admitApp t app node capacity).2 = 1 ↔ t.total app < capacity := by
  rw [← h.sum app]
  unfold Redis.admitApp
  split
  next hfull =>
    simp only [zero_ne_one, false_iff, not_lt]
    exact hfull.2
  next hroom =>
    simp only [true_iff]
    by_contra hle
    exact hroom ⟨hcap, not_lt.mp hle⟩

/-- Over every run of the four scripts from an empty keyspace, the sum law holds
and a bounded admission succeeds exactly when the sum is below the capacity. -/
theorem capacity_sum (as : List (CapacityAct Node App))
    (has : Along capacityStep Seedable .empty as) :
    Balanced (run capacityStep .empty as) ∧
      ∀ app node capacity, 0 < capacity →
        ((admitApp (run capacityStep .empty as) app node capacity).2 = 1 ↔
          (run capacityStep .empty as).total app < capacity) := by
  have hbalanced : Balanced (run capacityStep .empty as) :=
    has.invariant balanced_step Balanced.empty
  exact ⟨hbalanced, fun app node _ hcap => hbalanced.admits_iff app node hcap⟩

/-- Two nodes fill an app of capacity two, one is reclaimed and re-seeds itself, and a
third releases a unit it never took. -/
theorem capacity_sum_reseeded :
    let as : List (CapacityAct Nat Nat) :=
      [.advertise 1, .advertise 2, .admitting 7 1 2, .admitting 7 2 2, .lapse 2,
        .reclaim 2 [(7, 1)], .reseed 2 [(7, 1)], .release 7 3]
    Along capacityStep Seedable .empty as ∧ (run capacityStep .empty as).total 7 = 2 ∧
      ¬ (admitApp (run capacityStep .empty as) 7 3 2).2 = 1 := by
  intro as
  have has : Along capacityStep Seedable .empty as := by decide
  have htotal : (run capacityStep .empty as).total 7 = 2 := by decide
  refine ⟨has, htotal, ?_⟩
  rw [(capacity_sum as has).2 7 3 2 (by decide), htotal]
  decide

end Pylon.Redis
