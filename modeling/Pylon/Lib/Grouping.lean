import Pylon.Lib.Hash

/-!
# Grouping

Items grouped by a key into a hash, each group in the order the items came. A walk
over the hash meets the groups in any order; what comes out of it for one key is
what its group gives, and all groups together are the items again.
-/

namespace Pylon.Lib

variable {κ α β : Type*} [DecidableEq κ] (key : α → κ)

/-- The items with a key, in order. -/
def having (k : κ) (l : List α) : List α := l.filter fun a => decide (key a = k)

/-- Group the items, pushing each to the back of its group. -/
def group (l : List α) : Hash κ (List α) :=
  l.foldl (fun h a => h.hset (key a) ((h.hget (key a)).getD [] ++ [a])) ∅

variable {key}

theorem mem_having {k : κ} {l : List α} {a : α} : a ∈ having key k l ↔ a ∈ l ∧ key a = k := by
  simp [having]

theorem having_isEmpty {k : κ} {l : List α} : (having key k l).isEmpty = true ↔ k ∉ l.map key := by
  simp [having, List.filter_eq_nil_iff]

theorem hget_group (l : List α) (k : κ) :
    (group key l).hget k =
      if (having key k l).isEmpty then none else some (having key k l) := by
  induction l using List.reverseRecOn with
  | nil => simp [group, having]
  | append_singleton l a ih =>
    rw [group, List.foldl_append, ← group, List.foldl_cons, List.foldl_nil, Hash.hget_hset]
    by_cases hk : k = key a
    · subst hk
      have hgroup : ((group key l).hget (key a)).getD [] = having key (key a) l := by
        rw [ih]
        split
        · simp_all
        · rfl
      simp [hgroup, having]
    · rw [if_neg hk, ih]
      simp [having, Ne.symm hk]

theorem mem_hkeys_group {l : List α} {k : κ} : k ∈ (group key l).hkeys ↔ k ∈ l.map key := by
  rw [Hash.mem_hkeys, hget_group, ← not_iff_not, ← having_isEmpty]
  split <;> simp_all

variable {l : List α} {walk : List (κ × List α)}

/-- A walk over the groups meets each key with all its items. -/
theorem snd_of_mem_walk (hwalk : (group key l).Enumerates walk) {p : κ × List α}
    (hp : p ∈ walk) : p.2 = having key p.1 l := by
  have hget := hwalk.2.2 p hp
  rw [hget_group] at hget
  split at hget
  · cases hget
  · exact (Option.some.inj hget).symm

/-- Distinct keys that cover the items, each with its items, are a walk over the groups. -/
theorem enumerates_group {ks : List κ} (hnodup : ks.Nodup)
    (hcover : ks.toFinset = (l.map key).toFinset) :
    (group key l).Enumerates (ks.map fun k => (k, having key k l)) := by
  have hfst : (ks.map fun k => (k, having key k l)).map Prod.fst = ks := by
    rw [List.map_map]
    exact List.map_id ks
  have hmem : ∀ k, k ∈ ks ↔ k ∈ l.map key := fun k => by
    rw [← List.mem_toFinset, hcover, List.mem_toFinset]
  refine ⟨by rwa [hfst], ?_, ?_⟩
  · rw [hfst, hcover]
    ext k
    rw [List.mem_toFinset, mem_hkeys_group]
  · intro p hp
    obtain ⟨k, hk, rfl⟩ := List.mem_map.mp hp
    rw [hget_group, if_neg]
    rw [having_isEmpty, not_not]
    exact (hmem k).mp hk

/-- The items of distinct keys, put together again. -/
theorem perm_flatMap_having {ks : List κ} (hnodup : ks.Nodup) (hcover : ∀ a ∈ l, key a ∈ ks) :
    (ks.flatMap fun k => having key k l).Perm l := by
  induction ks generalizing l with
  | nil =>
    cases l with
    | nil => exact .nil
    | cons a => exact absurd (hcover a List.mem_cons_self) List.not_mem_nil
  | cons k ks ih =>
    obtain ⟨hk, hnodup⟩ := List.nodup_cons.mp hnodup
    -- the items of the other keys are untouched by taking out those of `k`
    have hrest : ∀ k' ∈ ks, having key k' l =
        having key k' (l.filter fun a => !decide (key a = k)) := by
      intro k' hk'
      rw [having, having, List.filter_filter]
      refine List.filter_congr fun a _ => ?_
      by_cases ha : key a = k'
      · have hne : key a ≠ k := fun h => hk (h ▸ ha ▸ hk')
        simp [ha, ha ▸ hne]
      · simp [ha]
    rw [List.flatMap_cons, List.flatMap_congr hrest]
    refine (List.Perm.append_left _ (ih hnodup fun a ha => ?_)).trans (List.filter_append_perm _ l)
    obtain ⟨ha, hne⟩ := List.mem_filter.mp ha
    exact (List.mem_cons.mp (hcover a ha)).resolve_left (by simpa using hne)

/-- All groups together are the items. -/
theorem walk_perm (hwalk : (group key l).Enumerates walk) : (walk.flatMap Prod.snd).Perm l := by
  have hsnd : walk.flatMap Prod.snd = (walk.map Prod.fst).flatMap fun k => having key k l := by
    rw [List.flatMap_map]
    exact List.flatMap_congr fun p hp => snd_of_mem_walk hwalk hp
  rw [hsnd]
  refine perm_flatMap_having hwalk.1 fun a ha => ?_
  rw [← List.mem_toFinset, hwalk.2.1]
  exact mem_hkeys_group.mpr (List.mem_map_of_mem ha)

omit [DecidableEq κ] in
theorem flatMap_eq_nil_of_fst {f : κ × List α → List β} {k : κ} (hk : k ∉ walk.map Prod.fst)
    {keep : β → Bool} (hkeep : ∀ p ∈ walk, p.1 ≠ k → (f p).filter keep = []) :
    (walk.flatMap f).filter keep = [] := by
  rw [List.filter_flatMap, List.flatMap_eq_nil_iff]
  intro p hp
  exact hkeep p hp fun h => hk (h ▸ List.mem_map_of_mem hp)

omit [DecidableEq κ] in
/-- Of what a walk puts out, the part that only one key contributes to. -/
theorem filter_flatMap_walk {f : κ × List α → List β} (hnodup : (walk.map Prod.fst).Nodup)
    {p : κ × List α} (hp : p ∈ walk) {keep : β → Bool}
    (hkeep : ∀ q ∈ walk, q.1 ≠ p.1 → (f q).filter keep = []) :
    (walk.flatMap f).filter keep = (f p).filter keep := by
  induction walk with
  | nil => exact absurd hp List.not_mem_nil
  | cons q _ ih =>
    rw [List.map_cons, List.nodup_cons] at hnodup
    rw [List.flatMap_cons, List.filter_append]
    rcases List.mem_cons.mp hp with rfl | hp
    · rw [flatMap_eq_nil_of_fst hnodup.1 fun r hr => hkeep r (List.mem_cons_of_mem _ hr),
        List.append_nil]
    · have hne : q.1 ≠ p.1 := fun h => hnodup.1 (h ▸ List.mem_map_of_mem hp)
      rw [hkeep q List.mem_cons_self hne, List.nil_append]
      exact ih hnodup.2 hp fun r hr => hkeep r (List.mem_cons_of_mem _ hr)

/-- The part only `k` contributes to is what the group of `k` gives, if a key that has no
items contributes nothing. -/
theorem filter_flatMap_group (hwalk : (group key l).Enumerates walk) (k : κ)
    {f : κ × List α → List β} {keep : β → Bool}
    (hkeep : ∀ q ∈ walk, q.1 ≠ k → (f q).filter keep = [])
    (hnil : (f (k, [])).filter keep = []) :
    (walk.flatMap f).filter keep = (f (k, having key k l)).filter keep := by
  by_cases hmet : k ∈ walk.map Prod.fst
  · obtain ⟨p, hp, rfl⟩ := List.mem_map.mp hmet
    rw [filter_flatMap_walk hwalk.1 hp hkeep, ← snd_of_mem_walk hwalk hp]
  · have hnone : having key k l = [] := by
      rw [← List.isEmpty_iff, having_isEmpty, ← mem_hkeys_group, ← hwalk.2.1, List.mem_toFinset]
      exact hmet
    rw [flatMap_eq_nil_of_fst hmet hkeep, hnone, hnil]

end Pylon.Lib
