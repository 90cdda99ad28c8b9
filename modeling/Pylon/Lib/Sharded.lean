import Pylon.Lib.Edge
import Pylon.Lib.Hash

/-!
# Maps of collections, accessed under a shard lock

A concurrent map whose entries are collections is used through three accesses,
each under the lock of its key's shard: `upsert`, `adjust` and `removeIf`.
A collection is emptied by an `adjust` and its entry removed by a later
`removeIf`, so an empty entry is visible in between. `content` reads a map past
that difference: an empty entry and no entry hold nothing. `Vacant` is the
difference: an entry is there and holds nothing. What each access does to either
is all a proof needs to know of it.
-/

namespace Pylon.Lib.Sharded

variable {κ ν σ : Type*} [DecidableEq κ]

/-- `entry(k).or_default()`, then an update. -/
def upsert (default : ν) (update : ν → ν) (h : Hash κ ν) (k : κ) : Hash κ ν :=
  h.hset k (update ((h.hget k).getD default))

/-- `get_mut(k)`, then an update. -/
def adjust (update : ν → ν) (h : Hash κ ν) (k : κ) : Hash κ ν :=
  match h.hget k with
  | some v => h.hset k (update v)
  | none => h

/-- `remove_if(k)`. -/
def removeIf (cond : ν → Bool) (h : Hash κ ν) (k : κ) : Hash κ ν :=
  if (h.hget k).any cond then h.hdel k else h

/-- What the collection at a key holds. -/
def content (view : ν → Finset σ) (h : Hash κ ν) (k : κ) : Finset σ :=
  ((h.hget k).map view).getD ∅

/-- An entry is there and holds nothing. -/
def Vacant (view : ν → Finset σ) (h : Hash κ ν) (k : κ) : Prop :=
  (h.hget k).map view = some ∅

variable {view : ν → Finset σ}

theorem isSome_iff (view : ν → Finset σ) (h : Hash κ ν) (k : κ) :
    (h.hget k).isSome = true ↔ content view h k ≠ ∅ ∨ Vacant view h k := by
  unfold content Vacant
  cases h.hget k with
  | none => simp
  | some => simp [or_comm, em]

/-- An entry is there exactly when it holds something, where none is vacant. -/
theorem isSome_iff_of_not_vacant {h : Hash κ ν} {k : κ} (hk : ¬ Vacant view h k) :
    (h.hget k).isSome = true ↔ content view h k ≠ ∅ := by
  rw [isSome_iff view, or_iff_left hk]

@[simp] theorem content_empty (k : κ) : content view (∅ : Hash κ ν) k = ∅ := by
  simp [content]

@[simp] theorem not_vacant_empty (k : κ) : ¬ Vacant view (∅ : Hash κ ν) k := by
  simp [Vacant]

section Insert

variable [DecidableEq σ] {update : ν → ν} {x : σ}

theorem content_upsert (view : ν → Finset σ) {default : ν} (hdefault : view default = ∅)
    (hupdate : ∀ v, view (update v) = insert x (view v)) (h : Hash κ ν) (k k' : κ) :
    content view (upsert default update h k) k' =
      if k' = k then insert x (content view h k) else content view h k' := by
  unfold content upsert
  rw [Hash.hget_hset]
  split
  · rw [Option.map_some, Option.getD_some, hupdate]
    cases h.hget k with
    | none => simp [hdefault]
    | some => rfl
  · rfl

theorem vacant_upsert (default : ν) (hupdate : ∀ v, view (update v) = insert x (view v))
    (h : Hash κ ν) (k k' : κ) :
    Vacant view (upsert default update h k) k' ↔ k' ≠ k ∧ Vacant view h k' := by
  unfold Vacant upsert
  rw [Hash.hget_hset]
  split
  next heq => simp [heq, hupdate]
  next hne => simp [hne]

end Insert

section Erase

variable [DecidableEq σ] {update : ν → ν} {x : σ}

theorem content_adjust (hupdate : ∀ v, view (update v) = (view v).erase x) (h : Hash κ ν)
    (k k' : κ) :
    content view (adjust update h k) k' =
      if k' = k then (content view h k).erase x else content view h k' := by
  unfold content adjust
  cases hget : h.hget k with
  | none =>
    by_cases heq : k' = k
    · simp [heq, hget]
    · rw [if_neg heq]
  | some =>
    rw [Hash.hget_hset]
    split <;> simp [hupdate]

section

omit [DecidableEq σ]

/-- Only the entry adjusted can become vacant. -/
theorem vacant_of_adjust {h : Hash κ ν} {k k' : κ}
    (hvacant : Vacant view (adjust update h k) k') :
    Vacant view h k' ∨ k' = k ∧ (h.hget k).isSome = true ∧
      content view (adjust update h k) k = ∅ := by
  by_cases heq : k' = k
  · subst heq
    refine .inr ⟨rfl, ?_, ?_⟩
    · unfold Vacant adjust at hvacant
      cases hget : h.hget k' with
      | none => simp [hget] at hvacant
      | some => rfl
    · unfold content
      rw [show (Hash.hget (adjust update h k') k').map view = some ∅ from hvacant]
      rfl
  · left
    unfold Vacant adjust at hvacant
    split at hvacant
    · rwa [Hash.hget_hset_ne _ _ heq] at hvacant
    · exact hvacant

theorem adjust_of_missing {h : Hash κ ν} {k : κ} (hmissing : ¬ (h.hget k).isSome = true)
    (update : ν → ν) : adjust update h k = h := by
  rw [Option.not_isSome_iff_eq_none] at hmissing
  rw [adjust, hmissing]

theorem isSome_adjust (h : Hash κ ν) (k k' : κ) :
    ((adjust update h k).hget k').isSome = (h.hget k').isSome := by
  unfold adjust
  split
  next v hget =>
    rw [Hash.hget_hset]
    split
    next heq => rw [heq, hget]; rfl
    next => rfl
  next => rfl

end

end Erase

section Remove

variable {cond : ν → Bool}

theorem content_removeIf (hcond : ∀ v, cond v = true → view v = ∅) (h : Hash κ ν) (k k' : κ) :
    content view (removeIf cond h k) k' = content view h k' := by
  unfold content removeIf
  split
  next hany =>
    rw [Hash.hget_hdel]
    split
    next heq =>
      subst heq
      obtain ⟨v, hget, hv⟩ := (Option.any_eq_true _ _).mp hany
      simp [hget, hcond v hv]
    next => rfl
  next => rfl

theorem vacant_removeIf (hcond : ∀ v, cond v = true ↔ view v = ∅) (h : Hash κ ν) (k k' : κ) :
    Vacant view (removeIf cond h k) k' ↔ k' ≠ k ∧ Vacant view h k' := by
  unfold Vacant removeIf
  split
  next hany =>
    rw [Hash.hget_hdel]
    split
    next heq => simp [heq]
    next hne => simp [hne]
  next hnone =>
    refine (and_iff_right_of_imp ?_).symm
    rintro hvacant rfl
    apply hnone
    cases hget : h.hget k' with
    | none => simp [hget] at hvacant
    | some => simpa [hget, hcond] using hvacant

end Remove

/-! ## Vacant entries and who removes them -/

/-- Every vacant entry is one that `pending` says somebody is about to remove. -/
def Attended (view : ν → Finset σ) (h : Hash κ ν) (pending : κ → Prop) : Prop :=
  ∀ k, Vacant view h k → pending k

namespace Attended

variable {h : Hash κ ν} {pending pending' : κ → Prop}

theorem empty : Attended view (∅ : Hash κ ν) pending :=
  fun k hvacant => absurd hvacant (not_vacant_empty k)

theorem mono (ha : Attended view h pending) (hpending : ∀ k, pending k → pending' k) :
    Attended view h pending' :=
  fun k hvacant => hpending k (ha k hvacant)

variable {k : κ}

/-- An entry that has just been inserted into needs nobody. -/
theorem upsert [DecidableEq σ] {default : ν} {update : ν → ν} {x : σ}
    (hupdate : ∀ v, view (update v) = insert x (view v)) (ha : Attended view h pending)
    (hpending : ∀ k' ≠ k, pending k' → pending' k') :
    Attended view (Sharded.upsert default update h k) pending' := by
  intro k' hvacant
  obtain ⟨hne, hold⟩ := (vacant_upsert default hupdate h k k').mp hvacant
  exact hpending k' hne (ha k' hold)

/-- Whoever empties an entry attends to it. -/
theorem adjust {update : ν → ν} (ha : Attended view h pending)
    (hpending : ∀ k', pending k' → pending' k')
    (hnew : (h.hget k).isSome = true → content view (Sharded.adjust update h k) k = ∅ →
      pending' k) :
    Attended view (Sharded.adjust update h k) pending' := by
  intro k' hvacant
  rcases vacant_of_adjust hvacant with hold | ⟨rfl, hsome, hnone⟩
  · exact hpending k' (ha k' hold)
  · exact hnew hsome hnone

/-- An entry that has just been looked at needs nobody. -/
theorem removeIf {cond : ν → Bool} (hcond : ∀ v, cond v = true ↔ view v = ∅)
    (ha : Attended view h pending) (hpending : ∀ k' ≠ k, pending k' → pending' k') :
    Attended view (Sharded.removeIf cond h k) pending' := by
  intro k' hvacant
  obtain ⟨hne, hold⟩ := (vacant_removeIf hcond h k k').mp hvacant
  exact hpending k' hne (ha k' hold)

end Attended

/-! ## Edges of a collection -/

section Edges

variable {τ : Type*} {s s' : τ} [DecidableEq σ] {level : τ → Prop} {held : Finset σ} {x : σ}

/-- An insertion that reports whether it found the collection empty. -/
theorem awards_insert (hbefore : level s ↔ held ≠ ∅) (hafter : level s' ↔ insert x held ≠ ∅) :
    Awards level s s' (if held = ∅ then some .up else none) := by
  have hsome : level s' := hafter.mpr (Finset.insert_ne_empty x held)
  split
  next hnone => exact ⟨fun hlevel => hbefore.mp hlevel hnone, hsome⟩
  next hne => exact iff_of_true hsome (hbefore.mpr hne)

/-- A removal that reports whether it left the collection empty. -/
theorem awards_erase (hx : x ∈ held) (hbefore : level s ↔ held ≠ ∅)
    (hafter : level s' ↔ held.erase x ≠ ∅) :
    Awards level s s' (if held.erase x = ∅ then some .down else none) := by
  have hsome : level s := hbefore.mpr (Finset.ne_empty_of_mem hx)
  split
  next hnone => exact ⟨hsome, fun hlevel => hafter.mp hlevel hnone⟩
  next hne => exact iff_of_true (hafter.mpr hne) hsome

end Edges

end Pylon.Lib.Sharded
