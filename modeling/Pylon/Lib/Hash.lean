import Mathlib.Data.Finmap
import Mathlib.Data.Finset.Card

/-!
# Redis hashes

A Redis hash is a finite map from fields to values; an absent key reads as
the empty hash, and a hash whose last field goes is gone. `Hash` is Mathlib's
`Finmap` under the commands' names. Everything a proof needs to know about a
command is what it does to `hget` and to `hkeys`; `HKEYS` and `HLEN` are a
`Finset` and its cardinality because Redis promises no field order.
-/

namespace Pylon.Lib

/-- A Redis hash: a finite map from fields to values. -/
abbrev Hash (κ ν : Type*) := Finmap fun _ : κ => ν

namespace Hash

variable {κ ν : Type*} [DecidableEq κ]

/-- `HGET`. -/
def hget (h : Hash κ ν) (k : κ) : Option ν := Finmap.lookup k h

/-- `HSET` of one field. -/
def hset (h : Hash κ ν) (k : κ) (v : ν) : Hash κ ν := Finmap.insert k v h

/-- `HDEL` of one field. -/
def hdel (h : Hash κ ν) (k : κ) : Hash κ ν := Finmap.erase k h

/-- `HEXISTS`. -/
def hexists (h : Hash κ ν) (k : κ) : Bool := (h.hget k).isSome

/-- `HKEYS`, with no order. -/
def hkeys (h : Hash κ ν) : Finset κ := Finmap.keys h

/-- `HLEN`. -/
def hlen (h : Hash κ ν) : Nat := h.hkeys.card

/-- `HDEL` of several fields. -/
def hdelAll (h : Hash κ ν) (ks : List κ) : Hash κ ν := ks.foldl hdel h

/-- `HSET` of one value at several fields. -/
def hsetAll (h : Hash κ ν) (ks : List κ) (v : ν) : Hash κ ν :=
  ks.foldl (fun h k => h.hset k v) h

/-- `HINCRBY`: an absent field counts as zero; the new value is returned. -/
def hincrby (h : Hash κ Int) (k : κ) (d : Int) : Hash κ Int × Int :=
  let v := (h.hget k).getD 0 + d
  (h.hset k v, v)

/-- `l` is a reply `HGETALL` may give: every field once, with its value. -/
def Enumerates (h : Hash κ ν) (l : List (κ × ν)) : Prop :=
  (l.map Prod.fst).Nodup ∧ (l.map Prod.fst).toFinset = h.hkeys ∧ ∀ p ∈ l, h.hget p.1 = some p.2

instance [DecidableEq ν] (h : Hash κ ν) (l : List (κ × ν)) : Decidable (h.Enumerates l) :=
  inferInstanceAs (Decidable (_ ∧ _ ∧ _))

/-! ## Reads after writes -/

variable {h : Hash κ ν} {k : κ}

@[ext] theorem ext_hget {h' : Hash κ ν} (heq : ∀ k, h.hget k = h'.hget k) : h = h' :=
  Finmap.ext_lookup heq

@[simp] theorem hget_empty (k : κ) : (∅ : Hash κ ν).hget k = none :=
  Finmap.lookup_empty k

@[simp] theorem hget_hset_self (h : Hash κ ν) (k : κ) (v : ν) : (h.hset k v).hget k = some v :=
  Finmap.lookup_insert h

theorem hget_hset_ne (h : Hash κ ν) {k' : κ} (v : ν) (hne : k' ≠ k) :
    (h.hset k v).hget k' = h.hget k' :=
  Finmap.lookup_insert_of_ne h hne

theorem hget_hset (h : Hash κ ν) (k k' : κ) (v : ν) :
    (h.hset k v).hget k' = if k' = k then some v else h.hget k' := by
  by_cases hk : k' = k
  · subst hk; simp
  · rw [if_neg hk, hget_hset_ne h v hk]

@[simp] theorem hget_hdel_self (h : Hash κ ν) (k : κ) : (h.hdel k).hget k = none :=
  Finmap.lookup_erase k h

theorem hget_hdel_ne (h : Hash κ ν) {k' : κ} (hne : k' ≠ k) : (h.hdel k).hget k' = h.hget k' :=
  Finmap.lookup_erase_ne hne

theorem hget_hdel (h : Hash κ ν) (k k' : κ) :
    (h.hdel k).hget k' = if k' = k then none else h.hget k' := by
  by_cases hk : k' = k
  · subst hk; simp
  · rw [if_neg hk, hget_hdel_ne h hk]

theorem hget_hdelAll (h : Hash κ ν) (ks : List κ) (k : κ) :
    (h.hdelAll ks).hget k = if k ∈ ks then none else h.hget k := by
  induction ks generalizing h with
  | nil => simp [hdelAll]
  | cons k' ks ih =>
    rw [show h.hdelAll (k' :: ks) = (h.hdel k').hdelAll ks from rfl, ih, hget_hdel]
    by_cases hk : k ∈ ks <;> by_cases hk' : k = k' <;> simp [hk, hk']

theorem hget_hsetAll (h : Hash κ ν) (ks : List κ) (v : ν) (k : κ) :
    (h.hsetAll ks v).hget k = if k ∈ ks then some v else h.hget k := by
  induction ks generalizing h with
  | nil => simp [hsetAll]
  | cons k' ks ih =>
    rw [show h.hsetAll (k' :: ks) v = (h.hset k' v).hsetAll ks v from rfl, ih, hget_hset]
    by_cases hk : k ∈ ks <;> by_cases hk' : k = k' <;> simp [hk, hk']

theorem hdel_of_hget_none (hk : h.hget k = none) : h.hdel k = h := by
  ext1 k'
  rw [hget_hdel]
  split
  · subst_vars; exact hk.symm
  · rfl

@[simp] theorem hset_hset (h : Hash κ ν) (k : κ) (v v' : ν) :
    (h.hset k v).hset k v' = h.hset k v' := by
  ext1 k'
  simp only [hget_hset]
  split <;> rfl

@[simp] theorem hdel_hset (h : Hash κ ν) (k : κ) (v : ν) : (h.hset k v).hdel k = h.hdel k := by
  ext1 k'
  simp only [hget_hdel, hget_hset]
  split <;> rfl

/-! ## Fields -/

@[simp] theorem hexists_iff (h : Hash κ ν) (k : κ) : h.hexists k = true ↔ h.hget k ≠ none := by
  simp [hexists, Option.isSome_iff_ne_none]

theorem mem_hkeys : k ∈ h.hkeys ↔ h.hget k ≠ none := by
  unfold hkeys hget
  rw [Finmap.mem_keys, ← Finmap.lookup_isSome, Option.isSome_iff_ne_none]

variable {v : ν}

theorem mem_hkeys_of_hget (hk : h.hget k = some v) : k ∈ h.hkeys := by
  rw [mem_hkeys, hk]; simp

theorem Enumerates.mem_iff {l : List (κ × ν)} (henum : h.Enumerates l) :
    (k, v) ∈ l ↔ h.hget k = some v := by
  obtain ⟨-, hkeys, hvalues⟩ := henum
  refine ⟨hvalues (k, v), fun hget => ?_⟩
  have hmem : k ∈ (l.map Prod.fst).toFinset := hkeys ▸ mem_hkeys_of_hget hget
  obtain ⟨⟨k', v'⟩, hl, rfl⟩ := List.mem_map.mp (List.mem_toFinset.mp hmem)
  obtain rfl : v' = v := Option.some.inj ((hvalues (k', v') hl).symm.trans hget)
  exact hl

omit [DecidableEq κ] in
@[simp] theorem hkeys_empty : (∅ : Hash κ ν).hkeys = ∅ := rfl

@[simp] theorem hkeys_hset (h : Hash κ ν) (k : κ) (v : ν) :
    (h.hset k v).hkeys = insert k h.hkeys := by
  ext k'
  rw [mem_hkeys, hget_hset, Finset.mem_insert, mem_hkeys]
  by_cases hk : k' = k <;> simp [hk]

@[simp] theorem hkeys_hdel (h : Hash κ ν) (k : κ) : (h.hdel k).hkeys = h.hkeys.erase k := by
  ext k'
  rw [mem_hkeys, hget_hdel, Finset.mem_erase, mem_hkeys]
  by_cases hk : k' = k <;> simp [hk]

omit [DecidableEq κ] in
@[simp] theorem hlen_empty : (∅ : Hash κ ν).hlen = 0 := rfl

theorem hlen_eq_zero : h.hlen = 0 ↔ h = ∅ := by
  constructor
  · intro h0
    ext1 k
    have hk : k ∉ h.hkeys := by rw [Finset.card_eq_zero.mp h0]; simp
    rw [mem_hkeys, not_not] at hk
    rw [hk, hget_empty]
  · rintro rfl; rfl

/-- The hash has a single field exactly when every field it has is that one. -/
theorem hlen_hset_eq_one : (h.hset k v).hlen = 1 ↔ ∀ k', h.hget k' ≠ none → k' = k := by
  rw [hlen, hkeys_hset, Finset.card_eq_one]
  constructor
  · rintro ⟨a, ha⟩ k' hk'
    have hka : k = a := by simpa using (Finset.ext_iff.mp ha k).mp (by simp)
    have hk'a : k' = a := by
      simpa using (Finset.ext_iff.mp ha k').mp
        (Finset.mem_insert_of_mem (mem_hkeys.mpr hk'))
    rw [hka, hk'a]
  · intro hall
    refine ⟨k, Finset.ext fun k' => ?_⟩
    rw [Finset.mem_insert, Finset.mem_singleton, mem_hkeys]
    exact ⟨fun h => h.elim id (hall k'), Or.inl⟩

@[simp] theorem hincrby_snd (h : Hash κ Int) (k : κ) (d : Int) :
    (h.hincrby k d).2 = (h.hget k).getD 0 + d := rfl

@[simp] theorem hincrby_fst (h : Hash κ Int) (k : κ) (d : Int) :
    (h.hincrby k d).1 = h.hset k ((h.hget k).getD 0 + d) := rfl

end Hash

end Pylon.Lib
