import Mathlib.Data.Finset.Sort
import Pylon.Lib.Hash

/-!
# Timelines

A timeline files slots under the time each of them is due, so that everything
due by some moment is found without looking at the rest. Its owner keeps the
times elsewhere, by slot; the timeline is an index into that table, and is right
when it files a slot exactly where the table has it.

What each operation does to `Holds` is all a proof needs to know about it.
-/

namespace Pylon.Lib

section Ordered

variable {τ : Type*} [LinearOrder τ]

/-- A set's members in order. Unlike `Finset.sort` it computes by insertion, so
that closed terms reduce. -/
def ordered (s : Finset τ) : List τ :=
  Quot.liftOn s.val (List.insertionSort (· ≤ ·)) fun l l' h => by
    rw [← List.mergeSort_eq_insertionSort, ← List.mergeSort_eq_insertionSort]
    have hperm : (l.mergeSort (· ≤ ·)).Perm (l'.mergeSort (· ≤ ·)) :=
      (List.mergeSort_perm l _).trans (h.trans (List.mergeSort_perm l' _).symm)
    exact hperm.eq_of_pairwise' (List.pairwise_mergeSort' _ l) (List.pairwise_mergeSort' _ l')

theorem ordered_eq_sort (s : Finset τ) : ordered s = s.sort (· ≤ ·) := by
  obtain ⟨⟨l⟩, hl⟩ := s
  exact (List.mergeSort_eq_insertionSort (· ≤ ·) l).symm

end Ordered

/-- Slots by the time they are due, in the order they were filed. -/
abbrev Timeline (τ ι : Type*) := Hash τ (List ι)

namespace Timeline

variable {τ ι : Type*} [LinearOrder τ] [DecidableEq ι]

/-- File a slot at the back of its bucket. -/
def push (t : Timeline τ ι) (time : τ) (slot : ι) : Timeline τ ι :=
  t.hset time ((t.hget time).getD [] ++ [slot])

/-- Take a slot out of its bucket; a bucket left empty goes. -/
def scrub (t : Timeline τ ι) (time : τ) (slot : ι) : Timeline τ ι :=
  match t.hget time with
  | none => t
  | some bucket =>
    let bucket := bucket.filter (· ≠ slot)
    if bucket = [] then t.hdel time else t.hset time bucket

/-- The times below `bound`, in order. -/
def timesBelow (t : Timeline τ ι) (bound : τ) : List τ :=
  ordered (t.hkeys.filter (· < bound))

/-- The buckets below `bound`, in order. -/
def bucketsBelow (t : Timeline τ ι) (bound : τ) : List (τ × List ι) :=
  (t.timesBelow bound).map fun time => (time, (t.hget time).getD [])

/-- What is left when the buckets below `bound` are taken out. -/
def splitOff (t : Timeline τ ι) (bound : τ) : Timeline τ ι :=
  t.hdelAll (t.timesBelow bound)

/-- The slots below `bound`, each with its time. -/
def upTo (t : Timeline τ ι) (bound : τ) : List (τ × ι) :=
  (t.bucketsBelow bound).flatMap fun p => p.2.map fun slot => (p.1, slot)

/-- A slot is filed under a time. -/
def Holds (t : Timeline τ ι) (time : τ) (slot : ι) : Prop :=
  slot ∈ (t.hget time).getD []

/-- No bucket is empty, and none has a slot twice. -/
def Tidy (t : Timeline τ ι) : Prop :=
  ∀ time bucket, t.hget time = some bucket → bucket ≠ [] ∧ bucket.Nodup

section

omit [DecidableEq ι]

theorem tidy_empty : Tidy (∅ : Timeline τ ι) := by
  intro time bucket hget
  rw [Hash.hget_empty] at hget
  cases hget

theorem not_holds_empty (time : τ) (slot : ι) : ¬ Holds (∅ : Timeline τ ι) time slot := by
  simp [Holds]

/-! ## Filing and taking out -/

theorem holds_push (t : Timeline τ ι) (time time' : τ) (slot slot' : ι) :
    (t.push time slot).Holds time' slot' ↔
      t.Holds time' slot' ∨ (time' = time ∧ slot' = slot) := by
  unfold Holds push
  rw [Hash.hget_hset]
  by_cases htime : time' = time
  · simp [htime]
  · simp [htime]

end

variable {t : Timeline τ ι}

omit [DecidableEq ι] in
theorem Tidy.push (h : t.Tidy) {time : τ} {slot : ι} (hnew : ¬ t.Holds time slot) :
    (t.push time slot).Tidy := by
  intro time' bucket hget
  unfold Timeline.push at hget
  rw [Hash.hget_hset] at hget
  split at hget
  next =>
    cases hget
    refine ⟨by simp, ?_⟩
    have hold : ((t.hget time).getD []).Nodup := by
      cases hb : t.hget time with
      | none => exact List.nodup_nil
      | some b => exact (h time b hb).2
    rw [List.nodup_append]
    refine ⟨hold, List.nodup_singleton slot, ?_⟩
    intro a ha b hb heq
    rw [List.mem_singleton] at hb
    subst hb
    subst heq
    exact hnew ha
  next => exact h time' bucket hget

/-- A time goes with its last slot, and no other slot with it. -/
theorem holds_scrub (t : Timeline τ ι) (time time' : τ) (slot slot' : ι) :
    (t.scrub time slot).Holds time' slot' ↔
      t.Holds time' slot' ∧ ¬ (time' = time ∧ slot' = slot) := by
  unfold Holds scrub
  cases hget : t.hget time with
  | none =>
    by_cases htime : time' = time
    · simp [htime, hget]
    · simp [htime]
  | some bucket =>
    dsimp only
    by_cases htime : time' = time
    · subst htime
      split
      next hempty =>
        -- everything in the bucket was this slot
        rw [List.filter_eq_nil_iff] at hempty
        have hall : ∀ a ∈ bucket, a = slot := by simpa using hempty
        simp only [Hash.hget_hdel_self, Option.getD_none, List.not_mem_nil, hget,
          Option.getD_some, true_and, false_iff, not_and, not_not]
        exact hall slot'
      next => simp [hget]
    · split
      next => simp [Hash.hget_hdel_ne, htime]
      next => simp [Hash.hget_hset_ne, htime]

theorem Tidy.scrub (h : t.Tidy) (time : τ) (slot : ι) : (t.scrub time slot).Tidy := by
  unfold Timeline.scrub
  split
  · exact h
  next bucket hbucket =>
    intro time' bucket' hget
    dsimp only at hget
    split at hget
    · rw [Hash.hget_hdel] at hget
      split at hget
      · cases hget
      · exact h time' bucket' hget
    next hne =>
      rw [Hash.hget_hset] at hget
      split at hget
      · cases hget
        exact ⟨hne, (h time bucket hbucket).2.filter _⟩
      · exact h time' bucket' hget

/-! ## What is due -/

section

omit [DecidableEq ι]

theorem mem_timesBelow (t : Timeline τ ι) (bound time : τ) :
    time ∈ t.timesBelow bound ↔ t.hget time ≠ none ∧ time < bound := by
  rw [timesBelow, ordered_eq_sort, Finset.mem_sort, Finset.mem_filter, Hash.mem_hkeys]

theorem holds_splitOff (t : Timeline τ ι) (bound time : τ) (slot : ι) :
    (t.splitOff bound).Holds time slot ↔ t.Holds time slot ∧ ¬ time < bound := by
  unfold Holds splitOff
  rw [Hash.hget_hdelAll]
  by_cases hin : time ∈ t.timesBelow bound
  · simp [hin, ((mem_timesBelow t bound time).mp hin).2]
  · rw [if_neg hin]
    rw [mem_timesBelow, not_and] at hin
    refine ⟨fun hslot => ⟨hslot, hin ?_⟩, fun h => h.1⟩
    intro hnone
    simp [hnone] at hslot

theorem Tidy.splitOff (h : t.Tidy) (bound : τ) : (t.splitOff bound).Tidy := by
  intro time bucket hget
  unfold Timeline.splitOff at hget
  rw [Hash.hget_hdelAll] at hget
  split at hget
  · cases hget
  · exact h time bucket hget

theorem mem_upTo (t : Timeline τ ι) (bound time : τ) (slot : ι) :
    (time, slot) ∈ t.upTo bound ↔ t.Holds time slot ∧ time < bound := by
  unfold upTo bucketsBelow Holds
  simp only [List.mem_flatMap, List.mem_map, mem_timesBelow, Prod.exists, Prod.mk.injEq]
  constructor
  · rintro ⟨time', bucket, ⟨_, ⟨-, hlt⟩, rfl, rfl⟩, slot', hslot, rfl, rfl⟩
    exact ⟨hslot, hlt⟩
  · rintro ⟨hslot, hlt⟩
    refine ⟨time, _, ⟨time, ⟨?_, hlt⟩, rfl, rfl⟩, slot, hslot, rfl, rfl⟩
    intro hnone
    simp [hnone] at hslot

/-- What is due comes in the order of the times. -/
theorem upTo_pairwise (t : Timeline τ ι) (bound : τ) :
    (t.upTo bound).Pairwise fun p q => p.1 ≤ q.1 := by
  unfold upTo bucketsBelow
  rw [List.flatMap_map, List.pairwise_flatMap]
  constructor
  · intro time _
    rw [List.pairwise_map]
    exact List.pairwise_of_forall fun _ _ => le_rfl
  · rw [timesBelow, ordered_eq_sort]
    refine (Finset.pairwise_sort _ _).imp ?_
    intro time time' hle p hp q hq
    obtain ⟨_, -, rfl⟩ := List.mem_map.mp hp
    obtain ⟨_, -, rfl⟩ := List.mem_map.mp hq
    exact hle

theorem Tidy.upTo_nodup (h : t.Tidy) (bound : τ) : (t.upTo bound).Nodup := by
  unfold upTo bucketsBelow
  rw [List.flatMap_map, List.nodup_flatMap]
  constructor
  · intro time htime
    obtain ⟨bucket, hbucket⟩ :=
      Option.ne_none_iff_exists'.mp ((mem_timesBelow t bound time).mp htime).1
    rw [hbucket]
    exact (h time bucket hbucket).2.map fun _ _ heq => (Prod.mk.inj heq).2
  · rw [timesBelow, ordered_eq_sort]
    refine (Finset.sort_nodup _ _).imp ?_
    intro time time' hne p hp hq
    obtain ⟨_, -, rfl⟩ := List.mem_map.mp hp
    obtain ⟨_, -, heq⟩ := List.mem_map.mp hq
    exact hne (Prod.mk.inj heq).1.symm

end

end Timeline

end Pylon.Lib
