import Mathlib.Algebra.Order.Field.Rat
import Mathlib.Algebra.Order.Floor.Ring
import Mathlib.Data.Rat.Floor
import Mathlib.Tactic.Linarith
import Mathlib.Tactic.Positivity
import Pylon.Lib.Reservoir
import Pylon.Lib.Trace

/-!
# The token bucket

`TokenBucket` of `rate.rs`, with exact fractions for the `f64` fields. A bucket refills at
its rate up to its capacity; a take that finds enough tokens removes its cost.

The time of a take is stored as it comes. A take that carries an earlier time than the
stored one finds nothing refilled and sets the stored time back, and the next take is
refilled for that stretch once more: over times that go back and forth a bucket hands out
more than its rate (`bucket_overspends`). With times that never fall behind the stored one
it does not (`bucket_bound`).
-/

namespace Pylon.Rate

open Pylon.Lib

/-- `TokenBucket`. -/
structure TokenBucket where
  ratePerSecond : UInt32
  rate : ℚ
  capacity : ℚ
  tokens : ℚ
  lastNs : Option Nat
  deriving DecidableEq

namespace TokenBucket

def new (ratePerSecond burst : UInt32) : TokenBucket :=
  let capacity : ℚ := (max burst ratePerSecond).toNat
  { ratePerSecond, rate := ratePerSecond.toNat, capacity, tokens := capacity, lastNs := none }

/-- What a stretch of time brings. -/
def refill (b : TokenBucket) (ns : Nat) : ℚ := ns / 1000000000 * b.rate

def refilledAtNs (b : TokenBucket) (nowNs : Nat) : ℚ :=
  match b.lastNs with
  | none => b.capacity
  | some prev => min (b.tokens + b.refill (nowNs - prev)) b.capacity

def takeAtNs (b : TokenBucket) (nowNs : Nat) (cost : UInt32) : TokenBucket × Bool :=
  if b.ratePerSecond = 0 then (b, true)
  else if b.capacity < cost.toNat then (b, false)
  else
    let tokens := b.refilledAtNs nowNs
    let b := { b with lastNs := some nowNs }
    if cost.toNat ≤ tokens then ({ b with tokens := tokens - cost.toNat }, true)
    else ({ b with tokens }, false)

/-- The cast `as u32` cuts the fraction off. -/
def remainingAtNs (b : TokenBucket) (nowNs : Nat) : Nat :=
  if b.ratePerSecond = 0 then 2 ^ 32 - 1
  else min ⌊b.refilledAtNs nowNs⌋₊ (2 ^ 32 - 1)

def retryAfterSecsAtNs (b : TokenBucket) (nowNs : Nat) (cost : UInt32) : Nat :=
  if b.ratePerSecond = 0 then 0
  else
    let deficit := cost.toNat - b.refilledAtNs nowNs
    if deficit ≤ 0 then 0
    else max (min ⌈deficit / b.rate⌉₊ (2 ^ 64 - 1)) 1

/-! ## One take -/

variable {b : TokenBucket} {nowNs : Nat} {cost : UInt32}

theorem refill_add (b : TokenBucket) (m n : Nat) : b.refill (m + n) = b.refill m + b.refill n := by
  rw [refill, refill, refill, Nat.cast_add, add_div, add_mul]

theorem refilledAtNs_some {prev : Nat} (hlast : b.lastNs = some prev) (nowNs : Nat) :
    b.refilledAtNs nowNs = rise b.capacity b.tokens (b.refill (nowNs - prev)) := by
  rw [refilledAtNs, hlast]
  rfl

/-- A take the bucket has room for stores its time. -/
theorem takeAtNs_eq (hrate : b.ratePerSecond ≠ 0) (hcost : cost.toNat ≤ b.capacity) :
    b.takeAtNs nowNs cost =
      ({ b with
          lastNs := some nowNs
          tokens := b.refilledAtNs nowNs -
            if cost.toNat ≤ b.refilledAtNs nowNs then (cost.toNat : ℚ) else 0 },
        decide (cost.toNat ≤ b.refilledAtNs nowNs)) := by
  unfold takeAtNs
  rw [if_neg hrate, if_neg (not_lt.mpr hcost)]
  by_cases htaken : cost.toNat ≤ b.refilledAtNs nowNs
  · rw [if_pos htaken, if_pos htaken, decide_eq_true htaken]
  · rw [if_neg htaken, if_neg htaken, decide_eq_false htaken, sub_zero]

theorem takeAtNs_of_lt (hrate : b.ratePerSecond ≠ 0) (hcost : b.capacity < cost.toNat) :
    b.takeAtNs nowNs cost = (b, false) := by
  unfold takeAtNs
  rw [if_neg hrate, if_pos hcost]

/-- The bucket between two takes. -/
structure Sound (b : TokenBucket) : Prop where
  rate : b.rate = b.ratePerSecond.toNat
  nonneg : 0 ≤ b.tokens
  room : b.tokens ≤ b.capacity

theorem Sound.new (ratePerSecond burst : UInt32) : (TokenBucket.new ratePerSecond burst).Sound :=
  ⟨rfl, Nat.cast_nonneg _, le_refl _⟩

theorem Sound.refill_nonneg (h : b.Sound) (ns : Nat) : 0 ≤ b.refill ns := by
  rw [refill, h.rate]
  positivity

theorem Sound.refilled_nonneg (h : b.Sound) (nowNs : Nat) : 0 ≤ b.refilledAtNs nowNs := by
  have hcapacity : 0 ≤ b.capacity := le_trans h.nonneg h.room
  unfold refilledAtNs
  cases b.lastNs with
  | none => exact hcapacity
  | some => exact le_min (add_nonneg h.nonneg (h.refill_nonneg _)) hcapacity

theorem refilled_le_capacity (b : TokenBucket) (nowNs : Nat) :
    b.refilledAtNs nowNs ≤ b.capacity := by
  unfold refilledAtNs
  cases b.lastNs with
  | none => exact le_refl _
  | some => exact min_le_right _ _

/-- A take neither overfills the bucket nor overdraws it. -/
theorem Sound.take (h : b.Sound) (nowNs : Nat) (cost : UInt32) :
    (b.takeAtNs nowNs cost).1.Sound := by
  by_cases hrate : b.ratePerSecond = 0
  · unfold takeAtNs
    rw [if_pos hrate]
    exact h
  · by_cases hcost : b.capacity < cost.toNat
    · rw [takeAtNs_of_lt hrate hcost]
      exact h
    · rw [takeAtNs_eq hrate (not_lt.mp hcost)]
      have hcap := b.refilled_le_capacity nowNs
      have hpos := h.refilled_nonneg nowNs
      refine ⟨h.rate, ?_, ?_⟩
      · show 0 ≤ b.refilledAtNs nowNs - _
        split
        · linarith
        · linarith
      · show b.refilledAtNs nowNs - _ ≤ b.capacity
        have hspent : (0 : ℚ) ≤ cost.toNat := Nat.cast_nonneg _
        split
        · linarith
        · linarith

end TokenBucket

/-! ## Sequences of takes -/

/-- One call of `take_at_ns`. -/
structure Take where
  nowNs : Nat
  cost : UInt32
  deriving DecidableEq

namespace TokenBucket

def takeStep (b : TokenBucket) (t : Take) : TokenBucket := (b.takeAtNs t.nowNs t.cost).1

/-- The cost of a take that is admitted. -/
def admits (b : TokenBucket) (t : Take) : List Nat :=
  if (b.takeAtNs t.nowNs t.cost).2 then [t.cost.toNat] else []

/-- The total cost that a sequence of takes is granted. -/
def admitted (b : TokenBucket) (ts : List Take) : Nat := (outputs takeStep admits b ts).sum

theorem admitted_cons (b : TokenBucket) (t : Take) (ts : List Take) :
    b.admitted (t :: ts) = (b.admits t).sum + (b.takeStep t).admitted ts := by
  unfold admitted
  rw [outputs, List.sum_append]

/-- A take that the bucket looks at does not carry an earlier time than the stored one. -/
def Forward (b : TokenBucket) (t : Take) : Prop :=
  (t.cost.toNat : ℚ) ≤ b.capacity → ∀ prev ∈ b.lastNs, prev ≤ t.nowNs

instance (b : TokenBucket) (t : Take) : Decidable (b.Forward t) :=
  inferInstanceAs (Decidable (_ → ∀ _ ∈ _, _))

variable {b : TokenBucket}

/-- A take the bucket has room for: what it is granted is what the tokens go down by. -/
theorem takeStep_spec {t : Take} (hrate : b.ratePerSecond ≠ 0)
    (hcost : (t.cost.toNat : ℚ) ≤ b.capacity) :
    (b.takeStep t).lastNs = some t.nowNs ∧ (b.takeStep t).ratePerSecond = b.ratePerSecond ∧
      (b.takeStep t).refill = b.refill ∧
      ((b.admits t).sum : ℚ) + (b.takeStep t).tokens = b.refilledAtNs t.nowNs := by
  rw [takeStep, admits, takeAtNs_eq hrate hcost]
  refine ⟨rfl, rfl, rfl, ?_⟩
  by_cases htaken : (t.cost.toNat : ℚ) ≤ b.refilledAtNs t.nowNs
  · simp [htaken]
  · simp [htaken]

theorem takeStep_of_lt {t : Take} (hrate : b.ratePerSecond ≠ 0)
    (hcost : b.capacity < t.cost.toNat) :
    b.takeStep t = b ∧ b.admits t = [] := by
  rw [takeStep, admits, takeAtNs_of_lt hrate hcost]
  exact ⟨rfl, rfl⟩

/-- Where every take looked at finds at most `held` and what came in since `lo`, no more is
granted. -/
theorem admitted_le (hsound : b.Sound) (hrate : b.ratePerSecond ≠ 0) {lo hi : Nat} {held : ℚ}
    (hheld : 0 ≤ held) (ts : List Take) (hforward : Along takeStep Forward b ts)
    (hhi : ∀ t ∈ ts, t.nowNs ≤ hi)
    (hlook : ∀ t ∈ ts, (t.cost.toNat : ℚ) ≤ b.capacity → b.Forward t →
      lo ≤ t.nowNs ∧ b.refilledAtNs t.nowNs ≤ held + b.refill (t.nowNs - lo)) :
    (b.admitted ts : ℚ) ≤ held + b.refill (hi - lo) := by
  induction ts generalizing b lo held with
  | nil =>
    show ((0 : Nat) : ℚ) ≤ _
    have hgain := hsound.refill_nonneg (hi - lo)
    push_cast
    linarith
  | cons t ts ih =>
    obtain ⟨hnow, hrest⟩ := hforward
    have hts : ∀ t' ∈ ts, t'.nowNs ≤ hi := fun t' ht' => hhi t' (List.mem_cons_of_mem _ ht')
    by_cases hcost : b.capacity < t.cost.toNat
    · -- a take over the capacity is refused unseen
      obtain ⟨hsame, hnone⟩ := takeStep_of_lt hrate hcost
      rw [hsame] at hrest
      rw [admitted_cons, hsame, hnone, List.sum_nil, Nat.zero_add]
      exact ih hsound hrate hheld hrest hts fun t' ht' => hlook t' (List.mem_cons_of_mem _ ht')
    · -- the take restarts the clock, with what it leaves in the bucket
      have hroom : (t.cost.toNat : ℚ) ≤ b.capacity := not_lt.mp hcost
      obtain ⟨hlo, hgain⟩ := hlook t List.mem_cons_self hroom hnow
      have hthi : t.nowNs ≤ hi := hhi t List.mem_cons_self
      obtain ⟨hlast, hrate', hrefill, hpaid⟩ := takeStep_spec hrate hroom
      have hsound' : (b.takeStep t).Sound := hsound.take t.nowNs t.cost
      have hlater := ih hsound' (hrate' ▸ hrate) hsound'.nonneg hrest hts
        fun t' _ hroom' hnow' => ⟨hnow' hroom' _ hlast, by
          rw [refilledAtNs_some hlast]
          exact rise_le_add⟩
      have hstretch : b.refill (hi - lo) = b.refill (t.nowNs - lo) + b.refill (hi - t.nowNs) := by
        rw [← refill_add, show t.nowNs - lo + (hi - t.nowNs) = hi - lo by omega]
      rw [hrefill] at hlater
      rw [admitted_cons, Nat.cast_add, hstretch]
      linarith

end TokenBucket

/-! ## The rate bound -/

/-- From the earliest to the latest time of the takes. -/
def span (ts : List Take) : Nat :=
  ((ts.map Take.nowNs).max?.getD 0) - ((ts.map Take.nowNs).min?.getD 0)

/-- The total cost granted stays within the capacity and what the bucket gains from the
earliest to the latest time, as long as no take the bucket looks at carries a time before
the stored one. -/
theorem bucket_bound (ratePerSecond burst : UInt32) (hrate : ratePerSecond ≠ 0) (ts : List Take)
    (hforward : Along TokenBucket.takeStep TokenBucket.Forward (.new ratePerSecond burst) ts) :
    ((TokenBucket.new ratePerSecond burst).admitted ts : ℚ) ≤
      (max burst ratePerSecond).toNat + ratePerSecond.toNat * (span ts / 1000000000) := by
  have hlo : ∀ t ∈ ts, (ts.map Take.nowNs).min?.getD 0 ≤ t.nowNs := fun t ht =>
    List.min?_getD_le_of_mem (List.mem_map_of_mem ht)
  have hhi : ∀ t ∈ ts, t.nowNs ≤ (ts.map Take.nowNs).max?.getD 0 := fun t ht =>
    List.le_max?_getD_of_mem (List.mem_map_of_mem ht)
  rw [mul_comm]
  have hsound := TokenBucket.Sound.new ratePerSecond burst
  refine TokenBucket.admitted_le hsound hrate (hsound.nonneg.trans hsound.room) ts hforward hhi
    fun t ht _ _ => ⟨hlo t ht, ?_⟩
  -- a fresh bucket is full whenever it is first looked at
  exact le_add_of_nonneg_right (hsound.refill_nonneg _)

/-- A burst, and then one take a second. -/
theorem bucket_bound_steady :
    let ts := [⟨5, 3⟩, ⟨5, 1⟩, ⟨1000000005, 1⟩, ⟨2000000005, 9⟩]
    Along TokenBucket.takeStep TokenBucket.Forward (.new 1 3) ts ∧
      (TokenBucket.new 1 3).admitted ts = 4 ∧
      ((TokenBucket.new 1 3).admitted ts : ℚ) ≤
        (max 3 1 : UInt32).toNat + (1 : UInt32).toNat * (span ts / 1000000000) :=
  ⟨by decide +kernel, by decide +kernel, bucket_bound 1 3 (by decide) _ (by decide +kernel)⟩

/-- The takes of one second, one of them late twice: a bucket of one token a second grants
three in it. -/
theorem bucket_overspends :
    let ts := [⟨1000000000, 1⟩, ⟨0, 1⟩, ⟨1000000000, 1⟩, ⟨0, 1⟩, ⟨1000000000, 1⟩]
    ¬ ((TokenBucket.new 1 1).admitted ts : ℚ) ≤
      (max 1 1 : UInt32).toNat + (1 : UInt32).toNat * (span ts / 1000000000) := by
  decide +kernel

end Pylon.Rate
