import Pylon.Lib.Hash
import Pylon.Rate.TokenBucket

/-!
# Rate limits of the REST API

`decide` of `http/rest/ratelimit.rs`, which every limit of `RestRateLimits` ends in: it
takes from the bucket of the node, or of an app's events or reads, and when it refuses it
says when to try again. The bucket is the one made for the present rate.

`retry_after_exact`: the seconds of a refusal are the least number that is enough, and a
refusal leaves no trace, since a bucket that has been looked at (`Alike`) refills as if it
had not.
-/

namespace Pylon.Rate

open Pylon.Lib

structure RateHeaders where
  limit : UInt32
  remaining : Nat
  retryAfterSecs : Nat
  deriving DecidableEq

inductive RateDecision where
  | allowed
  | limited (headers : RateHeaders)
  deriving DecidableEq

namespace RestRateLimits

/-- `decide`, under the lock of the bucket. -/
def decide (b : TokenBucket) (nowNs : Nat) (cost : UInt32) : TokenBucket × RateDecision :=
  let r := b.takeAtNs nowNs cost
  if r.2 then (r.1, .allowed)
  else
    (r.1, .limited
      { limit := r.1.ratePerSecond
        remaining := r.1.remainingAtNs nowNs
        retryAfterSecs := max (r.1.retryAfterSecsAtNs nowNs cost) 1 })

end RestRateLimits

theorem RestRateLimits.decide_fst (b : TokenBucket) (nowNs : Nat) (cost : UInt32) :
    (RestRateLimits.decide b nowNs cost).1 = (b.takeAtNs nowNs cost).1 := by
  unfold RestRateLimits.decide
  dsimp only
  split <;> rfl

/-! ## A bucket that has been looked at -/

namespace TokenBucket

/-- From `fromNs` on the two buckets cannot be told apart. -/
structure Alike (fromNs : Nat) (b b' : TokenBucket) : Prop where
  ratePerSecond : b'.ratePerSecond = b.ratePerSecond
  rate : b'.rate = b.rate
  capacity : b'.capacity = b.capacity
  refilled : ∀ nowNs, fromNs ≤ nowNs → b'.refilledAtNs nowNs = b.refilledAtNs nowNs

theorem Alike.refl (fromNs : Nat) (b : TokenBucket) : Alike fromNs b b :=
  ⟨rfl, rfl, rfl, fun _ _ => rfl⟩

variable {fromNs : Nat} {b b' : TokenBucket}

theorem Alike.take (h : Alike fromNs b b') {nowNs : Nat} (hnow : fromNs ≤ nowNs) (cost : UInt32) :
    Alike nowNs (b.takeAtNs nowNs cost).1 (b'.takeAtNs nowNs cost).1 ∧
      (b'.takeAtNs nowNs cost).2 = (b.takeAtNs nowNs cost).2 := by
  have hkept : Alike nowNs b b' :=
    ⟨h.ratePerSecond, h.rate, h.capacity,
      fun later hlater => h.refilled later (le_trans hnow hlater)⟩
  by_cases hrate : b.ratePerSecond = 0
  · unfold takeAtNs
    rw [if_pos hrate, if_pos (h.ratePerSecond.trans hrate)]
    exact ⟨hkept, rfl⟩
  · have hrate' : b'.ratePerSecond ≠ 0 := h.ratePerSecond ▸ hrate
    by_cases hcost : b.capacity < cost.toNat
    · rw [takeAtNs_of_lt hrate hcost, takeAtNs_of_lt hrate' (h.capacity ▸ hcost)]
      exact ⟨hkept, rfl⟩
    · have hroom : (cost.toNat : ℚ) ≤ b.capacity := not_lt.mp hcost
      -- both store the same time and the same tokens
      have hsame : b'.takeAtNs nowNs cost = b.takeAtNs nowNs cost := by
        rw [takeAtNs_eq hrate hroom, takeAtNs_eq hrate' (h.capacity ▸ hroom), h.refilled nowNs hnow,
          h.ratePerSecond, h.rate, h.capacity]
      rw [hsame]
      exact ⟨Alike.refl _ _, rfl⟩

/-- A refused take only looks. -/
theorem alike_of_refused (hsound : b.Sound) {nowNs : Nat} (hlast : ∀ prev ∈ b.lastNs, prev ≤ nowNs)
    {cost : UInt32} (hrefused : (b.takeAtNs nowNs cost).2 = false) :
    Alike nowNs b (b.takeAtNs nowNs cost).1 := by
  by_cases hrate : b.ratePerSecond = 0
  · unfold takeAtNs
    rw [if_pos hrate]
    exact Alike.refl _ _
  · by_cases hcost : b.capacity < cost.toNat
    · rw [takeAtNs_of_lt hrate hcost]
      exact Alike.refl _ _
    · have hstep : b.takeAtNs nowNs cost = _ := takeAtNs_eq hrate (not_lt.mp hcost)
      rw [hstep] at hrefused ⊢
      have hshort : ¬ (cost.toNat : ℚ) ≤ b.refilledAtNs nowNs := of_decide_eq_false hrefused
      rw [if_neg hshort, sub_zero]
      refine ⟨rfl, rfl, rfl, fun later hlater => ?_⟩
      have hgain := hsound.refill_nonneg (later - nowNs)
      show rise b.capacity (b.refilledAtNs nowNs) (b.refill (later - nowNs)) = _
      cases hprev : b.lastNs with
      | none =>
        rw [refilledAtNs, refilledAtNs, hprev]
        exact min_eq_right (le_add_of_nonneg_right hgain)
      | some prev =>
        have hago : prev ≤ nowNs := hlast prev hprev
        rw [refilledAtNs_some hprev, refilledAtNs_some hprev, rise_rise hgain, ← refill_add,
          show nowNs - prev + (later - nowNs) = later - prev by omega]

end TokenBucket

open TokenBucket

namespace RestRateLimits

def decideStep (b : TokenBucket) (t : Take) : TokenBucket := (decide b t.nowNs t.cost).1

/-- The decisions on a sequence of requests. -/
def decisions (b : TokenBucket) (ts : List Take) : List RateDecision :=
  outputs decideStep (fun b t => [(decide b t.nowNs t.cost).2]) b ts

variable {b : TokenBucket}

theorem decide_alike {fromNs : Nat} {b' : TokenBucket} (h : Alike fromNs b b') {nowNs : Nat}
    (hnow : fromNs ≤ nowNs) (cost : UInt32) :
    Alike nowNs (decide b nowNs cost).1 (decide b' nowNs cost).1 ∧
      (decide b' nowNs cost).2 = (decide b nowNs cost).2 := by
  obtain ⟨halike, htaken⟩ := h.take hnow cost
  rw [decide_fst, decide_fst]
  refine ⟨halike, ?_⟩
  have hlevel := halike.refilled nowNs (le_refl nowNs)
  unfold decide
  dsimp only
  rw [htaken]
  split
  · rfl
  · simp only [remainingAtNs, retryAfterSecsAtNs, hlevel, halike.ratePerSecond, halike.rate]

/-- Alike buckets decide alike for as long as time does not go back. -/
theorem decisions_alike {fromNs : Nat} {b' : TokenBucket} (h : Alike fromNs b b') (ts : List Take)
    (hts : (fromNs :: ts.map Take.nowNs).Pairwise (· ≤ ·)) : decisions b' ts = decisions b ts := by
  induction ts generalizing fromNs b b' with
  | nil => rfl
  | cons t _ ih =>
    rw [List.map_cons, List.pairwise_cons] at hts
    obtain ⟨hnext, hsame⟩ := decide_alike h (hts.1 t.nowNs List.mem_cons_self) t.cost
    have hrest := ih hnext hts.2
    unfold decisions at hrest ⊢
    rw [outputs, outputs, hsame]
    exact congrArg _ hrest

theorem decide_allowed_iff {nowNs : Nat} {cost : UInt32} :
    (decide b nowNs cost).2 = .allowed ↔ (b.takeAtNs nowNs cost).2 = true := by
  unfold decide
  dsimp only
  split
  · next htaken => simp [htaken]
  · next htaken => simp [htaken]

end RestRateLimits

/-! ## When to try again -/

namespace TokenBucket

variable {b : TokenBucket} {nowNs : Nat}

/-- What the bucket lacks, in seconds of its rate and rounded up. -/
theorem retryAfterSecs_eq (hsound : b.Sound) (hrate : b.ratePerSecond ≠ 0) {cost : UInt32}
    (hshort : b.refilledAtNs nowNs < cost.toNat) :
    b.retryAfterSecsAtNs nowNs cost = ⌈(cost.toNat - b.refilledAtNs nowNs) / b.rate⌉₊ ∧
      1 ≤ b.retryAfterSecsAtNs nowNs cost := by
  have hdeficit : ¬ (cost.toNat - b.refilledAtNs nowNs ≤ 0) := not_le.mpr (sub_pos.mpr hshort)
  have hone : (1 : ℚ) ≤ b.rate := by
    rw [hsound.rate]
    exact_mod_cast Nat.one_le_iff_ne_zero.mpr fun h => hrate (UInt32.toNat_inj.mp h)
  have hpos : 0 < (cost.toNat - b.refilledAtNs nowNs) / b.rate :=
    div_pos (not_le.mp hdeficit) (lt_of_lt_of_le one_pos hone)
  -- the cast does not saturate: a `u32` at a rate of at least one
  have hfits : ⌈(cost.toNat - b.refilledAtNs nowNs) / b.rate⌉₊ ≤ 2 ^ 64 - 1 := by
    rw [Nat.ceil_le]
    have hcost : (cost.toNat : ℚ) ≤ 2 ^ 32 := by exact_mod_cast cost.toNat_lt.le
    have hheld := hsound.refilled_nonneg nowNs
    calc (cost.toNat - b.refilledAtNs nowNs) / b.rate
        ≤ cost.toNat - b.refilledAtNs nowNs := div_le_self (not_le.mp hdeficit).le hone
      _ ≤ 2 ^ 32 := by linarith
      _ ≤ ((2 ^ 64 - 1 : Nat) : ℚ) := by norm_num
  unfold retryAfterSecsAtNs
  rw [if_neg hrate, if_neg hdeficit, min_eq_left hfits]
  exact ⟨max_eq_left (Nat.one_le_ceil_iff.mpr hpos), le_max_right _ _⟩

theorem refill_secs (b : TokenBucket) (secs : Nat) :
    b.refill (secs * 1000000000) = secs * b.rate := by
  unfold refill
  push_cast
  rw [mul_div_assoc, div_self (by norm_num), mul_one]

/-- A bucket that is short of the cost now has it after the seconds it names, and a second
before that it does not. -/
theorem payable_iff (hsound : b.Sound) (hrate : b.ratePerSecond ≠ 0) (hlast : b.lastNs = some nowNs)
    {cost : UInt32} (hshort : b.tokens < cost.toNat) (hroom : (cost.toNat : ℚ) ≤ b.capacity)
    (secs : Nat) :
    cost.toNat ≤ b.refilledAtNs (nowNs + secs * 1000000000) ↔
      b.retryAfterSecsAtNs nowNs cost ≤ secs := by
  have hnow : b.refilledAtNs nowNs = b.tokens := by
    have hnone : b.refill 0 = 0 := by simp [refill]
    rw [refilledAtNs_some hlast, Nat.sub_self, hnone, rise_zero hsound.room]
  have hpos : (0 : ℚ) < b.rate := by
    rw [hsound.rate]
    exact_mod_cast Nat.pos_of_ne_zero fun h => hrate (UInt32.toNat_inj.mp h)
  obtain ⟨hsecs, -⟩ := retryAfterSecs_eq hsound hrate (hnow ▸ hshort)
  have hlater : b.refilledAtNs (nowNs + secs * 1000000000) =
      rise b.capacity b.tokens (secs * b.rate) := by
    rw [refilledAtNs_some hlast, Nat.add_sub_cancel_left, refill_secs]
  rw [hsecs, hnow, Nat.ceil_le, div_le_iff₀ hpos, hlater]
  constructor
  · intro hpaid
    have hgain := le_trans hpaid rise_le_add
    linarith
  · intro hgain
    exact le_rise hroom (by linarith)

theorem refilled_mono (hsound : b.Sound) {later : Nat} (h : nowNs ≤ later) :
    b.refilledAtNs nowNs ≤ b.refilledAtNs later := by
  cases hlast : b.lastNs with
  | none =>
    rw [refilledAtNs, refilledAtNs, hlast]
  | some prev =>
    rw [refilledAtNs_some hlast, refilledAtNs_some hlast]
    have hstretch : b.refill (later - prev) =
        b.refill (nowNs - prev) + b.refill (later - prev - (nowNs - prev)) := by
      rw [← refill_add, show nowNs - prev + (later - prev - (nowNs - prev)) = later - prev by omega]
    have hmore := hsound.refill_nonneg (later - prev - (nowNs - prev))
    have hup : b.tokens + b.refill (nowNs - prev) ≤ b.tokens + b.refill (later - prev) := by
      linarith
    exact le_rise rise_le_brim (le_trans rise_le_add hup)

end TokenBucket

namespace RestRateLimits

theorem history_sound (ratePerSecond burst : UInt32) (history : List Take) :
    (run decideStep (.new ratePerSecond burst) history).Sound := by
  refine run_invariant (fun b t h => ?_) (Sound.new ratePerSecond burst) history
  rw [decideStep, decide_fst]
  exact h.take t.nowNs t.cost

theorem takeAtNs_lastNs (b : TokenBucket) (nowNs : Nat) (cost : UInt32) :
    (b.takeAtNs nowNs cost).1.lastNs = b.lastNs ∨
      (b.takeAtNs nowNs cost).1.lastNs = some nowNs := by
  by_cases hrate : b.ratePerSecond = 0
  · left
    unfold takeAtNs
    rw [if_pos hrate]
  · by_cases hcost : b.capacity < cost.toNat
    · left
      rw [takeAtNs_of_lt hrate hcost]
    · right
      rw [takeAtNs_eq hrate (not_lt.mp hcost)]

/-- A refusal moves the clock, and leaves less than was asked for. -/
theorem refused_spec {b : TokenBucket} (hrate : b.ratePerSecond ≠ 0) {nowNs : Nat} {cost : UInt32}
    (hroom : (cost.toNat : ℚ) ≤ b.capacity) (hrefused : (b.takeAtNs nowNs cost).2 = false) :
    (b.takeAtNs nowNs cost).1.lastNs = some nowNs ∧
      (b.takeAtNs nowNs cost).1.capacity = b.capacity ∧
      (b.takeAtNs nowNs cost).1.ratePerSecond = b.ratePerSecond ∧
      (b.takeAtNs nowNs cost).1.tokens < cost.toNat := by
  have hstep : b.takeAtNs nowNs cost = _ := takeAtNs_eq hrate hroom
  rw [hstep] at hrefused ⊢
  have hshort : ¬ (cost.toNat : ℚ) ≤ b.refilledAtNs nowNs := of_decide_eq_false hrefused
  refine ⟨rfl, rfl, rfl, ?_⟩
  show b.refilledAtNs nowNs - _ < _
  rw [if_neg hshort, sub_zero]
  exact not_le.mp hshort

theorem retryAfterSecs_of_limited {b : TokenBucket} {nowNs : Nat} {cost : UInt32}
    {headers : RateHeaders} (h : (decide b nowNs cost).2 = .limited headers) :
    headers.retryAfterSecs =
      max ((b.takeAtNs nowNs cost).1.retryAfterSecsAtNs nowNs cost) 1 := by
  unfold decide at h
  dsimp only at h
  split at h
  · cases h
  · cases h
    rfl

theorem history_last (b : TokenBucket) (history : List Take) :
    ∀ prev ∈ (run decideStep b history).lastNs,
      prev ∈ b.lastNs ∨ prev ∈ history.map Take.nowNs := by
  induction history generalizing b with
  | nil => exact fun prev hprev => .inl hprev
  | cons t _ ih =>
    intro prev hprev
    rcases ih (decideStep b t) prev hprev with hfirst | hlater
    · rw [decideStep, decide_fst] at hfirst
      rcases takeAtNs_lastNs b t.nowNs t.cost with hsame | hnow
      · rw [hsame] at hfirst
        exact .inl hfirst
      · rw [hnow] at hfirst
        right
        rw [List.map_cons, Option.mem_some.mp hfirst]
        exact List.mem_cons_self
    · exact .inr (List.mem_cons_of_mem _ hlater)

end RestRateLimits

open RestRateLimits in
/-- A refusal at any point of a history whose times do not go back. If the bucket can ever
pay the cost, the seconds it names are enough from then on and one less is not; and
whatever is asked later is decided as if the refused request had not been made. -/
theorem retry_after_exact (ratePerSecond burst : UInt32) (history : List Take) (t : Take)
    (headers : RateHeaders) (hordered : ((history ++ [t]).map Take.nowNs).Pairwise (· ≤ ·)) :
    let b := run decideStep (.new ratePerSecond burst) history
    let b' := (RestRateLimits.decide b t.nowNs t.cost).1
    (RestRateLimits.decide b t.nowNs t.cost).2 = .limited headers →
      ((t.cost.toNat : ℚ) ≤ b.capacity →
        (∀ laterNs, t.nowNs + headers.retryAfterSecs * 1000000000 ≤ laterNs →
          (RestRateLimits.decide b' laterNs t.cost).2 = .allowed) ∧
        (1 < headers.retryAfterSecs →
          (RestRateLimits.decide b'
            (t.nowNs + (headers.retryAfterSecs - 1) * 1000000000) t.cost).2 ≠ .allowed)) ∧
      ∀ later : List Take, ((t :: later).map Take.nowNs).Pairwise (· ≤ ·) →
        decisions b' later = decisions b later := by
  intro b b' hlimited
  have hsound : b.Sound := history_sound ratePerSecond burst history
  have hlast : ∀ prev ∈ b.lastNs, prev ≤ t.nowNs := by
    intro prev hprev
    rw [List.map_append, List.pairwise_append] at hordered
    rcases history_last _ history prev hprev with hnew | hmem
    · cases hnew
    · exact hordered.2.2 prev hmem t.nowNs List.mem_cons_self
  have hrefused : (b.takeAtNs t.nowNs t.cost).2 = false := by
    rw [Bool.eq_false_iff]
    intro htaken
    rw [decide_allowed_iff.mpr htaken] at hlimited
    cases hlimited
  have hb' : b' = (b.takeAtNs t.nowNs t.cost).1 := decide_fst _ _ _
  refine ⟨fun hroom => ?_, fun later hlater => ?_⟩
  · have hrate : b.ratePerSecond ≠ 0 := by
      intro hzero
      rw [takeAtNs, if_pos hzero] at hrefused
      cases hrefused
    obtain ⟨hlast', hcapacity, hrate', hshort⟩ := refused_spec hrate hroom hrefused
    rw [← hb'] at hlast' hcapacity hrate' hshort
    have hsound' : b'.Sound := hb' ▸ hsound.take t.nowNs t.cost
    have hpayable := payable_iff hsound' (hrate' ▸ hrate) hlast' hshort (hcapacity ▸ hroom)
    have hsecs : headers.retryAfterSecs = b'.retryAfterSecsAtNs t.nowNs t.cost := by
      have hheaders := retryAfterSecs_of_limited hlimited
      rw [← hb'] at hheaders
      rw [hheaders, max_eq_left]
      by_contra hzero
      have hnow := (hpayable 0).mpr (by omega)
      rw [Nat.zero_mul, Nat.add_zero, refilledAtNs_some hlast', Nat.sub_self,
        show b'.refill 0 = 0 by simp [refill], rise_zero hsound'.room] at hnow
      exact absurd hnow (not_le.mpr hshort)
    have hallowed (laterNs : Nat) : (RestRateLimits.decide b' laterNs t.cost).2 = .allowed ↔
        t.cost.toNat ≤ b'.refilledAtNs laterNs := by
      rw [decide_allowed_iff, takeAtNs_eq (hrate' ▸ hrate) (hcapacity ▸ hroom), decide_eq_true_iff]
    refine ⟨fun laterNs hlater => ?_, fun hone => ?_⟩
    · rw [hallowed]
      exact le_trans ((hpayable _).mpr hsecs.ge) (refilled_mono hsound' hlater)
    · rw [Ne, hallowed, hpayable, ← hsecs]
      omega
  · exact decisions_alike (hb' ▸ alike_of_refused hsound hlast hrefused) later hlater

/-- Ten tokens are gone at the origin; four of them take four seconds. -/
theorem retry_after_exact_slow :
    let b := run RestRateLimits.decideStep (.new 1 10) [⟨0, 10⟩]
    let b' := (RestRateLimits.decide b 0 4).1
    (RestRateLimits.decide b 0 4).2 = .limited ⟨1, 0, 4⟩ ∧
      (RestRateLimits.decide b' 4000000000 4).2 = .allowed ∧
      (RestRateLimits.decide b' 3000000000 4).2 ≠ .allowed ∧
      RestRateLimits.decisions b' [⟨3999999999, 4⟩, ⟨4000000000, 4⟩] =
        RestRateLimits.decisions b [⟨3999999999, 4⟩, ⟨4000000000, 4⟩] := by
  have hlimited :
      (RestRateLimits.decide (run RestRateLimits.decideStep (.new 1 10) [⟨0, 10⟩]) 0 4).2 =
        .limited ⟨1, 0, 4⟩ := by decide +kernel
  obtain ⟨hretry, hlater⟩ := retry_after_exact 1 10 [⟨0, 10⟩] ⟨0, 4⟩ ⟨1, 0, 4⟩ (by decide) hlimited
  obtain ⟨hallowed, hrefused⟩ := hretry (by decide +kernel)
  exact ⟨hlimited, hallowed 4000000000 (by decide), hrefused (by decide), hlater _ (by decide)⟩

end Pylon.Rate
