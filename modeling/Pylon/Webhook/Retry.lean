import Pylon.Webhook.Transport

/-!
# The retry loop

What the delivery task does over a whole run, whatever the attempts return and
however the clock advances between two of its readings (`Lawful`).

The budget is compared with one reading and subtracted from with the next. When
more than a millisecond past the budget goes by in between, the subtraction
underflows and the sleep is not clamped. As long as it does not (`InBudget`):

* **backoff** — sleep `k` is the first delay doubled `k` times, within the cap and
  within what is left of the budget;
* **the budget** — a sleep takes at least a millisecond or ends at the budget, so
  there are at most as many retries as milliseconds;
* **the ending** — the task is over after so many steps, and it has counted one
  outcome.
-/

namespace Pylon.Webhook

open Pylon.Lib

/-! ## Time -/

/-- When the next step can be taken at the earliest. -/
def Task.due (s : Task) : Nat :=
  match s.phase with
  | .sleeping d => s.clock + d * 10 ^ 6
  | _ => s.clock

/-- The clock does not go back, and a sleep takes at least its time. -/
def Lawful (s : Task) (m : Moment) : Prop := s.due ≤ m.now

instance (s : Task) (m : Moment) : Decidable (Lawful s m) := inferInstanceAs (Decidable (_ ≤ _))

variable {m : Moment}

theorem Lawful.clock_le {s : Task} (h : Lawful s m) : s.clock ≤ m.now := by
  unfold Lawful Task.due at h
  split at h <;> omega

theorem Lawful.slept {s : Task} (h : Lawful s m) {d : Nat} (hphase : s.phase = .sleeping d) :
    s.clock + d * 10 ^ 6 ≤ m.now := by
  simpa only [Lawful, Task.due, hphase] using h

/-- The time the budget is reduced by is not more than the budget. -/
def InBudget (t : HttpTransport) (s : Task) (m : Moment) : Prop :=
  s.phase = .measuring → (m.now - s.start) / 10 ^ 6 ≤ t.retryBudgetMs

instance (t : HttpTransport) (s : Task) (m : Moment) : Decidable (InBudget t s m) :=
  inferInstanceAs (Decidable (_ → _))

/-- The delay before retry `k + 1`. -/
def HttpTransport.delay (t : HttpTransport) (k : Nat) : Nat :=
  min (max 1 t.backoffBaseMs * 2 ^ k) t.backoffCapMs

/-- A sleep as it is meant: the delay, clamped to what is left. -/
def HttpTransport.Clamped (t : HttpTransport) (k : Nat) (sleep : Sleep) : Prop :=
  sleep.ms = min (t.delay k) (t.retryBudgetMs - sleep.elapsed / 10 ^ 6) ∧
    sleep.elapsed + sleep.ms * 10 ^ 6 < (t.retryBudgetMs + 1) * 10 ^ 6

theorem HttpTransport.delay_pos (t : HttpTransport) (k : Nat) : 0 < t.delay k := by
  have hprod : 0 < max 1 t.backoffBaseMs * 2 ^ k := Nat.mul_pos (by omega) (Nat.two_pow_pos k)
  have hcap := t.cap_pos
  rw [delay]
  omega

/-- Doubling does not saturate below the cap. -/
theorem HttpTransport.delay_succ (t : HttpTransport) (k : Nat) :
    min (saturatingMul (t.delay k) 2) t.backoffCapMs = t.delay (k + 1) := by
  have hcap := t.cap_lt
  have hpow : max 1 t.backoffBaseMs * 2 ^ (k + 1) = max 1 t.backoffBaseMs * 2 ^ k * 2 := by
    rw [Nat.pow_succ, Nat.mul_assoc]
  rw [delay, delay, saturatingMul, hpow]
  omega

/-- Within the budget nothing wraps around. -/
theorem wrappingSub_asMillis {t : HttpTransport} {elapsed : Nat}
    (h : elapsed / 10 ^ 6 ≤ t.retryBudgetMs) :
    asMillis elapsed = elapsed / 10 ^ 6 ∧
      wrappingSub t.retryBudgetMs (asMillis elapsed) = t.retryBudgetMs - elapsed / 10 ^ 6 := by
  have hbudget := t.budget_lt
  have hms : asMillis elapsed = elapsed / 10 ^ 6 := Nat.mod_eq_of_lt (by omega)
  refine ⟨hms, ?_⟩
  rw [hms, wrappingSub]
  omega

/-! ## The invariant -/

section Invariant

variable (t : HttpTransport) (s : Task)

/-- By `now`, each sleep of the task has taken a millisecond, or the budget is
spent. -/
def Spent (now : Nat) : Prop :=
  s.start + min s.sleeps.length t.retryBudgetMs * 10 ^ 6 ≤ now

/-- What holds in each phase: how many attempts go with the sleeps, which delay is
next, and how much time has passed. -/
def InPhase : Prop :=
  match s.phase with
  | .preflight | .acquiring => s.attempts = [] ∧ s.sleeps = []
  | .posting | .checking =>
    s.attempts.length = s.sleeps.length + 1 ∧ s.delayMs = t.delay s.sleeps.length ∧
      Spent t s s.clock
  | .measuring =>
    s.attempts.length = s.sleeps.length + 1 ∧ s.delayMs = t.delay s.sleeps.length ∧
      Spent t s s.clock ∧ s.sleeps.length < t.retryBudgetMs
  | .sleeping d =>
    s.attempts.length = s.sleeps.length ∧
      min (saturatingMul s.delayMs 2) t.backoffCapMs = t.delay s.sleeps.length ∧
      Spent t s (s.clock + d * 10 ^ 6)
  | .reacquiring =>
    s.attempts.length = s.sleeps.length ∧ s.delayMs = t.delay s.sleeps.length ∧ Spent t s s.clock
  | .done => s.attempts.length ≤ s.sleeps.length + 1

/-- The task is sound. -/
structure Sound : Prop where
  calm : s.underflowed = false
  clamped : ∀ k sleep, s.sleeps[k]? = some sleep → t.Clamped k sleep
  within : s.sleeps.length ≤ t.retryBudgetMs
  counted : s.deliveredOk + s.deliveredFailed = if s.phase = .done then 1 else 0
  place : InPhase t s

end Invariant

variable {p : Parsers} {t : HttpTransport} {url : String} {s : Task}

theorem Spent.mono {now now' : Nat} (h : Spent t s now) (hle : now ≤ now') : Spent t s now' :=
  Nat.le_trans h hle

theorem Sound.ended {s' : Task} (h : Sound t s) (hopen : s.phase ≠ .done)
    (htries : s.attempts.length ≤ s.sleeps.length + 1) (hend : s' = s.succeed ∨ s' = s.fail)
    (clock : Nat) : Sound t { s' with clock } := by
  have hcounted := h.counted
  rw [if_neg hopen] at hcounted
  rcases hend with rfl | rfl
  · refine ⟨h.calm, h.clamped, h.within, ?_, htries⟩
    show s.deliveredOk + 1 + s.deliveredFailed = 1
    omega
  · refine ⟨h.calm, h.clamped, h.within, ?_, htries⟩
    show s.deliveredOk + (s.deliveredFailed + 1) = 1
    omega

theorem Sound.moved {s' : Task} (h : Sound t s) (hopen : s.phase ≠ .done)
    (hopen' : s'.phase ≠ .done) (hunder : s'.underflowed = s.underflowed)
    (hsleeps : s'.sleeps = s.sleeps) (hok : s'.deliveredOk = s.deliveredOk)
    (hfailed : s'.deliveredFailed = s.deliveredFailed) (hplace : InPhase t s') : Sound t s' where
  calm := hunder ▸ h.calm
  clamped := hsleeps ▸ h.clamped
  within := hsleeps ▸ h.within
  counted := by
    rw [hok, hfailed, h.counted, if_neg hopen, if_neg hopen']
  place := hplace

theorem Task.preflight_cases (p : Parsers) (t : HttpTransport) (url : String) (s : Task)
    (m : Moment) :
    s.preflight p t url m = s.fail ∨
      ∃ sender, s.preflight p t url m = { s with phase := .acquiring, sender } := by
  unfold Task.preflight
  split
  · exact .inr ⟨.shared, rfl⟩
  · split
    · exact .inr ⟨.shared, rfl⟩
    · split
      · exact .inr ⟨_, rfl⟩
      · exact .inl rfl
    · exact .inl rfl

theorem Sound.preflight (h : Sound t s) (hphase : s.phase = .preflight) (m : Moment) :
    Sound t (s.step p t url m) := by
  have hplace : s.attempts = [] ∧ s.sleeps = [] := by simpa [InPhase, hphase] using h.place
  have hopen : s.phase ≠ .done := by simp [hphase]
  have hact : s.act p t url m = s.preflight p t url m := by simp [Task.act, hphase]
  rw [Task.step, hact]
  rcases Task.preflight_cases p t url s m with hfail | ⟨sender, hnext⟩
  · rw [hfail]
    exact h.ended hopen (by simp [hplace]) (.inr rfl) m.now
  · rw [hnext]
    exact h.moved hopen (by simp) rfl rfl rfl rfl hplace

theorem Sound.acquiring (h : Sound t s) (hphase : s.phase = .acquiring) (m : Moment) :
    Sound t (s.step p t url m) := by
  have hplace := h.place
  rw [InPhase, hphase] at hplace
  obtain ⟨hattempts, hsleeps⟩ := hplace
  have hopen : s.phase ≠ .done := by simp [hphase]
  simp only [Task.step, Task.act, hphase]
  split
  · refine h.moved hopen (by simp [Task.post]) rfl rfl rfl rfl ?_
    refine ⟨by simp [Task.post, hattempts, hsleeps], ?_, ?_⟩
    · simp [Task.post, hsleeps, HttpTransport.delay, Nat.max_comm]
    · simp [Spent, Task.post, hsleeps]
  · exact h.ended hopen (by simp [hattempts]) (.inr rfl) m.now

theorem Sound.posting (h : Sound t s) (hphase : s.phase = .posting) (hlaw : Lawful s m) :
    Sound t (s.step p t url m) := by
  have hplace := h.place
  rw [InPhase, hphase] at hplace
  obtain ⟨htries, hdelay, hspent⟩ := hplace
  have hopen : s.phase ≠ .done := by simp [hphase]
  simp only [Task.step, Task.act, hphase]
  split
  · exact h.ended hopen htries.le (.inl rfl) m.now
  · exact h.moved hopen (by simp) rfl rfl rfl rfl ⟨htries, hdelay, hspent.mono hlaw.clock_le⟩

theorem Sound.checking (h : Sound t s) (hphase : s.phase = .checking) (hlaw : Lawful s m) :
    Sound t (s.step p t url m) := by
  have hplace := h.place
  rw [InPhase, hphase] at hplace
  obtain ⟨htries, hdelay, hspent⟩ := hplace
  have hopen : s.phase ≠ .done := by simp [hphase]
  simp only [Task.step, Task.act, hphase]
  split
  · exact h.ended hopen htries.le (.inr rfl) m.now
  · next hleft =>
    have hspent' : Spent t s m.now := hspent.mono hlaw.clock_le
    have hroom : s.sleeps.length < t.retryBudgetMs := by
      rw [Spent] at hspent'
      omega
    exact h.moved hopen (by simp) rfl rfl rfl rfl ⟨htries, hdelay, hspent', hroom⟩

/-- The sleep that is requested within the budget. -/
theorem clamped_request {k elapsed : Nat} (hin : elapsed / 10 ^ 6 ≤ t.retryBudgetMs) :
    t.Clamped k
      { elapsed, ms := min (t.delay k) (wrappingSub t.retryBudgetMs (asMillis elapsed)) } := by
  obtain ⟨-, hsub⟩ := wrappingSub_asMillis hin
  refine ⟨by rw [hsub], ?_⟩
  rw [hsub]
  dsimp only
  have hms : min (t.delay k) (t.retryBudgetMs - elapsed / 10 ^ 6) ≤
      t.retryBudgetMs - elapsed / 10 ^ 6 := Nat.min_le_right _ _
  omega

/-- Sleeping so long, the task is a millisecond further or the budget is spent. -/
theorem Spent.request {now : Nat} (h : Spent t s now) (hroom : s.sleeps.length < t.retryBudgetMs)
    (hin : (now - s.start) / 10 ^ 6 ≤ t.retryBudgetMs) :
    s.start + min (s.sleeps.length + 1) t.retryBudgetMs * 10 ^ 6 ≤
      now + min (t.delay s.sleeps.length)
        (wrappingSub t.retryBudgetMs (asMillis (now - s.start))) * 10 ^ 6 := by
  have hdelay := t.delay_pos s.sleeps.length
  rw [(wrappingSub_asMillis hin).2]
  rw [Spent, Nat.min_eq_left hroom.le] at h
  rw [Nat.min_eq_left hroom, Nat.succ_mul, ← Nat.add_assoc]
  rcases Nat.eq_zero_or_pos (t.retryBudgetMs - (now - s.start) / 10 ^ 6) with hzero | hpos
  · omega
  · have hsleep : 1 ≤ min (t.delay s.sleeps.length)
        (t.retryBudgetMs - (now - s.start) / 10 ^ 6) := by omega
    omega

/-- In budget, the subtraction of the time spent does not wrap. -/
theorem Sound.measuring (h : Sound t s) (hphase : s.phase = .measuring) (hlaw : Lawful s m)
    (hin : InBudget t s m) : Sound t (s.step p t url m) := by
  have hplace := h.place
  rw [InPhase, hphase] at hplace
  obtain ⟨htries, hdelay, hspent, hroom⟩ := hplace
  have hbudget : (m.now - s.start) / 10 ^ 6 ≤ t.retryBudgetMs := hin hphase
  have hspent' : Spent t s m.now := hspent.mono hlaw.clock_le
  simp only [Task.step, Task.act, hphase]
  refine ⟨?_, ?_, ?_, ?_, ?_, ?_, ?_⟩
  · simpa [h.calm, (wrappingSub_asMillis hbudget).1] using hbudget
  · intro k sleep hget
    rcases Nat.lt_or_ge k s.sleeps.length with hk | hk
    · rw [List.getElem?_append_left hk] at hget
      exact h.clamped k sleep hget
    · rw [List.getElem?_append_right hk, List.getElem?_singleton] at hget
      split at hget
      · obtain rfl : k = s.sleeps.length := by omega
        obtain rfl := Option.some.inj hget
        rw [hdelay]
        exact clamped_request hbudget
      · cases hget
  · simpa using Nat.succ_le_of_lt hroom
  · simpa [hphase] using h.counted
  · simpa using htries
  · rw [hdelay, List.length_append, List.length_singleton]
    exact t.delay_succ _
  · rw [Spent, List.length_append, List.length_singleton, hdelay]
    exact hspent'.request hroom hbudget

theorem Sound.sleeping (h : Sound t s) {d : Nat} (hphase : s.phase = .sleeping d)
    (hlaw : Lawful s m) : Sound t (s.step p t url m) := by
  have hplace := h.place
  rw [InPhase, hphase] at hplace
  obtain ⟨htries, hdelay, hspent⟩ := hplace
  simp only [Task.step, Task.act, hphase]
  exact h.moved (by simp [hphase]) (by simp) rfl rfl rfl rfl
    ⟨htries, hdelay, hspent.mono (hlaw.slept hphase)⟩

theorem Sound.reacquiring (h : Sound t s) (hphase : s.phase = .reacquiring) (hlaw : Lawful s m) :
    Sound t (s.step p t url m) := by
  have hplace := h.place
  rw [InPhase, hphase] at hplace
  obtain ⟨htries, hdelay, hspent⟩ := hplace
  have hopen : s.phase ≠ .done := by simp [hphase]
  simp only [Task.step, Task.act, hphase]
  split
  · have htries' : s.post.attempts.length = s.sleeps.length + 1 := by simpa [Task.post] using htries
    exact h.moved hopen (by simp [Task.post]) rfl rfl rfl rfl
      ⟨htries', hdelay, hspent.mono hlaw.clock_le⟩
  · exact h.ended hopen (by omega) (.inr rfl) m.now

theorem Sound.step (h : Sound t s) (hlaw : Lawful s m) (hin : InBudget t s m) :
    Sound t (s.step p t url m) := by
  cases hphase : s.phase with
  | preflight => exact h.preflight hphase m
  | acquiring => exact h.acquiring hphase m
  | posting => exact h.posting hphase hlaw
  | checking => exact h.checking hphase hlaw
  | measuring => exact h.measuring hphase hlaw hin
  | sleeping => exact h.sleeping hphase hlaw
  | reacquiring => exact h.reacquiring hphase hlaw
  | done =>
    rw [Task.step_done hphase]
    obtain ⟨hcalm, hclamped, hwithin, hcounted, hplace⟩ := h
    exact ⟨hcalm, hclamped, hwithin, hcounted, by simpa [InPhase, hphase] using hplace⟩

theorem Sound.spawn : Sound t {} where
  calm := rfl
  clamped := by simp
  within := by simp
  counted := rfl
  place := ⟨rfl, rfl⟩

/-! ## The ending -/

/-- How many steps a task has taken that is not over. -/
def Task.progress (s : Task) : Nat :=
  match s.phase with
  | .preflight => 0
  | .acquiring => 1
  | .posting => 5 * s.sleeps.length + 2
  | .checking => 5 * s.sleeps.length + 3
  | .measuring => 5 * s.sleeps.length + 4
  | .sleeping _ => 5 * s.sleeps.length
  | .reacquiring => 5 * s.sleeps.length + 1
  | .done => 0

/-- A step leads on, or the task is over. -/
theorem Task.step_progress (h : InPhase t s) (m : Moment) :
    (s.step p t url m).phase = .done ∨ (s.step p t url m).progress = s.progress + 1 := by
  cases hphase : s.phase with
  | preflight =>
    have hact : s.act p t url m = s.preflight p t url m := by simp [Task.act, hphase]
    rw [Task.step, hact]
    rcases Task.preflight_cases p t url s m with hfail | ⟨sender, hnext⟩
    · exact .inl (by rw [hfail]; rfl)
    · exact .inr (by simp [hnext, progress, hphase])
  | acquiring =>
    obtain ⟨-, hsleeps⟩ : s.attempts = [] ∧ s.sleeps = [] := by simpa [InPhase, hphase] using h
    simp only [Task.step, Task.act, hphase]
    split
    · exact .inr (by simp [progress, Task.post, hphase, hsleeps])
    · exact .inl rfl
  | posting =>
    simp only [Task.step, Task.act, hphase]
    split
    · exact .inl rfl
    · exact .inr (by simp [progress, hphase])
  | checking =>
    by_cases hspent : t.retryBudgetMs * 10 ^ 6 ≤ m.now - s.start
    · exact .inl (by simp only [Task.step, Task.act, hphase, if_pos hspent, Task.fail])
    · exact .inr (by simp only [Task.step, Task.act, hphase, if_neg hspent, progress])
  | measuring =>
    refine .inr ?_
    simp only [Task.step, Task.act, hphase, progress, List.length_append, List.length_singleton]
    omega
  | sleeping =>
    refine .inr ?_
    simp only [Task.step, Task.act, hphase, progress]
  | reacquiring =>
    simp only [Task.step, Task.act, hphase]
    split
    · exact .inr (by simp [progress, Task.post, hphase])
    · exact .inl rfl
  | done => exact .inl (by rw [Task.step_done hphase]; exact hphase)

/-- While it is not over, a task is bounded by its budget. -/
theorem Sound.progress_le (h : Sound t s) : s.progress ≤ 5 * t.retryBudgetMs + 3 := by
  have hwithin := h.within
  have hplace := h.place
  unfold InPhase at hplace
  unfold Task.progress
  split <;> simp_all <;> omega

/-- The state after a guarded run: over, or as many steps along as there were
moments. -/
theorem Sound.run {ms : List Moment}
    (hrun : Along (Task.step p t url) (fun s m => Lawful s m ∧ InBudget t s m) s ms)
    (h : Sound t s) :
    let s' := run (Task.step p t url) s ms
    Sound t s' ∧ (s'.phase = .done ∨ s'.progress = s.progress + ms.length) := by
  induction ms generalizing s with
  | nil => exact ⟨h, .inr rfl⟩
  | cons m ms ih =>
    obtain ⟨⟨hlaw, hin⟩, hrest⟩ := hrun
    obtain ⟨hsound, hend⟩ := ih hrest (h.step hlaw hin)
    refine ⟨hsound, ?_⟩
    rcases Task.step_progress h.place m with hdone | hprogress
    · obtain ⟨clock, hover⟩ : ∃ clock, run (Task.step p t url) (s.step p t url m) ms =
          { s.step p t url m with clock } := Task.run_done hdone ms
      exact .inl (by rw [run_cons, hover]; exact hdone)
    · rcases hend with hdone | hend
      · exact .inl hdone
      · refine .inr ?_
        rw [run_cons, hend, hprogress, List.length_cons]
        omega

/-! ## The retry loop -/

/-- What a task keeps to, `steps` moments after it was spawned. -/
structure Kept (t : HttpTransport) (s : Task) (steps : Nat) : Prop where
  /-- No subtraction goes below zero. -/
  calm : s.underflowed = false
  /-- Every sleep is the delay of its retry, clamped to what is left of the budget,
  and ends less than a millisecond past it. -/
  clamped : ∀ k sleep, s.sleeps[k]? = some sleep → t.Clamped k sleep
  /-- The first attempt is no retry. -/
  retries : s.attempts.length - 1 ≤ t.retryBudgetMs
  /-- At most one outcome is counted, and none before the end. -/
  outcome : s.deliveredOk + s.deliveredFailed = if s.phase = .done then 1 else 0
  /-- The end comes. -/
  ends : 5 * t.retryBudgetMs + 4 ≤ steps → s.phase = .done

theorem Sound.attempts_le (h : Sound t s) : s.attempts.length ≤ s.sleeps.length + 1 := by
  have hplace := h.place
  unfold InPhase at hplace
  split at hplace <;> simp_all

/-- Whatever the attempts return and however the clock advances: as long as the
time read for the subtraction is within the budget, the task sleeps as it should,
retries no more often than the budget has milliseconds, and ends with one outcome. -/
theorem retries_kept {ms : List Moment} (hlaw : Along (Task.step p t url) Lawful {} ms)
    (hin : Along (Task.step p t url) (InBudget t) {} ms) :
    Kept t (run (Task.step p t url) {} ms) ms.length := by
  obtain ⟨hsound, hend⟩ := Sound.run (hlaw.and hin) Sound.spawn
  refine ⟨hsound.calm, hsound.clamped, ?_, hsound.counted, fun hsteps => ?_⟩
  · have := hsound.attempts_le
    have := hsound.within
    omega
  · rcases hend with hdone | hprogress
    · exact hdone
    · have hle := hsound.progress_le
      have hzero : Task.progress {} = 0 := rfl
      omega

/-- A server that is down for the first attempt. -/
def recovering : List Moment :=
  [{ now := 0 }, { now := 0 }, { now := 300000, response := .ok 503 }, { now := 300000 },
    { now := 400000 }, { now := 4400000 }, { now := 4400000 }, { now := 4700000 }]

def patient : HttpTransport := .withSenderAndGuard none 4 60000 10

theorem retries_kept_recovering :
    (run (Task.step samples patient "https://e.test/wh") {} recovering).deliveredOk = 1 ∧
      Kept patient (run (Task.step samples patient "https://e.test/wh") {} recovering)
        recovering.length :=
  ⟨by decide +kernel, retries_kept (by decide +kernel) (by decide +kernel)⟩

/-- A task that is held up between the comparison, 1 ns below the budget of 10 ms,
and the subtraction a millisecond later. -/
def heldUp : List Moment :=
  [{ now := 0 }, { now := 0 }, { now := 0, response := .ok 503 }, { now := 9999999 },
    { now := 11000000 }]

/-- The subtraction goes below zero, and the sleep is the full delay past the
budget. -/
theorem retries_underflow :
    Along (Task.step samples patient "https://e.test/wh") Lawful {} heldUp ∧
      ¬ Kept patient (run (Task.step samples patient "https://e.test/wh") {} heldUp)
        heldUp.length := by
  refine ⟨by decide +kernel, fun hkept => ?_⟩
  exact absurd hkept.calm (by decide +kernel)

end Pylon.Webhook
