import Pylon.Transport.Establish

/-!
# The node's count of an app's connections

The counter of an app is found through `conn_counts`, kept by every session of
the app, and dropped from the map by the last `remove` and by a purge. A purge
is meant to forget the sessions it is closing, so what the map's counter counts
are the app's **current** sessions: those whose establish looked the counter up
after the app's last purge.

The counter is the sum of `onCounter`; that of `within`, which leaves out the
establishes the capacity has refused, never passes the capacity.
-/

namespace Pylon.Transport

open Pylon.Lib

variable {App : Type} [DecidableEq App]

/-! ## The terms of the statement -/

namespace Gate

/-- The counter found under the app; absent counts as zero. -/
def counterOf (s : Gate App) (app : App) : Int := (s.connCounts.hget app).elim 0 s.value

/-- The app's sessions. -/
def sessionsOf (s : Gate App) (app : App) : Nat :=
  s.slab.tally fun entry => entry.session.elim 0 fun ticket => if ticket.app = app then 1 else 0

/-- The app's current sessions. -/
def currentOf (s : Gate App) (app : App) : Nat :=
  s.slab.tally fun entry => entry.session.elim 0 fun ticket =>
    if ticket.app = app ∧ ticket.purge = s.purgesOf app then 1 else 0

end Gate

/-- The counter that a thread has looked up and is about to increment. -/
def Phase.lookedUp : Phase App → Option Nat
  | .counting _ ticket => some ticket.counter
  | .taking .. | .gating .. | .looking .. | .asking .. | .undoing .. | .refusing .. | .discounting _
  | .sweeping _ | .leaving | .purging _ => none

/-- When `remove_if` is about to drop a counter, no establish has it in hand
without having incremented it. -/
def Gate.Sweepable (s : Gate App) (app : App) : Prop :=
  ∀ counter ∈ s.connCounts.hget app, s.value counter = 0 →
    ∀ thread ∈ s.busy.hkeys, ∀ phase ∈ s.busy.hget thread, phase.lookedUp ≠ some counter

instance (s : Gate App) (app : App) : Decidable (s.Sweepable app) :=
  inferInstanceAs (Decidable (∀ counter ∈ s.connCounts.hget app, s.value counter = 0 →
    ∀ thread ∈ s.busy.hkeys, ∀ phase ∈ s.busy.hget thread, phase.lookedUp ≠ some counter))

/-- The app whose counter a thread is about to drop, if it is zero. -/
def Phase.swept : Phase App → Option App
  | .sweeping app => some app
  | .taking .. | .gating .. | .looking .. | .counting .. | .asking .. | .undoing .. | .refusing ..
  | .discounting _ | .leaving | .purging _ => none

/-- The condition on a step. -/
def Unraced (s : Gate App) : GateAct App → Prop
  | .advance thread _ _ => ∀ phase ∈ s.busy.hget thread, ∀ app ∈ phase.swept, s.Sweepable app
  | _ => True

instance (s : Gate App) : ∀ a, Decidable (Unraced s a)
  | .advance thread _ _ => inferInstanceAs (Decidable (∀ phase ∈ s.busy.hget thread, _))
  | .accept .. | .establish .. | .park .. | .resolve .. | .remove .. | .purge .. => isTrue trivial

/-! ## What is counted -/

/-- A ticket of the app from after its `k`-th purge. -/
def Ticket.unit (app : App) (k : Nat) (ticket : Ticket App) : Nat :=
  if ticket.app = app ∧ ticket.purge = k then 1 else 0

/-- A unit on the counter: from `fetch_add` to `fetch_sub`. -/
def Phase.onCounter (app : App) (k : Nat) : Phase App → Nat
  | .asking _ ticket | .undoing _ ticket _ | .discounting ticket => ticket.unit app k
  | .taking .. | .gating .. | .looking .. | .counting .. | .refusing .. | .sweeping _ | .leaving
  | .purging _ => 0

/-- A unit the capacity let through. -/
def Phase.within (app : App) (k : Nat) : Phase App → Nat
  | .undoing _ _ .capacity => 0
  | phase => phase.onCounter app k

def onCounter (app : App) (k : Nat) : Scale App where
  session := Ticket.unit app k
  phase := Phase.onCounter app k
  taking _ _ := rfl
  purging _ := rfl
  asking _ _ := rfl
  discounting _ := rfl

def within (app : App) (k : Nat) : Scale App where
  session := Ticket.unit app k
  phase := Phase.within app k
  taking _ _ := rfl
  purging _ := rfl
  asking _ _ := rfl
  discounting _ := rfl

/-- The ticket a thread still goes by. -/
def Phase.ticket : Phase App → Option (Ticket App)
  | .counting _ ticket | .asking _ ticket | .undoing _ ticket _ | .discounting ticket => some ticket
  | .taking .. | .gating .. | .looking .. | .refusing .. | .sweeping _ | .leaving
  | .purging _ => none

/-- Somebody goes by the ticket: a thread or a session. -/
def Gate.Holds (s : Gate App) (ticket : Ticket App) : Prop :=
  (∃ thread phase, s.busy.hget thread = some phase ∧ phase.ticket = some ticket) ∨
    ∃ key entry, s.slab.hget key = some entry ∧ entry.session = some ticket

/-- A ticket is current exactly when its counter is the one the map has. -/
structure Gate.Valid (s : Gate App) (ticket : Ticket App) : Prop where
  minted : ticket.counter < s.next
  past : ticket.purge ≤ s.purgesOf ticket.app
  current : ticket.purge = s.purgesOf ticket.app →
    s.connCounts.hget ticket.app = some ticket.counter
  stale : ticket.purge < s.purgesOf ticket.app → ∀ app, s.connCounts.hget app ≠ some ticket.counter

/-- The invariant. -/
structure Gate.AppLaw (cfg : GateConfig App) (s : Gate App) : Prop where
  minted : ∀ app counter, s.connCounts.hget app = some counter → counter < s.next
  distinct : ∀ app app' counter, s.connCounts.hget app = some counter →
    s.connCounts.hget app' = some counter → app = app'
  valid : ∀ ticket, s.Holds ticket → s.Valid ticket
  stock : ∀ app counter, s.connCounts.hget app = some counter →
    s.value counter = s.sum (onCounter app (s.purgesOf app))
  bound : ∀ app, cfg.capacity app ≠ 0 →
    s.sum (within app (s.purgesOf app)) ≤ cfg.capacity app

/-! ## Sums and tickets -/

theorem Phase.within_le (app : App) (k : Nat) (p : Phase App) :
    p.within app k ≤ p.onCounter app k := by
  cases p with
  | undoing _ _ refusal =>
    cases refusal with
    | capacity => exact Nat.zero_le _
    | ceiling | saturated | cluster => exact le_rfl
  | _ => exact le_rfl

theorem Ticket.unit_self (ticket : Ticket App) : ticket.unit ticket.app ticket.purge = 1 :=
  if_pos ⟨rfl, rfl⟩

theorem Ticket.unit_ne {ticket : Ticket App} {app : App} {k : Nat}
    (hne : ¬ (ticket.app = app ∧ ticket.purge = k)) : ticket.unit app k = 0 :=
  if_neg hne

namespace Gate

variable {cfg : GateConfig App} {s s' : Gate App} {thread : Nat} {ticket : Ticket App}

theorem sum_within_le (app : App) (k : Nat) :
    s.sum (within app k) ≤ s.sum (onCounter app k) := by
  apply Nat.add_le_add_left
  exact Hash.tally_le_tally s.busy (Phase.within_le app k)

/-- Where nothing is on the counter, a ticket of it is in the hands of a thread
that has not incremented it yet. -/
theorem Holds.counting (h : s.Holds ticket)
    (hzero : s.sum (onCounter ticket.app ticket.purge) = 0) :
    ∃ thread token, s.busy.hget thread = some (.counting token ticket) := by
  obtain ⟨hslab, hbusy⟩ := Nat.add_eq_zero_iff.mp hzero
  have hone := ticket.unit_self
  rcases h with ⟨thread, phase, hphase, hticket⟩ | ⟨key, entry, hentry, hsession⟩
  · have hweight := Hash.weight_of_tally_zero hbusy hphase
    cases phase with
    | counting token ticket' =>
      obtain rfl : ticket' = ticket := Option.some.inj hticket
      exact ⟨thread, token, hphase⟩
    | asking token ticket' | undoing token ticket' | discounting ticket' =>
      obtain rfl : ticket' = ticket := Option.some.inj hticket
      exact absurd (hone.symm.trans hweight) one_ne_zero
    | taking | gating | looking | refusing | sweeping | leaving | purging => cases hticket
  · have hweight := Hash.weight_of_tally_zero hslab hentry
    rw [Scale.entry, hsession] at hweight
    exact absurd (hone.symm.trans hweight) one_ne_zero

/-- Where nobody holds a ticket of the app and purge, nothing is counted. -/
theorem sum_onCounter_eq_zero {app : App} {k : Nat}
    (hnone : ∀ ticket, s.Holds ticket → ¬ (ticket.app = app ∧ ticket.purge = k)) :
    s.sum (onCounter app k) = 0 := by
  have hslab : s.slab.tally (onCounter app k).entry = 0 := by
    apply Hash.tally_eq_zero
    intro key entry hentry
    cases hsession : entry.session with
    | none => rw [Scale.entry, hsession, Option.elim_none]
    | some ticket =>
      rw [Scale.entry, hsession, Option.elim_some]
      exact Ticket.unit_ne (hnone ticket (.inr ⟨key, entry, hentry, hsession⟩))
  have hbusy : s.busy.tally (onCounter app k).phase = 0 := by
    apply Hash.tally_eq_zero
    intro thread phase hphase
    have hheld : ∀ ticket, phase.ticket = some ticket → ticket.unit app k = 0 :=
      fun ticket hticket => Ticket.unit_ne (hnone ticket (.inl ⟨thread, phase, hphase, hticket⟩))
    cases phase with
    | asking token ticket | undoing token ticket | discounting ticket => exact hheld ticket rfl
    | _ => rfl
  exact Nat.add_eq_zero_iff.mpr ⟨hslab, hbusy⟩

section Holders

omit [DecidableEq App]

/-- Every ticket of a thread of `s'` is one of `s`. -/
def BusyFrom (s s' : Gate App) : Prop :=
  ∀ thread phase, s'.busy.hget thread = some phase → ∀ ticket, phase.ticket = some ticket →
    s.Holds ticket

/-- Every session of `s'` has a ticket of `s`. -/
def SlabFrom (s s' : Gate App) : Prop :=
  ∀ key entry, s'.slab.hget key = some entry → ∀ ticket, entry.session = some ticket →
    s.Holds ticket

theorem holds_of (hbusy : BusyFrom s s') (hslab : SlabFrom s s') :
    ∀ ticket, s'.Holds ticket → s.Holds ticket := by
  rintro ticket (⟨thread, phase, hphase, hticket⟩ | ⟨key, entry, hentry, hsession⟩)
  · exact hbusy thread phase hphase ticket hticket
  · exact hslab key entry hentry ticket hsession

theorem BusyFrom.same (hbusy : s'.busy = s.busy) : BusyFrom s s' := by
  intro thread phase hphase ticket hticket
  rw [hbusy] at hphase
  exact .inl ⟨thread, phase, hphase, hticket⟩

theorem BusyFrom.turn {new : Phase App} (hbusy : s'.busy = s.busy.hset thread new)
    (hnew : ∀ ticket, new.ticket = some ticket → s.Holds ticket) : BusyFrom s s' := by
  intro other phase hphase ticket hticket
  rw [hbusy, Hash.hget_hset] at hphase
  split at hphase
  · obtain rfl : new = phase := Option.some.inj hphase
    exact hnew ticket hticket
  · exact .inl ⟨other, phase, hphase, hticket⟩

theorem BusyFrom.rest (hbusy : s'.busy = s.busy.hdel thread) : BusyFrom s s' := by
  intro other phase hphase ticket hticket
  rw [hbusy, Hash.hget_hdel] at hphase
  split at hphase
  · cases hphase
  · exact .inl ⟨other, phase, hphase, hticket⟩

theorem SlabFrom.same (hslab : s'.slab = s.slab) : SlabFrom s s' := by
  intro key entry hentry ticket hsession
  rw [hslab] at hentry
  exact .inr ⟨key, entry, hentry, hsession⟩

theorem SlabFrom.hset {key : Nat × Nat} {new : SlabEntry App}
    (hslab : s'.slab = s.slab.hset key new)
    (hnew : ∀ ticket, new.session = some ticket → s.Holds ticket) : SlabFrom s s' := by
  intro key' entry hentry ticket hsession
  rw [hslab, Hash.hget_hset] at hentry
  split at hentry
  · obtain rfl : new = entry := Option.some.inj hentry
    exact hnew ticket hsession
  · exact .inr ⟨key', entry, hentry, hsession⟩

theorem SlabFrom.hdel {key : Nat × Nat} (hslab : s'.slab = s.slab.hdel key) : SlabFrom s s' := by
  intro key' entry hentry ticket hsession
  rw [hslab, Hash.hget_hdel] at hentry
  split at hentry
  · cases hentry
  · exact .inr ⟨key', entry, hentry, hsession⟩

end Holders

/-- Nobody comes to hold a unit before a task goes on. -/
theorem holds_start {a : GateAct App}
    (ha : ∀ thread saturated verdict, a ≠ .advance thread saturated verdict) :
    ∀ ticket, (gateStep cfg s a).Holds ticket → s.Holds ticket := by
  have hself : ∀ ticket, s.Holds ticket → s.Holds ticket := fun _ h => h
  cases a with
  | accept =>
    simp only [gateStep]
    split
    · exact holds_of (.same rfl) (.hset rfl fun ticket hnone => by cases hnone)
    · exact hself
  | establish =>
    simp only [gateStep, establishEntry]
    split
    · split
      next entry hentry =>
        split
        · refine holds_of (.turn rfl fun ticket hnone => by cases hnone) (.hset rfl ?_)
          exact fun ticket hsession => .inr ⟨_, entry, hentry, hsession⟩
        · exact hself
      next => exact hself
    · exact hself
  | park =>
    simp only [gateStep]
    split
    next entry hidle hentry =>
      split
      · refine holds_of (.same rfl) (.hset rfl ?_)
        exact fun ticket hsession => .inr ⟨_, entry, hentry, hsession⟩
      · exact hself
    next => exact hself
  | resolve _ _ _ found =>
    simp only [gateStep, resolveEntry]
    split
    · split
      next entry hentry =>
        split
        · cases found with
          | some =>
            refine holds_of (.turn rfl fun ticket hnone => by cases hnone) (.hset rfl ?_)
            exact fun ticket hsession => .inr ⟨_, entry, hentry, hsession⟩
          | none => exact holds_of (.same rfl) (.hdel rfl)
        · exact hself
      next => exact hself
    · exact hself
  | remove =>
    simp only [gateStep, removeEntry]
    split
    · split
      next entry hentry =>
        split
        next ticket hsession =>
          refine holds_of (.turn rfl ?_) (.hdel rfl)
          intro ticket' hticket
          obtain rfl : ticket = ticket' := Option.some.inj hticket
          exact .inr ⟨_, entry, hentry, hsession⟩
        next => exact holds_of (.same rfl) (.hdel rfl)
      next => exact hself
    · exact hself
  | purge =>
    simp only [gateStep]
    split
    · exact holds_of (.turn rfl fun ticket hnone => by cases hnone) (.same rfl)
    · exact hself
  | advance thread saturated verdict => exact absurd rfl (ha thread saturated verdict)

/-! ## The law -/

namespace AppLaw

variable {app : App}

/-- The map's counter of a ticket that is in use is that of its app, and the
ticket is current. -/
theorem owner (h : AppLaw cfg s) (hheld : s.Holds ticket)
    (hmap : s.connCounts.hget app = some ticket.counter) :
    ticket.app = app ∧ ticket.purge = s.purgesOf app := by
  have hvalid := h.valid ticket hheld
  have hcurrent : ticket.purge = s.purgesOf ticket.app := by
    rcases Nat.lt_or_eq_of_le hvalid.past with hstale | hcurrent
    · exact absurd hmap (hvalid.stale hstale app)
    · exact hcurrent
  obtain rfl : ticket.app = app := h.distinct _ _ _ (hvalid.current hcurrent) hmap
  exact ⟨rfl, hcurrent⟩

/-- A step that leaves the map alone: only the counters and the sums matter. -/
theorem frame (h : AppLaw cfg s) (hcounts : s'.connCounts = s.connCounts)
    (hnext : s'.next = s.next) (hpurges : s'.purges = s.purges)
    (hvalid : ∀ ticket, s'.Holds ticket → s.Valid ticket)
    (hstock : ∀ app counter, s.connCounts.hget app = some counter →
      s'.value counter = s'.sum (onCounter app (s.purgesOf app)))
    (hbound : ∀ app, cfg.capacity app ≠ 0 →
      s'.sum (within app (s.purgesOf app)) ≤ cfg.capacity app) : AppLaw cfg s' := by
  have hpurgesOf : ∀ app, s'.purgesOf app = s.purgesOf app := fun app => by
    rw [purgesOf, purgesOf, hpurges]
  refine ⟨?_, ?_, ?_, ?_, ?_⟩
  · rw [hcounts, hnext]
    exact h.minted
  · rw [hcounts]
    exact h.distinct
  · intro ticket hheld
    have hvalid := hvalid ticket hheld
    refine ⟨?_, ?_, ?_, ?_⟩
    · rw [hnext]
      exact hvalid.minted
    · rw [hpurgesOf]
      exact hvalid.past
    · rw [hpurgesOf, hcounts]
      exact hvalid.current
    · rw [hpurgesOf, hcounts]
      exact hvalid.stale
  · intro app counter hmap
    rw [hcounts] at hmap
    rw [hpurgesOf]
    exact hstock app counter hmap
  · intro app hcap
    rw [hpurgesOf]
    exact hbound app hcap

theorem keep (h : AppLaw cfg s) (hcounts : s'.connCounts = s.connCounts)
    (hcounters : s'.counters = s.counters) (hnext : s'.next = s.next)
    (hpurges : s'.purges = s.purges) (hholds : ∀ ticket, s'.Holds ticket → s.Holds ticket)
    (hsum : ∀ app k, s'.sum (onCounter app k) = s.sum (onCounter app k) ∧
      s'.sum (within app k) = s.sum (within app k)) : AppLaw cfg s' := by
  refine h.frame hcounts hnext hpurges (fun _ hheld => h.valid _ (hholds _ hheld)) ?_ ?_
  · intro app counter hmap
    rw [(hsum app _).1, value, hcounters]
    exact h.stock app counter hmap
  · intro app hcap
    rw [(hsum app _).2]
    exact h.bound app hcap

/-- A `fetch_add` or `fetch_sub` on the counter of a ticket in use, where the
sums move by what the ticket counts for. -/
theorem adjust (h : AppLaw cfg s) (hheld : s.Holds ticket) (d : Int)
    (hcounts : s'.connCounts = s.connCounts)
    (hcounters : s'.counters = (s.add ticket.counter d).counters) (hnext : s'.next = s.next)
    (hpurges : s'.purges = s.purges) (hholds : ∀ ticket, s'.Holds ticket → s.Holds ticket)
    (hsum : ∀ app k, (s'.sum (onCounter app k) : Int) =
      s.sum (onCounter app k) + d * ticket.unit app k)
    (hbound : ∀ app, cfg.capacity app ≠ 0 →
      s'.sum (within app (s.purgesOf app)) ≤ cfg.capacity app) : AppLaw cfg s' := by
  refine h.frame hcounts hnext hpurges (fun _ hheld => h.valid _ (hholds _ hheld)) ?_ hbound
  intro app counter hmap
  have hstock := h.stock app counter hmap
  rw [hsum, ← hstock, value, hcounters, add, Hash.hget_hset]
  by_cases heq : counter = ticket.counter
  · -- the map's counter, so the ticket is a current one of this very app
    subst heq
    have hunit : ticket.unit app (s.purgesOf app) = 1 := if_pos (h.owner hheld hmap)
    rw [if_pos rfl, hunit, Option.getD_some]
    omega
  · have hunit : ticket.unit app (s.purgesOf app) = 0 := by
      apply Ticket.unit_ne
      rintro ⟨rfl, hpurge⟩
      have hcurrent := (h.valid ticket hheld).current hpurge
      rw [hmap] at hcurrent
      exact heq (Option.some.inj hcurrent)
    rw [if_neg heq, hunit]
    simp [value]

variable {old : Phase App}

section

variable (h : AppLaw cfg s)

include h

/-- A thread's next operation, but for those that write a counter or the map. -/
theorem turn {new : Phase App} (hcounts : s'.connCounts = s.connCounts)
    (hcounters : s'.counters = s.counters) (hnext : s'.next = s.next)
    (hpurges : s'.purges = s.purges) (hslab : s'.slab = s.slab)
    (hbusy : s'.busy = s.busy.hset thread new) (hold : s.busy.hget thread = some old)
    (hticket : new.ticket = none ∨ new.ticket = old.ticket)
    (hsum : ∀ app k,
      new.onCounter app k = old.onCounter app k ∧ new.within app k = old.within app k) :
    AppLaw cfg s' := by
  refine h.keep hcounts hcounters hnext hpurges (holds_of (.turn hbusy ?_) (.same hslab)) ?_
  · intro ticket hnew
    rcases hticket with hnone | hsame
    · rw [hnone] at hnew
      cases hnew
    · exact .inl ⟨thread, old, hold, hsame ▸ hnew⟩
  · intro app k
    have hon := sum_turn (onCounter app k) hslab hbusy hold
    have hin := sum_turn (within app k) hslab hbusy hold
    obtain ⟨hone, hwithin⟩ := hsum app k
    have hone' : (onCounter app k).phase new = (onCounter app k).phase old := hone
    have hwithin' : (within app k).phase new = (within app k).phase old := hwithin
    omega

/-- The new ticket of a lookup that found the app's counter. -/
theorem valid_found {counter : Nat} (hmap : s.connCounts.hget app = some counter) :
    s.Valid ⟨app, counter, s.purgesOf app⟩ :=
  ⟨h.minted app counter hmap, le_rfl, fun _ => hmap, fun hlt => absurd hlt (lt_irrefl _)⟩

/-- A lookup that allocates the app's counter. -/
theorem allocate (hnone : s.connCounts.hget app = none)
    (hcounts : s'.connCounts = s.connCounts.hset app s.next)
    (hcounters : s'.counters = s.counters.hset s.next 0) (hnext : s'.next = s.next + 1)
    (hpurges : s'.purges = s.purges)
    (hholds : ∀ ticket, s'.Holds ticket → s.Holds ticket ∨ ticket = ⟨app, s.next, s.purgesOf app⟩)
    (hsum : ∀ app k, s'.sum (onCounter app k) = s.sum (onCounter app k) ∧
      s'.sum (within app k) = s.sum (within app k)) :
    AppLaw cfg s' := by
  have hpurgesOf : ∀ app, s'.purgesOf app = s.purgesOf app := fun app => by
    rw [purgesOf, purgesOf, hpurges]
  -- nobody held a current ticket of an app that the map did not have
  have hnobody : ∀ ticket, s.Holds ticket →
      ¬ (ticket.app = app ∧ ticket.purge = s.purgesOf app) := by
    rintro ticket hheld ⟨rfl, hpurge⟩
    rw [(h.valid ticket hheld).current hpurge] at hnone
    cases hnone
  refine ⟨?_, ?_, ?_, ?_, ?_⟩
  · intro app' counter hmap
    rw [hcounts, Hash.hget_hset] at hmap
    rw [hnext]
    split at hmap
    · obtain rfl : s.next = counter := Option.some.inj hmap
      exact Nat.lt_succ_self _
    · exact Nat.lt_succ_of_lt (h.minted app' counter hmap)
  · intro app₁ app₂ counter hmap₁ hmap₂
    rw [hcounts, Hash.hget_hset] at hmap₁ hmap₂
    split at hmap₁ <;> split at hmap₂
    next h₁ h₂ => rw [h₁, h₂]
    next h₁ h₂ =>
      obtain rfl : s.next = counter := Option.some.inj hmap₁
      exact absurd (h.minted app₂ _ hmap₂) (lt_irrefl _)
    next h₁ h₂ =>
      obtain rfl : s.next = counter := Option.some.inj hmap₂
      exact absurd (h.minted app₁ _ hmap₁) (lt_irrefl _)
    next => exact h.distinct app₁ app₂ counter hmap₁ hmap₂
  · intro ticket hheld
    rcases hholds ticket hheld with hbefore | rfl
    · have hvalid := h.valid ticket hbefore
      refine ⟨?_, ?_, ?_, ?_⟩
      · rw [hnext]
        exact Nat.lt_succ_of_lt hvalid.minted
      · rw [hpurgesOf]
        exact hvalid.past
      · rw [hpurgesOf, hcounts]
        intro hcurrent
        have hne : ticket.app ≠ app := fun happ => hnobody ticket hbefore ⟨happ, happ ▸ hcurrent⟩
        rw [Hash.hget_hset_ne _ _ hne]
        exact hvalid.current hcurrent
      · rw [hpurgesOf, hcounts]
        intro hstale app'
        rw [Hash.hget_hset]
        split
        · intro heq
          have hlt := hvalid.minted
          rw [← Option.some.inj heq] at hlt
          exact lt_irrefl _ hlt
        · exact hvalid.stale hstale app'
    · refine ⟨?_, ?_, ?_, ?_⟩
      · rw [hnext]
        exact Nat.lt_succ_self _
      · rw [hpurgesOf]
      · intro _
        rw [hcounts, Hash.hget_hset_self]
      · rw [hpurgesOf]
        exact fun hlt => absurd hlt (lt_irrefl _)
  · intro app' counter hmap
    rw [hcounts, Hash.hget_hset] at hmap
    rw [hpurgesOf, (hsum app' _).1, value, hcounters]
    split at hmap
    next heq =>
      subst heq
      obtain rfl : s.next = counter := Option.some.inj hmap
      rw [Hash.hget_hset_self, sum_onCounter_eq_zero hnobody]
      rfl
    next =>
      have hne : counter ≠ s.next := Nat.ne_of_lt (h.minted app' counter hmap)
      rw [Hash.hget_hset_ne _ _ hne]
      exact h.stock app' counter hmap
  · intro app' hcap
    rw [hpurgesOf, (hsum app' _).2]
    exact h.bound app' hcap

/-- `conn_counts.entry(..)`. -/
theorem look {token : Nat} (hphase : s.busy.hget thread = some (.looking token app))
    (hlooked : s' = (s.lookup app).1.turn thread (.counting token (s.lookup app).2)) :
    AppLaw cfg s' := by
  have hbusy : s'.busy = s.busy.hset thread (.counting token (s.lookup app).2) := by
    rw [hlooked, busy_turn, busy_lookup]
  have hslab : s'.slab = s.slab := by
    rw [hlooked, slab_turn, slab_lookup]
  have hholds : ∀ ticket, s'.Holds ticket → s.Holds ticket ∨ ticket = (s.lookup app).2 := by
    rintro ticket (⟨other, phase, hget, hticket⟩ | ⟨key, entry, hentry, hsession⟩)
    · rw [hbusy, Hash.hget_hset] at hget
      split at hget
      · obtain rfl := Option.some.inj hget
        exact .inr (Option.some.inj hticket).symm
      · exact .inl (.inl ⟨other, phase, hget, hticket⟩)
    · rw [hslab] at hentry
      exact .inl (.inr ⟨key, entry, hentry, hsession⟩)
  have hsum : ∀ app' k, s'.sum (onCounter app' k) = s.sum (onCounter app' k) ∧
      s'.sum (within app' k) = s.sum (within app' k) :=
    fun app' k => ⟨sum_turn (onCounter app' k) hslab hbusy hphase,
      sum_turn (within app' k) hslab hbusy hphase⟩
  cases hmap : s.connCounts.hget app with
  | some counter =>
    have hlookup : s.lookup app = (s, ⟨app, counter, s.purgesOf app⟩) := by
      rw [lookup, hmap]
    rw [hlookup] at hlooked hholds
    subst hlooked
    refine h.frame rfl rfl rfl ?_ ?_ ?_
    · intro ticket hheld
      rcases hholds ticket hheld with hbefore | rfl
      · exact h.valid ticket hbefore
      · exact h.valid_found hmap
    · intro app' counter' hmap'
      rw [(hsum app' _).1]
      exact h.stock app' counter' hmap'
    · intro app' hcap
      rw [(hsum app' _).2]
      exact h.bound app' hcap
  | none =>
    have hlookup : s.lookup app = ({ s with
        counters := s.counters.hset s.next 0
        connCounts := s.connCounts.hset app s.next
        next := s.next + 1 }, ⟨app, s.next, s.purgesOf app⟩) := by
      rw [lookup, hmap]
    rw [hlookup] at hlooked hholds
    subst hlooked
    exact h.allocate hmap rfl rfl rfl rfl hholds hsum

/-- `counter.fetch_add` and the check of the capacity. -/
theorem count {token : Nat} (saturated : Bool) (verdict : Option Bool)
    (hphase : s.busy.hget thread = some (.counting token ticket)) :
    AppLaw cfg (s.advance cfg thread saturated verdict (.counting token ticket)) := by
  have hheld : s.Holds ticket := .inl ⟨thread, _, hphase, rfl⟩
  have hmine : ∀ ticket', some ticket = some ticket' → s.Holds ticket' := by
    intro ticket' heq
    rwa [← Option.some.inj heq]
  have hsum : ∀ (w : Scale App) (new : Phase App),
      ((s.add ticket.counter 1).turn thread new).sum w + w.phase (.counting token ticket) =
        s.sum w + w.phase new := fun w new => sum_turn w rfl rfl hphase
  simp only [advance]
  split
  next hfull =>
    refine h.adjust hheld 1 rfl rfl rfl rfl (holds_of (.turn rfl hmine) (.same rfl)) ?_ ?_
    · intro app k
      have hon := hsum (onCounter app k) (.undoing token ticket .capacity)
      simp only [onCounter, Phase.onCounter] at hon ⊢
      omega
    · intro app hcap
      have hin := hsum (within app (s.purgesOf app)) (.undoing token ticket .capacity)
      have hbound := h.bound app hcap
      simp only [within, Phase.within, Phase.onCounter] at hin hbound ⊢
      omega
  next hroom =>
    refine h.adjust hheld 1 rfl rfl rfl rfl (holds_of (.turn rfl hmine) (.same rfl)) ?_ ?_
    · intro app k
      have hon := hsum (onCounter app k) (.asking token ticket)
      simp only [onCounter, Phase.onCounter] at hon ⊢
      omega
    · intro app hcap
      have hin : ((s.add ticket.counter 1).turn thread (.asking token ticket)).sum
          (within app (s.purgesOf app)) =
          s.sum (within app (s.purgesOf app)) + ticket.unit app (s.purgesOf app) :=
        hsum (within app (s.purgesOf app)) (.asking token ticket)
      rw [hin]
      by_cases hmatch : ticket.app = app ∧ ticket.purge = s.purgesOf app
      · -- a current ticket: the counter it read is the sum, and it was below the capacity
        obtain ⟨rfl, hcurrent⟩ := hmatch
        have hstock := h.stock _ _ ((h.valid ticket hheld).current hcurrent)
        have hle := s.sum_within_le ticket.app (s.purgesOf ticket.app)
        have hlt : s.value ticket.counter < cfg.capacity ticket.app := by
          by_contra hge
          exact hroom ⟨hcap, not_lt.mp hge⟩
        have hunit : ticket.unit ticket.app (s.purgesOf ticket.app) = 1 := if_pos ⟨rfl, hcurrent⟩
        omega
      · rw [Ticket.unit_ne hmatch]
        exact h.bound app hcap

/-- `counter.fetch_sub`, by a refused establish or by a `remove`, after which the
thread has no ticket. -/
theorem discount {new : Phase App} (hphase : s.busy.hget thread = some old)
    (hold : old.ticket = some ticket) (hnew : new.ticket = none)
    (hon : ∀ app k, old.onCounter app k = ticket.unit app k)
    (hfree : ∀ app k, new.onCounter app k = 0 ∧ new.within app k = 0) :
    AppLaw cfg ((s.add ticket.counter (-1)).turn thread new) := by
  refine h.adjust (.inl ⟨thread, old, hphase, hold⟩) (-1) rfl rfl rfl rfl ?_ ?_ ?_
  · refine holds_of (.turn rfl fun ticket' hticket => ?_) (.same rfl)
    rw [hnew] at hticket
    cases hticket
  · intro app k
    have hsum : ((s.add ticket.counter (-1)).turn thread new).sum (onCounter app k) +
        old.onCounter app k = s.sum (onCounter app k) + new.onCounter app k :=
      sum_turn (onCounter app k) rfl rfl hphase
    rw [hon, (hfree app k).1] at hsum
    omega
  · intro app hcap
    have hsum : ((s.add ticket.counter (-1)).turn thread new).sum (within app (s.purgesOf app)) +
        old.within app (s.purgesOf app) =
        s.sum (within app (s.purgesOf app)) + new.within app (s.purgesOf app) :=
      sum_turn (within app _) rfl rfl hphase
    rw [(hfree app _).2] at hsum
    have hbound := h.bound app hcap
    omega

/-- The map loses the app's counter, of which no current ticket is in use. -/
theorem forget (hcounts : s'.connCounts = s.connCounts.hdel app)
    (hcounters : s'.counters = s.counters) (hnext : s'.next = s.next)
    (hothers : ∀ app', app' ≠ app → s'.purgesOf app' = s.purgesOf app')
    (hpast : s.purgesOf app ≤ s'.purgesOf app) (hholds : ∀ ticket, s'.Holds ticket → s.Holds ticket)
    (hnobody : ∀ ticket, s'.Holds ticket → ticket.app = app → ticket.purge < s'.purgesOf app →
      ticket.purge < s.purgesOf app ∨ s.connCounts.hget app = some ticket.counter)
    (hcurrent : ∀ ticket, s'.Holds ticket → ticket.app = app → ticket.purge ≠ s'.purgesOf app)
    (hsum : ∀ app k, s'.sum (onCounter app k) = s.sum (onCounter app k) ∧
      s'.sum (within app k) = s.sum (within app k)) :
    AppLaw cfg s' := by
  have hsub : ∀ app' counter, s'.connCounts.hget app' = some counter →
      app' ≠ app ∧ s.connCounts.hget app' = some counter := by
    intro app' counter hmap
    rw [hcounts, Hash.hget_hdel] at hmap
    split at hmap
    · cases hmap
    next hne => exact ⟨hne, hmap⟩
  refine ⟨?_, ?_, ?_, ?_, ?_⟩
  · intro app' counter hmap
    rw [hnext]
    exact h.minted app' counter (hsub app' counter hmap).2
  · intro app₁ app₂ counter hmap₁ hmap₂
    exact h.distinct app₁ app₂ counter (hsub _ _ hmap₁).2 (hsub _ _ hmap₂).2
  · intro ticket hheld
    have hvalid := h.valid ticket (hholds ticket hheld)
    by_cases happ : ticket.app = app
    · refine ⟨hnext ▸ hvalid.minted, ?_, ?_, ?_⟩
      · rw [happ]
        exact le_trans (happ ▸ hvalid.past) hpast
      · rw [happ]
        exact fun heq => absurd heq (hcurrent ticket hheld happ)
      · rw [happ]
        intro hlt app' hmap
        obtain ⟨hne, hmap⟩ := hsub _ _ hmap
        rcases hnobody ticket hheld happ hlt with hstale | hmine
        · exact hvalid.stale (happ ▸ hstale) app' hmap
        · exact hne (h.distinct app' app _ hmap hmine)
    · refine ⟨hnext ▸ hvalid.minted, ?_, ?_, ?_⟩
      · rw [hothers _ happ]
        exact hvalid.past
      · rw [hothers _ happ, hcounts, Hash.hget_hdel_ne _ happ]
        exact hvalid.current
      · rw [hothers _ happ]
        exact fun hlt app' hmap => hvalid.stale hlt app' (hsub _ _ hmap).2
  · intro app' counter hmap
    obtain ⟨hne, hmap⟩ := hsub _ _ hmap
    rw [hothers _ hne, (hsum app' _).1, value, hcounters]
    exact h.stock app' counter hmap
  · intro app' hcap
    by_cases happ : app' = app
    · subst happ
      have hnone : s'.sum (onCounter app' (s'.purgesOf app')) = 0 := by
        apply sum_onCounter_eq_zero
        rintro ticket hheld ⟨happ, hpurge⟩
        exact hcurrent ticket hheld happ hpurge
      have hle := s'.sum_within_le app' (s'.purgesOf app')
      omega
    · rw [hothers _ happ, (hsum app' _).2]
      exact h.bound app' hcap

/-- `conn_counts.remove_if`, of a counter that nobody is about to increment. -/
theorem sweep (hok : s.Sweepable app)
    (hphase : s.busy.hget thread = some (.sweeping app)) :
    AppLaw cfg ((s.removeIf app).turn thread .leaving) := by
  have hstay : AppLaw cfg (s.turn thread .leaving) :=
    h.turn rfl rfl rfl rfl rfl rfl hphase (.inl rfl) fun _ _ => ⟨rfl, rfl⟩
  unfold removeIf
  split
  next counter hmap =>
    split
    next hzero =>
      have hholds : ∀ ticket,
          (({ s with connCounts := s.connCounts.hdel app } : Gate App).turn thread
          .leaving).Holds ticket → s.Holds ticket :=
        holds_of (.turn rfl fun _ hnone => by cases hnone) (.same rfl)
      -- a current ticket would be counted, or about to be
      have hnobody : ∀ ticket, s.Holds ticket → ticket.app = app →
          ticket.purge ≠ s.purgesOf app := by
        rintro ticket hheld rfl hpurge
        have hempty : s.sum (onCounter ticket.app ticket.purge) = 0 := by
          have hstock := h.stock _ _ hmap
          rw [hzero, ← hpurge] at hstock
          exact (Int.natCast_eq_zero.mp hstock.symm)
        obtain ⟨other, token, hcounting⟩ := hheld.counting hempty
        have hcounter : s.connCounts.hget ticket.app = some ticket.counter :=
          (h.valid ticket hheld).current hpurge
        obtain rfl : counter = ticket.counter := Option.some.inj (hmap.symm.trans hcounter)
        exact hok _ hmap hzero other (Hash.mem_hkeys_of_hget hcounting) _ hcounting rfl
      refine h.forget rfl rfl rfl (fun _ _ => rfl) le_rfl hholds ?_ ?_ ?_
      · exact fun _ _ _ hlt => .inl hlt
      · exact fun ticket hheld => hnobody ticket (hholds ticket hheld)
      · have hsum : ∀ w : Scale App,
            (({ s with connCounts := s.connCounts.hdel app } : Gate App).turn
            thread .leaving).sum w + w.phase (.sweeping app) = s.sum w + w.phase .leaving :=
          fun w => sum_turn w rfl rfl hphase
        exact fun app' k => ⟨hsum (onCounter app' k), hsum (within app' k)⟩
    next => exact hstay
  next => exact hstay

/-- `conn_counts.remove` of a purge: the app's tickets are not current any more. -/
theorem purge (hphase : s.busy.hget thread = some (.purging app))
    (hpurge : s' = ({ s with
      connCounts := s.connCounts.hdel app
      purges := s.purges.hset app (s.purgesOf app + 1) } : Gate App).rest thread) :
    AppLaw cfg s' := by
  have hpurged : s'.purgesOf app = s.purgesOf app + 1 := by
    simp [hpurge, purgesOf, Gate.rest]
  have hholds : ∀ ticket, s'.Holds ticket → s.Holds ticket := by
    rw [hpurge]
    exact holds_of (.rest rfl) (.same rfl)
  refine h.forget (by rw [hpurge]; rfl) (by rw [hpurge]; rfl) (by rw [hpurge]; rfl) ?_ ?_ hholds
    ?_ ?_ ?_
  · intro app' hne
    simp [hpurge, purgesOf, Gate.rest, Hash.hget_hset_ne _ _ hne]
  · rw [hpurged]
    exact Nat.le_succ _
  · intro ticket hheld happ hlt
    rw [hpurged] at hlt
    rcases Nat.lt_or_eq_of_le (Nat.le_of_lt_succ hlt) with hstale | hcurrent
    · exact .inl hstale
    · subst happ
      exact .inr ((h.valid ticket (hholds ticket hheld)).current hcurrent)
  · intro ticket hheld happ heq
    rw [hpurged] at heq
    have hpast := (h.valid ticket (hholds ticket hheld)).past
    rw [happ, heq] at hpast
    exact absurd hpast (Nat.not_succ_le_self _)
  · have hsum : ∀ w : Scale App, s'.sum w + w.phase (.purging app) = s.sum w := by
      rw [hpurge]
      exact fun w => sum_rest w rfl rfl hphase
    exact fun app' k => ⟨hsum (onCounter app' k), hsum (within app' k)⟩

theorem rest (hcounts : s'.connCounts = s.connCounts)
    (hcounters : s'.counters = s.counters) (hnext : s'.next = s.next)
    (hpurges : s'.purges = s.purges)
    (hslab : ∀ w : Scale App, s'.slab.tally w.entry = s.slab.tally w.entry) (hfrom : SlabFrom s s')
    (hbusy : s'.busy = s.busy.hdel thread) (hphase : s.busy.hget thread = some old)
    (hfree : ∀ app k, old.onCounter app k = 0 ∧ old.within app k = 0) : AppLaw cfg s' := by
  refine h.keep hcounts hcounters hnext hpurges (holds_of (.rest hbusy) hfrom) ?_
  intro app k
  have hon : s'.sum (onCounter app k) + old.onCounter app k = s.sum (onCounter app k) :=
    sum_rest (onCounter app k) (hslab _) hbusy hphase
  have hin : s'.sum (within app k) + old.within app k = s.sum (within app k) :=
    sum_rest (within app k) (hslab _) hbusy hphase
  rw [(hfree app k).1] at hon
  rw [(hfree app k).2] at hin
  exact ⟨hon, hin⟩

theorem advance (hseated : s.Seated) {phase : Phase App} (saturated : Bool)
    (verdict : Option Bool) (hphase : s.busy.hget thread = some phase)
    (hok : ∀ app ∈ phase.swept, s.Sweepable app) :
    AppLaw cfg (s.advance cfg thread saturated verdict phase) := by
  cases phase with
  | taking | gating =>
    simp only [Gate.advance]
    split <;> exact h.turn rfl rfl rfl rfl rfl rfl hphase (.inl rfl) fun _ _ => ⟨rfl, rfl⟩
  | looking => exact h.look hphase rfl
  | counting => exact h.count saturated verdict hphase
  | asking _ ticket =>
    simp only [Gate.advance]
    split
    · exact h.turn rfl rfl rfl rfl rfl rfl hphase (.inr rfl) fun _ _ => ⟨rfl, rfl⟩
    · have hsums := fun w : Scale App => hseated.sum_seat w hphase
      rw [hseated.seat_slab ticket hphase rfl] at hsums ⊢
      refine h.keep rfl rfl rfl rfl (holds_of (.rest rfl) (.hset rfl ?_))
        fun app k => ⟨hsums _, hsums _⟩
      intro ticket' hticket
      exact .inl ⟨thread, _, hphase, hticket⟩
  | undoing =>
    exact h.discount hphase rfl rfl (fun _ _ => rfl) fun _ _ => ⟨rfl, rfl⟩
  | refusing token =>
    refine h.rest rfl rfl rfl rfl (fun w => ?_) (.hdel rfl) rfl hphase fun _ _ => ⟨rfl, rfl⟩
    exact tally_slab_hdel w
      (weight_of_session_none w (hseated.attempt thread _ token hphase rfl) rfl)
  | discounting => exact h.discount hphase rfl rfl (fun _ _ => rfl) fun _ _ => ⟨rfl, rfl⟩
  | sweeping app => exact h.sweep (hok app rfl) hphase
  | leaving =>
    exact h.rest rfl rfl rfl rfl (fun _ => rfl) (.same rfl) rfl hphase fun _ _ => ⟨rfl, rfl⟩
  | purging => exact h.purge hphase rfl

/-- The one race is a zero counter dropped while an establish has it in hand. -/
theorem step (hseated : s.Seated) {a : GateAct App} (hok : Unraced s a) :
    AppLaw cfg (gateStep cfg s a) := by
  by_cases ha : ∃ thread saturated verdict, a = .advance thread saturated verdict
  · obtain ⟨thread, saturated, verdict, rfl⟩ := ha
    simp only [gateStep]
    split
    next phase hphase => exact h.advance hseated saturated verdict hphase (hok phase hphase)
    next => exact h
  · have hstart : ∀ thread saturated verdict, a ≠ .advance thread saturated verdict :=
      fun thread saturated verdict heq => ha ⟨thread, saturated, verdict, heq⟩
    obtain ⟨-, hcounts, hcounters, hnext, hpurges⟩ := tables_start hstart
    exact h.keep hcounts hcounters hnext hpurges (holds_start hstart)
      fun app k => ⟨hseated.sum_start _ hstart, hseated.sum_start _ hstart⟩

end

theorem empty : AppLaw cfg (Gate.empty : Gate App) := by
  refine ⟨?_, ?_, ?_, ?_, fun _ _ => Nat.zero_le _⟩
  · intro app counter hmap
    cases hmap
  · intro app app' counter hmap
    cases hmap
  · rintro ticket (⟨thread, phase, hphase, -⟩ | ⟨key, entry, hentry, -⟩)
    · cases hphase
    · cases hentry
  · intro app counter hmap
    cases hmap

end AppLaw

end Gate

/-- In every interleaving, on any number of threads, in which no `remove_if`
drops a counter that an establish has looked up and is still to increment: the
current sessions of an app stay within its capacity, and when no thread is in
the middle of anything, the counter under the app is their number. Without a
purge every session of the app is current. -/
theorem app_capacity (cfg : GateConfig App) (as : List (GateAct App))
    (has : Along (gateStep cfg) Unraced .empty as) (app : App) :
    let s := run (gateStep cfg) .empty as
    (0 < cfg.capacity app → s.currentOf app ≤ cfg.capacity app) ∧
      (s.busy = ∅ → s.counterOf app = s.currentOf app) ∧
      (s.purgesOf app = 0 → s.currentOf app = s.sessionsOf app) := by
  intro s
  have hlaw : s.Seated ∧ s.AppLaw cfg := by
    refine @Along.invariant _ _ _ _ _ _ has (fun s => s.Seated ∧ s.AppLaw cfg) ?_ ?_
    · rintro s a ⟨hseated, happ⟩ hok
      exact ⟨hseated.step a, happ.step hseated hok⟩
    · exact ⟨.empty, .empty⟩
  obtain ⟨-, happ⟩ := hlaw
  refine ⟨fun hcap => ?_, fun hidle => ?_, fun hnever => ?_⟩
  · have hle : s.currentOf app ≤ s.sum (within app (s.purgesOf app)) := Nat.le_add_right _ _
    exact le_trans hle (happ.bound app (Nat.ne_of_gt hcap))
  · have hsum : s.sum (onCounter app (s.purgesOf app)) = s.currentOf app := by
      show s.currentOf app + s.busy.tally _ = _
      rw [hidle, Hash.tally_empty, add_zero]
    unfold Gate.counterOf
    cases hmap : s.connCounts.hget app with
    | some counter =>
      rw [Option.elim_some, happ.stock app counter hmap, hsum]
    | none =>
      have hnone : s.sum (onCounter app (s.purgesOf app)) = 0 := by
        apply Gate.sum_onCounter_eq_zero
        rintro ticket hheld ⟨rfl, hpurge⟩
        rw [(happ.valid ticket hheld).current hpurge] at hmap
        cases hmap
      rw [Option.elim_none, ← hsum, hnone]
      rfl
  · apply Hash.tally_congr
    intro key entry hentry
    cases hsession : entry.session with
    | none => rfl
    | some ticket =>
      have hpast := (happ.valid ticket (.inr ⟨key, entry, hentry, hsession⟩)).past
      simp only [Option.elim_some]
      refine if_congr ⟨fun hboth => hboth.1, fun hticket => ⟨hticket, ?_⟩⟩ rfl rfl
      rw [hticket, hnever] at hpast
      rw [hnever]
      exact Nat.le_zero.mp hpast

/-- A connection comes in and its establish goes through without a pause. -/
def enters (worker token : Nat) (app : App) : List (GateAct App) :=
  .accept worker token :: .establish worker token app ::
    List.replicate 5 (.advance worker false none)

/-- The next `n` operations of a thread. -/
def advances (thread n : Nat) : List (GateAct App) :=
  List.replicate n (.advance thread false none)

/-- With room for one: a session, an establish that is refused, and a purge that
makes room for another. -/
theorem app_capacity_purged : let cfg : GateConfig Nat := ⟨0, fun _ => 1, false⟩
    let as := enters 1 1 7 ++ enters 2 1 7 ++ advances 2 1 ++ [.purge 9 7] ++ advances 9 1 ++
      enters 2 1 7
    let s := run (gateStep cfg) .empty as
    Along (gateStep cfg) Unraced .empty as ∧ s.currentOf 7 ≤ 1 ∧ s.sessionsOf 7 = 2 ∧
      s.counterOf 7 = s.currentOf 7 := by
  intro cfg as s
  have has : Along (gateStep cfg) Unraced .empty as := by decide +kernel
  have hidle : s.busy = ∅ := Hash.hlen_eq_zero.mp (by decide +kernel)
  have hall : s.sessionsOf 7 = 2 := by decide +kernel
  obtain ⟨hbound, hcounter, -⟩ := app_capacity cfg as has 7
  exact ⟨has, hbound Nat.one_pos, hall, hcounter hidle⟩

/-- With room for one. A purge leaves the session that it is closing without a
counter, and lets in another. An establish that looks the counter up just before
the last session's `remove` drops it from the map increments what the map does
not have, and another gets in beside it. -/
theorem app_capacity_exceeded : let cfg : GateConfig Nat := ⟨0, fun _ => 1, false⟩
    let purged := run (gateStep cfg) .empty (enters 1 1 7 ++ [.purge 9 7] ++ advances 9 1)
    let reopened := run (gateStep cfg) purged (enters 2 1 7)
    let raced := run (gateStep cfg) .empty (enters 1 1 7 ++
      [.accept 2 1, .establish 2 1 7] ++ advances 2 3 ++ [.remove 1 1] ++ advances 1 3 ++
      advances 2 2 ++ enters 3 1 7)
    (purged.busy = ∅ ∧ purged.counterOf 7 = 0 ∧ purged.sessionsOf 7 = 1 ∧
      reopened.sessionsOf 7 = 2) ∧
    raced.busy = ∅ ∧ raced.purgesOf 7 = 0 ∧ raced.counterOf 7 = 1 ∧ raced.sessionsOf 7 = 2 := by
  intro cfg purged reopened raced
  refine ⟨⟨Hash.hlen_eq_zero.mp ?_, ?_, ?_, ?_⟩, Hash.hlen_eq_zero.mp ?_, ?_, ?_, ?_⟩ <;>
    decide +kernel

end Pylon.Transport
