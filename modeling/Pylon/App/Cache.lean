import Pylon.Lib.Trace
import Pylon.Ws.Context

/-!
# The app cache

`app/cache.rs` over `app/l2.rs`: app lookups go through three in-memory maps
(found, not found, disabled), an optional shared level in Redis and the driver.

An operation on a map, on Redis or on the driver is a step. Of the lookups that miss
one alias at a time one loads and the others wait for its result. Every cached value
carries the number of driver changes before it was read.

Between the read of a value and its last insertion a lookup is *loading*. What a
loading lookup carries was read before an invalidation that overtakes it, and it
inserts it afterwards. Without such an overlap every answer is as new as the last
invalidation of its alias before the lookup (`lookups_fresh`).
-/

namespace Pylon.App

open Pylon.Lib Pylon.Ws

/-! ## Lookups and values -/

/-- The outcome of an app lookup. -/
inductive AppLookup (α : Type) where
  | found (app : α)
  | disabled
  | notFound
  deriving DecidableEq

/-- What an app is looked up by; also the key it is cached under. -/
inductive LookupBy where
  | id (id : String)
  | key (key : String)
  deriving DecidableEq, Repr

/-- A hit in the shared level. -/
inductive L2Hit where
  | found (app : App)
  | disabled
  deriving DecidableEq

/-- What a load ends with, and the stamp of what it read. -/
inductive Load where
  | found (app : App) (readAt : Nat)
  | notFound (readAt : Nat)
  | disabled (readAt : Nat)
  | failed
  deriving DecidableEq

def Load.readAt : Load → Option Nat
  | found _ x | notFound x | disabled x => some x
  | failed => none

/-- The verdict of a load; `none` is the error of the driver. -/
def Load.verdict : Load → Option (AppLookup App)
  | found app _ => some (.found app)
  | notFound _ => some .notFound
  | disabled _ => some .disabled
  | failed => none

/-- One eviction of `invalidate`. -/
inductive Eviction where
  | pos (pkey : LookupBy)
  | neg (pkey : LookupBy)
  | dis (pkey : LookupBy)
  | l2 (id key : String)
  deriving DecidableEq

/-- The evictions of `invalidate`, in order. -/
def evictions (id key : String) : List Eviction :=
  [.pos (.id id), .pos (.key key), .neg (.id id), .neg (.key key), .dis (.id id), .dis (.key key),
    .l2 id key]

/-- Where a task stands. `since` is the floor of the alias when a lookup began,
and the number of driver changes when an invalidation did. -/
inductive Phase where
  | checkNeg (pkey : LookupBy) (since : Nat)
  | checkDis (pkey : LookupBy) (since : Nat)
  | enter (pkey : LookupBy) (since : Nat)
  | waiting (pkey : LookupBy) (since : Nat)
  | getL2 (pkey : LookupBy) (since : Nat)
  | askDriver (pkey : LookupBy) (since : Nat)
  | putId (pkey : LookupBy) (since : Nat) (app : App) (readAt : Nat)
  | putKey (pkey : LookupBy) (since : Nat) (app : App) (readAt : Nat)
  | putDisabled (pkey : LookupBy) (since : Nat) (readAt : Nat)
  | loaded (pkey : LookupBy) (since : Nat) (result : Load)
  | settle (pkey : LookupBy) (since : Nat) (result : Load)
  | answered (pkey : LookupBy) (since : Nat) (verdict : Option (AppLookup App))
      (readAt : Option Nat)
  | evicting (id key : String) (since : Nat) (todo : List Eviction)
  | returned
  deriving DecidableEq

namespace Phase

/-- The lookup holds, or waits for, a value it has not inserted yet. -/
def loading : Phase → Bool
  | waiting _ _ | getL2 _ _ | askDriver _ _ | putId _ _ _ _ | putKey _ _ _ _ | putDisabled _ _ _
  | loaded _ _ _ | settle _ _ _ => true
  | checkNeg _ _ | checkDis _ _ | enter _ _ | answered _ _ _ _ | evicting _ _ _ _
  | returned => false

def invalidating : Phase → Bool
  | evicting _ _ _ _ => true
  | _ => false

/-- The invalidation is at the shared level. -/
def atL2 : Phase → Bool
  | evicting _ _ _ (.l2 _ _ :: _) => true
  | _ => false

/-- The load that others wait for is over. -/
def wake (pkey : LookupBy) (result : Load) : Phase → Phase
  | waiting pkey' since => if pkey' = pkey then settle pkey' since result else waiting pkey' since
  | p => p

end Phase

/-! ## The system -/

/-- The three maps and the shared level, every value with its stamp. -/
structure Caches where
  pos : Hash LookupBy (App × Nat) := ∅
  neg : Hash LookupBy (Unit × Nat) := ∅
  dis : Hash LookupBy (Unit × Nat) := ∅
  l2 : Option (Hash LookupBy (L2Hit × Nat))

namespace Caches

def putL2 (c : Caches) (pkey : LookupBy) (hit : L2Hit) (readAt : Nat) : Caches :=
  { c with l2 := c.l2.map (·.hset pkey (hit, readAt)) }

/-- What `try_get_with` inserts of a result. -/
def insertPos (c : Caches) (pkey : LookupBy) : Load → Caches
  | .found app x => { c with pos := c.pos.hset pkey (app, x) }
  | _ => c

/-- What `cached` inserts of a result: the two negative verdicts. -/
def insertVerdict (c : Caches) (pkey : LookupBy) : Load → Caches
  | .notFound x => { c with neg := c.neg.hset pkey ((), x) }
  | .disabled x => { c with dis := c.dis.hset pkey ((), x) }
  | _ => c

def evict (c : Caches) : Eviction → Caches
  | .pos pkey => { c with pos := c.pos.hdel pkey }
  | .neg pkey => { c with neg := c.neg.hdel pkey }
  | .dis pkey => { c with dis := c.dis.hdel pkey }
  | .l2 id key => { c with l2 := c.l2.map fun h => (h.hdel (.id id)).hdel (.key key) }

end Caches

structure System extends Caches where
  driver : LookupBy → AppLookup App
  epoch : Nat := 0
  loads : Finset LookupBy := ∅
  tasks : List Phase := []
  floor : LookupBy → Nat := fun _ => 0

namespace System

/-- Nothing cached yet; `shared` says whether there is a shared level. -/
def fresh (driver : LookupBy → AppLookup App) (shared : Bool) : System :=
  { driver, l2 := if shared then some ∅ else none }

def setTask (s : System) (t : Nat) (p : Phase) : System := { s with tasks := s.tasks.set t p }

def setCaches (s : System) (c : Caches) : System := { s with toCaches := c }

/-- `try_get_with` after a miss: join the load of the alias, or begin it. -/
def beginLoad (s : System) (t : Nat) (pkey : LookupBy) (since : Nat) : System :=
  if pkey ∈ s.loads then s.setTask t (.waiting pkey since)
  else { s with loads := insert pkey s.loads }.setTask t (.getL2 pkey since)

/-- The driver's answer, read now. -/
def readDriver (s : System) (t : Nat) (pkey : LookupBy) (since : Nat) : System :=
  match s.driver pkey with
  | .found app => s.setTask t (.putId pkey since app s.epoch)
  | .disabled => s.setTask t (.putDisabled pkey since s.epoch)
  | .notFound => s.setTask t (.loaded pkey since (.notFound s.epoch))

/-- The end of `try_get_with`: a found app is inserted, and everybody who waited
gets the result. -/
def finishLoad (s : System) (t : Nat) (pkey : LookupBy) (since : Nat) (result : Load) : System :=
  { s with
    toCaches := s.toCaches.insertPos pkey result
    loads := s.loads.erase pkey
    tasks := (s.tasks.map (Phase.wake pkey result)).set t (.settle pkey since result) }

/-- An invalidation that began after `since` driver changes has returned. -/
def raise (floor : LookupBy → Nat) (id key : String) (since : Nat) (pkey : LookupBy) : Nat :=
  if pkey = .id id ∨ pkey = .key key then max (floor pkey) since else floor pkey

/-- The next operation of task `t`; `fails` says whether Redis or the driver fails
it. -/
def advance (s : System) (t : Nat) (fails : Bool) : Phase → System
  | .checkNeg pkey since =>
    match s.neg.hget pkey with
    | some (_, x) => s.setTask t (.answered pkey since (some .notFound) (some x))
    | none => s.setTask t (.checkDis pkey since)
  | .checkDis pkey since =>
    match s.dis.hget pkey with
    | some (_, x) => s.setTask t (.answered pkey since (some .disabled) (some x))
    | none => s.setTask t (.enter pkey since)
  | .enter pkey since =>
    match s.pos.hget pkey with
    | some (app, x) => s.setTask t (.answered pkey since (some (.found app)) (some x))
    | none => s.beginLoad t pkey since
  | .getL2 pkey since =>
    -- an error of the shared level degrades to the driver
    match if fails then none else s.l2.bind (·.hget pkey) with
    | some (.found app, x) => s.setTask t (.loaded pkey since (.found app x))
    | some (.disabled, x) => s.setTask t (.loaded pkey since (.disabled x))
    | none => s.setTask t (.askDriver pkey since)
  | .askDriver pkey since =>
    if fails then s.setTask t (.loaded pkey since .failed) else s.readDriver t pkey since
  | .putId pkey since app x =>
    -- the second of the two writes is not tried when the first fails
    if fails then s.setTask t (.loaded pkey since (.found app x))
    else (s.setCaches (s.putL2 (.id app.id) (.found app) x)).setTask t (.putKey pkey since app x)
  | .putKey pkey since app x =>
    (if fails then s else s.setCaches (s.putL2 (.key app.key) (.found app) x)).setTask t
      (.loaded pkey since (.found app x))
  | .putDisabled pkey since x =>
    (if fails then s else s.setCaches (s.putL2 pkey .disabled x)).setTask t
      (.loaded pkey since (.disabled x))
  | .loaded pkey since result => s.finishLoad t pkey since result
  | .settle pkey since result =>
    (s.setCaches (s.insertVerdict pkey result)).setTask t
      (.answered pkey since result.verdict result.readAt)
  | .evicting id key since (op :: todo) =>
    (if fails ∧ op = .l2 id key then s else s.setCaches (s.evict op)).setTask t
      (.evicting id key since todo)
  | .evicting id key since [] =>
    { s with floor := raise s.floor id key since }.setTask t .returned
  | .waiting _ _ | .answered _ _ _ _ | .returned => s

end System

inductive Act where
  | change (driver : LookupBy → AppLookup App)
  | lookup (pkey : LookupBy)
  | invalidate (id key : String)
  | advance (t : Nat) (fails : Bool)
  | expire (op : Eviction)

/-- One step; a task that begins is the last in `tasks`. -/
def System.step (s : System) : Act → System
  | .change driver => { s with driver, epoch := s.epoch + 1 }
  | .lookup pkey => { s with tasks := s.tasks ++ [.checkNeg pkey (s.floor pkey)] }
  | .invalidate id key =>
    { s with tasks := s.tasks ++ [.evicting id key s.epoch (evictions id key)] }
  | .advance t fails =>
    match s.tasks[t]? with
    | some p => s.advance t fails p
    | none => s
  | .expire op => s.setCaches (s.evict op)

/-- No lookup is loading while an invalidation runs, and the deletion in the
shared level does not fail. -/
def Undisturbed (s : System) (a : Act) : Prop :=
  (∀ p ∈ s.tasks, ∀ q ∈ s.tasks, p.invalidating = true → q.loading = false) ∧
    match a with
    | .advance t true => ∀ p ∈ s.tasks[t]?, p.atL2 = false
    | _ => True

instance (s : System) (a : Act) : Decidable (Undisturbed s a) := by
  unfold Undisturbed
  cases a with
  | advance t fails => cases fails <;> infer_instance
  | _ => infer_instance

/-! ## Freshness -/

/-- What is cached under an alias was read after `e` driver changes. -/
def Fresh {ν : Type} (h : Hash LookupBy (ν × Nat)) (pkey : LookupBy) (e : Nat) : Prop :=
  ∀ v, h.hget pkey = some v → e ≤ v.2

section Fresh

variable {ν : Type} {h : Hash LookupBy (ν × Nat)} {pkey : LookupBy} {e : Nat}

theorem Fresh.hdel (hf : Fresh h pkey e) (k : LookupBy) : Fresh (h.hdel k) pkey e := by
  intro v hv
  rw [Hash.hget_hdel] at hv
  split at hv
  · cases hv
  · exact hf v hv

theorem fresh_hdel_self (h : Hash LookupBy (ν × Nat)) (pkey : LookupBy) (e : Nat) :
    Fresh (h.hdel pkey) pkey e := by
  intro v hv
  rw [Hash.hget_hdel_self] at hv
  cases hv

theorem Fresh.hset (hf : Fresh h pkey e) {k : LookupBy} {v : ν × Nat} (hv : k = pkey → e ≤ v.2) :
    Fresh (h.hset k v) pkey e := by
  intro w hw
  rw [Hash.hget_hset] at hw
  split at hw
  · rename_i hk
    exact (Option.some.inj hw) ▸ hv hk.symm
  · exact hf w hw

theorem Fresh.max {e' : Nat} (hf : Fresh h pkey e) (hf' : Fresh h pkey e') :
    Fresh h pkey (max e e') := fun v hv => Nat.max_le.mpr ⟨hf v hv, hf' v hv⟩

end Fresh

/-- Everything cached under an alias was read after `e` driver changes. -/
structure Caches.FreshAt (c : Caches) (pkey : LookupBy) (e : Nat) : Prop where
  pos : Fresh c.pos pkey e
  neg : Fresh c.neg pkey e
  dis : Fresh c.dis pkey e
  l2 : ∀ h ∈ c.l2, Fresh h pkey e

namespace Caches.FreshAt

variable {c : Caches} {pkey k : LookupBy} {e : Nat} (h : c.FreshAt pkey e)

include h

theorem max {e' : Nat} (h' : c.FreshAt pkey e') : c.FreshAt pkey (max e e') :=
  ⟨h.pos.max h'.pos, h.neg.max h'.neg, h.dis.max h'.dis, fun m hm => (h.l2 m hm).max (h'.l2 m hm)⟩

theorem putL2 {hit : L2Hit} {x : Nat} (hx : k = pkey → e ≤ x) :
    (c.putL2 k hit x).FreshAt pkey e := by
  refine ⟨h.pos, h.neg, h.dis, fun m hm => ?_⟩
  obtain ⟨m, hm', rfl⟩ := Option.map_eq_some_iff.mp hm
  exact (h.l2 m hm').hset hx

theorem insertPos {result : Load} (hx : ∀ x ∈ result.readAt, k = pkey → e ≤ x) :
    (c.insertPos k result).FreshAt pkey e := by
  cases result with
  | found _ x => exact ⟨h.pos.hset (hx x rfl), h.neg, h.dis, h.l2⟩
  | notFound | disabled | failed => exact h

theorem insertVerdict {result : Load} (hx : ∀ x ∈ result.readAt, k = pkey → e ≤ x) :
    (c.insertVerdict k result).FreshAt pkey e := by
  cases result with
  | found | failed => exact h
  | notFound x => exact ⟨h.pos, h.neg.hset (hx x rfl), h.dis, h.l2⟩
  | disabled x => exact ⟨h.pos, h.neg, h.dis.hset (hx x rfl), h.l2⟩

theorem evict (op : Eviction) : (c.evict op).FreshAt pkey e := by
  cases op with
  | pos k => exact ⟨h.pos.hdel k, h.neg, h.dis, h.l2⟩
  | neg k => exact ⟨h.pos, h.neg.hdel k, h.dis, h.l2⟩
  | dis k => exact ⟨h.pos, h.neg, h.dis.hdel k, h.l2⟩
  | l2 =>
    refine ⟨h.pos, h.neg, h.dis, fun m hm => ?_⟩
    obtain ⟨m, hm', rfl⟩ := Option.map_eq_some_iff.mp hm
    exact ((h.l2 m hm').hdel _).hdel _

end Caches.FreshAt

/-- An eviction has done its work: what it evicted is gone, or newer. -/
def Eviction.Done (c : Caches) (e : Nat) : Eviction → Prop
  | pos pkey => Fresh c.pos pkey e
  | neg pkey => Fresh c.neg pkey e
  | dis pkey => Fresh c.dis pkey e
  | l2 id key => ∀ h ∈ c.l2, Fresh h (.id id) e ∧ Fresh h (.key key) e

namespace Eviction

theorem done_evict (c : Caches) (e : Nat) (op : Eviction) : op.Done (c.evict op) e := by
  cases op with
  | pos | neg | dis => exact fresh_hdel_self _ _ _
  | l2 =>
    intro m hm
    obtain ⟨m, -, rfl⟩ := Option.map_eq_some_iff.mp hm
    exact ⟨(fresh_hdel_self m _ e).hdel _, fresh_hdel_self _ _ e⟩

theorem Done.evict {c : Caches} {e : Nat} {op : Eviction} (h : op.Done c e) (op' : Eviction) :
    op.Done (c.evict op') e := by
  cases op with
  | pos | neg | dis => cases op' <;> first | exact h | exact Fresh.hdel h _
  | l2 =>
    cases op' with
    | l2 =>
      intro m hm
      obtain ⟨m, hm', rfl⟩ := Option.map_eq_some_iff.mp hm
      exact ⟨((h m hm').1.hdel _).hdel _, ((h m hm').2.hdel _).hdel _⟩
    | _ => exact h

/-- All evictions of an invalidation together clear both aliases. -/
theorem freshAt_of_done {c : Caches} {id key : String} {e : Nat}
    (h : ∀ op ∈ evictions id key, op.Done c e) {pkey : LookupBy}
    (hpkey : pkey = .id id ∨ pkey = .key key) : c.FreshAt pkey e := by
  have hl2 := h (.l2 id key) (by simp [evictions])
  rcases hpkey with rfl | rfl
  · exact ⟨h (.pos (.id id)) (by simp [evictions]), h (.neg (.id id)) (by simp [evictions]),
      h (.dis (.id id)) (by simp [evictions]), fun m hm => (hl2 m hm).1⟩
  · exact ⟨h (.pos (.key key)) (by simp [evictions]), h (.neg (.key key)) (by simp [evictions]),
      h (.dis (.key key)) (by simp [evictions]), fun m hm => (hl2 m hm).2⟩

end Eviction

/-! ## The invariant -/

/-- What a task holds is as new as the aliases it will be inserted or answered
under. -/
def Phase.Sound (floor : LookupBy → Nat) : Phase → Prop
  | checkNeg pkey since | checkDis pkey since | enter pkey since | waiting pkey since
  | getL2 pkey since | askDriver pkey since => since ≤ floor pkey
  | putId pkey since app x =>
    since ≤ floor pkey ∧ floor pkey ≤ x ∧ floor (.id app.id) ≤ x ∧ floor (.key app.key) ≤ x
  | putKey pkey since app x => since ≤ floor pkey ∧ floor pkey ≤ x ∧ floor (.key app.key) ≤ x
  | putDisabled pkey since x => since ≤ floor pkey ∧ floor pkey ≤ x
  | loaded pkey since result | settle pkey since result =>
    since ≤ floor pkey ∧ ∀ x ∈ result.readAt, floor pkey ≤ x
  | answered _ since _ readAt => ∀ x ∈ readAt, since ≤ x
  | evicting _ _ _ _ | returned => True

/-- The evictions an invalidation has behind it have done their work. -/
def Phase.Clearing (s : System) : Phase → Prop
  | evicting id key since todo =>
    since ≤ s.epoch ∧ ∃ done, evictions id key = done ++ todo ∧
      ∀ op ∈ done, op.Done s.toCaches since
  | _ => True

structure Coherent (s : System) : Prop where
  floor_le : ∀ pkey, s.floor pkey ≤ s.epoch
  fresh : ∀ pkey, s.FreshAt pkey (s.floor pkey)
  sound : ∀ p ∈ s.tasks, p.Sound s.floor
  clearing : ∀ p ∈ s.tasks, p.Clearing s

namespace Coherent

variable {s : System} {pkey : LookupBy} {p : Phase} {since : Nat}

section

variable (h : Coherent s)

include h

theorem setTask (t : Nat) (hsound : p.Sound s.floor) (hclearing : p.Clearing s) :
    Coherent (s.setTask t p) where
  floor_le := h.floor_le
  fresh := h.fresh
  sound q hq := by
    rcases List.mem_or_eq_of_mem_set hq with hq | rfl
    · exact h.sound q hq
    · exact hsound
  clearing q hq := by
    rcases List.mem_or_eq_of_mem_set hq with hq | rfl
    · exact h.clearing q hq
    · exact hclearing

/-- A write to the caches matters to invalidations only. -/
theorem write (hquiet : ∀ p ∈ s.tasks, p.invalidating = false) {c : Caches}
    (hfresh : ∀ pkey, c.FreshAt pkey (s.floor pkey)) : Coherent (s.setCaches c) where
  floor_le := h.floor_le
  fresh := hfresh
  sound := h.sound
  clearing p hp := by
    have hp := hquiet p hp
    cases p <;> trivial

theorem evict (op : Eviction) : Coherent (s.setCaches (s.evict op)) where
  floor_le := h.floor_le
  fresh pkey := (h.fresh pkey).evict op
  sound := h.sound
  clearing p hp := by
    have hclearing := h.clearing p hp
    cases p with
    | evicting =>
      obtain ⟨hsince, done, hops, hdone⟩ := hclearing
      exact ⟨hsince, done, hops, fun op' hop' => (hdone op' hop').evict op⟩
    | _ => trivial

/-- One operation of a lookup that holds nothing. -/
theorem probe (t : Nat) (hsince : since ≤ s.floor pkey) (fails : Bool)
    (hp : p = .checkNeg pkey since ∨ p = .checkDis pkey since ∨ p = .enter pkey since) :
    Coherent (s.advance t fails p) := by
  rcases hp with rfl | rfl | rfl
  · simp only [System.advance]
    split
    · rename_i u x hhit
      refine h.setTask t (fun y hy => ?_) trivial
      cases hy
      exact hsince.trans ((h.fresh pkey).neg _ hhit)
    · exact h.setTask t hsince trivial
  · simp only [System.advance]
    split
    · rename_i u x hhit
      refine h.setTask t (fun y hy => ?_) trivial
      cases hy
      exact hsince.trans ((h.fresh pkey).dis _ hhit)
    · exact h.setTask t hsince trivial
  · simp only [System.advance]
    split
    · rename_i app x hhit
      refine h.setTask t (fun y hy => ?_) trivial
      cases hy
      exact hsince.trans ((h.fresh pkey).pos _ hhit)
    · unfold System.beginLoad
      split
      · exact h.setTask t hsince trivial
      · have hloads : Coherent { s with loads := insert pkey s.loads } :=
          ⟨h.floor_le, h.fresh, h.sound, h.clearing⟩
        exact hloads.setTask t hsince trivial

/-- A load reads: the shared level holds nothing older than the alias's floor, and
the driver is read now. -/
theorem read (t : Nat) (hsince : since ≤ s.floor pkey) (fails : Bool)
    (hp : p = .getL2 pkey since ∨ p = .askDriver pkey since) : Coherent (s.advance t fails p) := by
  rcases hp with rfl | rfl
  · have hread : ∀ {hit x}, (if fails then none else s.l2.bind (·.hget pkey)) = some (hit, x) →
        s.floor pkey ≤ x := by
      intro hit x hhit
      split at hhit
      · cases hhit
      · obtain ⟨m, hm, hget⟩ := Option.bind_eq_some_iff.mp hhit
        exact (h.fresh pkey).l2 m hm _ hget
    simp only [System.advance]
    split
    · rename_i app x hhit
      refine h.setTask t ⟨hsince, fun y hy => ?_⟩ trivial
      cases hy
      exact hread hhit
    · rename_i x hhit
      refine h.setTask t ⟨hsince, fun y hy => ?_⟩ trivial
      cases hy
      exact hread hhit
    · exact h.setTask t hsince trivial
  · simp only [System.advance]
    split
    · refine h.setTask t ⟨hsince, fun y hy => ?_⟩ trivial
      cases hy
    · unfold System.readDriver
      split
      · exact h.setTask t ⟨hsince, h.floor_le _, h.floor_le _, h.floor_le _⟩ trivial
      · exact h.setTask t ⟨hsince, h.floor_le _⟩ trivial
      · refine h.setTask t ⟨hsince, fun y hy => ?_⟩ trivial
        cases hy
        exact h.floor_le _

/-- What is put into the shared level is as new as the alias it is put under. -/
theorem putL2 (hquiet : ∀ p ∈ s.tasks, p.invalidating = false) {k : LookupBy}
    (hit : L2Hit) {x : Nat} (hx : s.floor k ≤ x) : Coherent (s.setCaches (s.putL2 k hit x)) :=
  h.write hquiet fun pkey => (h.fresh pkey).putL2 fun hk => hk ▸ hx

theorem insertVerdict (hquiet : ∀ p ∈ s.tasks, p.invalidating = false)
    {result : Load} (hread : ∀ x ∈ result.readAt, s.floor pkey ≤ x) :
    Coherent (s.setCaches (s.insertVerdict pkey result)) :=
  h.write hquiet fun k => (h.fresh k).insertVerdict fun x hx hk => hk ▸ hread x hx

/-- The result of a load is as new as its alias, for the one who loaded it and for
everybody who waited. -/
theorem finishLoad (hquiet : ∀ p ∈ s.tasks, p.invalidating = false) (t : Nat)
    {result : Load} (hsince : since ≤ s.floor pkey)
    (hread : ∀ x ∈ result.readAt, s.floor pkey ≤ x) :
    Coherent (s.finishLoad t pkey since result) := by
  have hwoken : Coherent { s with tasks := s.tasks.map (Phase.wake pkey result) } := by
    refine ⟨h.floor_le, h.fresh, fun p hp => ?_, fun p hp => ?_⟩
    · obtain ⟨q, hq, rfl⟩ := List.mem_map.mp hp
      have hsound := h.sound q hq
      cases q with
      | waiting =>
        simp only [Phase.wake]
        split
        · rename_i hpkey
          subst hpkey
          exact ⟨hsound, hread⟩
        · exact hsound
      | _ => exact hsound
    · obtain ⟨q, hq, rfl⟩ := List.mem_map.mp hp
      have hclearing := h.clearing q hq
      cases q with
      | waiting =>
        simp only [Phase.wake]
        split <;> trivial
      | _ => exact hclearing
  have hstill : ∀ p ∈ s.tasks.map (Phase.wake pkey result), p.invalidating = false := by
    intro p hp
    obtain ⟨q, hq, rfl⟩ := List.mem_map.mp hp
    have hq := hquiet q hq
    cases q with
    | waiting =>
      simp only [Phase.wake]
      split <;> rfl
    | _ => exact hq
  have hwrite := hwoken.write hstill fun k =>
    (h.fresh k).insertPos fun x hx (hk : pkey = k) => hk ▸ hread x hx
  have hsettled := hwrite.setTask t (p := .settle pkey since result) ⟨hsince, hread⟩ trivial
  exact ⟨hsettled.floor_le, hsettled.fresh, hsettled.sound, hsettled.clearing⟩

/-- An invalidation returns: both aliases are clear, and nothing older is loading. -/
theorem raise {id key : String}
    (hclearing : (Phase.evicting id key since []).Clearing s)
    (hidle : ∀ p ∈ s.tasks, p.loading = false) :
    Coherent { s with floor := System.raise s.floor id key since } := by
  obtain ⟨hsince, done, hops, hdone⟩ := hclearing
  rw [List.append_nil] at hops
  have hge : ∀ pkey, s.floor pkey ≤ System.raise s.floor id key since pkey := by
    intro pkey
    unfold System.raise
    split
    · exact Nat.le_max_left _ _
    · exact Nat.le_refl _
  refine ⟨fun pkey => ?_, fun pkey => ?_, fun p hp => ?_, h.clearing⟩
  · show System.raise s.floor id key since pkey ≤ s.epoch
    unfold System.raise
    split
    · exact Nat.max_le.mpr ⟨h.floor_le pkey, hsince⟩
    · exact h.floor_le pkey
  · show s.FreshAt pkey (System.raise s.floor id key since pkey)
    unfold System.raise
    split
    · rename_i hpkey
      exact (h.fresh pkey).max (Eviction.freshAt_of_done (hops ▸ hdone) hpkey)
    · exact h.fresh pkey
  · have hsound := h.sound p hp
    have hp := hidle p hp
    cases p with
    | checkNeg pkey | checkDis pkey | enter pkey => exact Nat.le_trans hsound (hge pkey)
    | answered => exact hsound
    | evicting | returned => trivial
    | _ => cases hp

/-- A task's next access to the tables. -/
theorem advance {t : Nat} {fails : Bool} (hp : s.tasks[t]? = some p)
    (hok : Undisturbed s (.advance t fails)) : Coherent (s.advance t fails p) := by
  have hmem := List.mem_of_getElem? hp
  have hsound := h.sound p hmem
  have hquiet : p.loading = true → ∀ q ∈ s.tasks, q.invalidating = false := by
    intro hload q hq
    by_contra hinv
    exact absurd (hok.1 q hq p hmem (by simpa using hinv)) (by simp [hload])
  cases p with
  | checkNeg => exact h.probe t hsound fails (.inl rfl)
  | checkDis => exact h.probe t hsound fails (.inr (.inl rfl))
  | enter => exact h.probe t hsound fails (.inr (.inr rfl))
  | getL2 => exact h.read t hsound fails (.inl rfl)
  | askDriver => exact h.read t hsound fails (.inr rfl)
  | putId =>
    obtain ⟨hsince, hread, hid, hkey⟩ := hsound
    simp only [System.advance]
    split
    · refine h.setTask t ⟨hsince, fun y hy => ?_⟩ trivial
      cases hy
      exact hread
    · exact (h.putL2 (hquiet rfl) _ hid).setTask t ⟨hsince, hread, hkey⟩ trivial
  | putKey pkey since app x =>
    obtain ⟨hsince, hread, hkey⟩ := hsound
    have hloaded : (Phase.loaded pkey since (.found app x)).Sound s.floor := by
      refine ⟨hsince, fun y hy => ?_⟩
      cases hy
      exact hread
    simp only [System.advance]
    split
    · exact h.setTask t hloaded trivial
    · exact (h.putL2 (hquiet rfl) _ hkey).setTask t hloaded trivial
  | putDisabled pkey since x =>
    obtain ⟨hsince, hread⟩ := hsound
    have hloaded : (Phase.loaded pkey since (.disabled x)).Sound s.floor := by
      refine ⟨hsince, fun y hy => ?_⟩
      cases hy
      exact hread
    simp only [System.advance]
    split
    · exact h.setTask t hloaded trivial
    · exact (h.putL2 (hquiet rfl) _ hread).setTask t hloaded trivial
  | loaded => exact h.finishLoad (hquiet rfl) t hsound.1 hsound.2
  | settle =>
    refine (h.insertVerdict (hquiet rfl) hsound.2).setTask t (fun x hx => ?_) trivial
    exact Nat.le_trans hsound.1 (hsound.2 x hx)
  | evicting id key since todo =>
    have hclearing := h.clearing _ hmem
    cases todo with
    | nil =>
      refine (h.raise hclearing fun q hq => ?_).setTask t trivial trivial
      exact hok.1 _ hmem q hq rfl
    | cons op =>
      have hop : ¬ (fails = true ∧ op = .l2 id key) := by
        rintro ⟨rfl, rfl⟩
        exact absurd (hok.2 _ hp) (by simp [Phase.atL2])
      simp only [System.advance, if_neg hop]
      obtain ⟨hsince, done, hops, hdone⟩ := hclearing
      refine (h.evict op).setTask t trivial
        ⟨hsince, done ++ [op], by simp [hops], fun op' hop' => ?_⟩
      rcases List.mem_append.mp hop' with hop' | hop'
      · exact (hdone op' hop').evict op
      · rw [List.mem_singleton.mp hop']
        exact Eviction.done_evict s.toCaches since op
  | waiting | answered | returned => exact h

theorem spawn (hsound : p.Sound s.floor) (hclearing : p.Clearing s) :
    Coherent { s with tasks := s.tasks ++ [p] } where
  floor_le := h.floor_le
  fresh := h.fresh
  sound q hq := by
    rcases List.mem_append.mp hq with hq | hq
    · exact h.sound q hq
    · rwa [List.mem_singleton.mp hq]
  clearing q hq := by
    rcases List.mem_append.mp hq with hq | hq
    · exact h.clearing q hq
    · rw [List.mem_singleton.mp hq]
      cases p <;> exact hclearing

/-- Coherence is lost only to a step that is disturbed. -/
theorem step {a : Act} (hok : Undisturbed s a) : Coherent (s.step a) := by
  cases a with
  | change =>
    refine ⟨fun pkey => Nat.le_succ_of_le (h.floor_le pkey), h.fresh, h.sound, fun p hp => ?_⟩
    have hclearing := h.clearing p hp
    cases p with
    | evicting => exact ⟨Nat.le_succ_of_le hclearing.1, hclearing.2⟩
    | _ => trivial
  | lookup => exact h.spawn (Nat.le_refl _) trivial
  | invalidate => exact h.spawn trivial ⟨Nat.le_refl _, [], rfl, by simp⟩
  | advance =>
    simp only [System.step]
    split
    · rename_i p hp
      exact h.advance hp hok
    · exact h
  | expire op => exact h.evict op

end

end Coherent

theorem coherent_fresh (driver : LookupBy → AppLookup App) (shared : Bool) :
    Coherent (.fresh driver shared) where
  floor_le _ := Nat.le_refl 0
  fresh _ := ⟨fun _ _ => Nat.zero_le _, fun _ _ => Nat.zero_le _, fun _ _ => Nat.zero_le _,
    fun _ _ _ _ => Nat.zero_le _⟩
  sound _ hp := absurd hp List.not_mem_nil
  clearing _ hp := absurd hp List.not_mem_nil

/-- In every undisturbed run each answer was read from the driver after every
change that the last invalidation of its alias before the lookup had seen. An
invalidation is of the id and the key it is called with: a key the record had before it
changed is an alias of its own. -/
theorem lookups_fresh (driver : LookupBy → AppLookup App) (shared : Bool) (as : List Act)
    (has : Along System.step Undisturbed (.fresh driver shared) as) {pkey : LookupBy}
    {since readAt : Nat} {verdict : Option (AppLookup App)}
    (hanswer : .answered pkey since verdict (some readAt) ∈
      (run System.step (.fresh driver shared) as).tasks) : since ≤ readAt :=
  (has.invariant (fun _ _ h hok => h.step hok) (coherent_fresh driver shared)).sound _ hanswer
    readAt rfl

/-! ## Runs -/

/-- The driver before and after an app's secret is changed. -/
def oldApp : App := { id := "a", key := "k", secret := "old" }

def newApp : App := { id := "a", key := "k", secret := "new" }

/-- `n` operations of a task. -/
def advances (t n : Nat) : List Act := List.replicate n (.advance t false)

/-- A lookup by id is answered from the driver, the app changes and is invalidated,
and it is looked up again. -/
def inTurn : List Act :=
  .lookup (.id "a") :: advances 0 9 ++ [.change fun _ => .found newApp, .invalidate "a" "k"] ++
    advances 1 8 ++ .lookup (.id "a") :: advances 2 9

theorem lookups_fresh_in_turn : .answered (.id "a") 1 (some (.found newApp)) (some 1) ∈
        (run System.step (.fresh (fun _ => .found oldApp) true) inTurn).tasks ∧ 1 ≤ 1 := by
  have hanswer : .answered (.id "a") 1 (some (.found newApp)) (some 1) ∈
      (run System.step (.fresh (fun _ => .found oldApp) true) inTurn).tasks := by decide
  exact ⟨hanswer, lookups_fresh _ true inTurn (by decide) hanswer⟩

/-- The same, but the first lookup has read the driver and inserts what it read
when the invalidation has returned: the app it replaced is found again. -/
theorem lookup_stale_after_invalidate : .answered (.id "a") 1 (some (.found oldApp)) (some 0) ∈
      (run System.step (.fresh (fun _ => .found oldApp) true)
        (.lookup (.id "a") :: advances 0 5 ++
          [.change fun _ => .found newApp, .invalidate "a" "k"] ++ advances 1 8 ++ advances 0 4 ++
          .lookup (.id "a") :: advances 2 3)).tasks := by
  decide

end Pylon.App
