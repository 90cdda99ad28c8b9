import Pylon.Lib.Tally
import Pylon.Lib.Trace

/-!
# Admission counters

Every worker of the node, and every thread that purges an app, works on the
same two kinds of counters: `node_conns`, and one counter for each app, which
is reached through the shared map `conn_counts`. A step here is one operation
on a counter (an atomic) or on the map (under its shard lock), so a run of
`gateStep` (what a worker starts, or a thread's next step) is an interleaving.

A counter lives in a heap of its own (it is an `Arc`), so that a thread may
hold one that the map no longer has.
-/

namespace Pylon.Transport

open Pylon.Lib

variable {App : Type} [DecidableEq App]

/-- What `finish_establish` reads of the environment and of the app. -/
structure GateConfig (App : Type) where
  /-- Zero is unlimited, for the node and for an app. -/
  maxConnections : Nat
  capacity : App → Nat
  /-- A cluster bridge is there to be asked. -/
  clustered : Bool

/-- What a thread got from its lookup of an app's counter. -/
structure Ticket (App : Type) where
  app : App
  counter : Nat
  /-- The number of purges of the app there had been. -/
  purge : Nat
  deriving DecidableEq

/-- The gate that refused an establish. -/
inductive Refusal
  | ceiling
  | saturated
  | capacity
  | cluster
  deriving DecidableEq

/-- The operation a thread is about to make. -/
inductive Phase (App : Type)
  /-- `node_conns.fetch_add`. -/
  | taking (token : Nat) (app : App)
  /-- The read of `saturated`. -/
  | gating (token : Nat) (app : App)
  /-- `conn_counts.entry(..).or_insert_with(..).clone()`. -/
  | looking (token : Nat) (app : App)
  /-- `counter.fetch_add`. -/
  | counting (token : Nat) (ticket : Ticket App)
  /-- The question to the cluster, if there is one, and the session. -/
  | asking (token : Nat) (ticket : Ticket App)
  /-- `counter.fetch_sub` of a refusal. -/
  | undoing (token : Nat) (ticket : Ticket App) (refusal : Refusal)
  /-- `node_conns.fetch_sub` of a refusal. -/
  | refusing (token : Nat) (refusal : Refusal)
  /-- `session.conn_count.fetch_sub` in `remove`. -/
  | discounting (ticket : Ticket App)
  /-- `conn_counts.remove_if` in `remove`. -/
  | sweeping (app : App)
  /-- `node_conns.fetch_sub` in `remove`. -/
  | leaving
  /-- `conn_counts.remove` in `purge`. -/
  | purging (app : App)
  deriving DecidableEq

/-- A slab entry, as far as it decides who may establish. -/
structure SlabEntry (App : Type) where
  handshaking : Bool
  /-- `pending_establish`, by its generation. -/
  pending : Option Nat
  session : Option (Ticket App)
  deriving DecidableEq

/-- The shared counters, the workers' slabs and what the threads are in the
middle of. -/
structure Gate (App : Type) where
  nodeConns : Int
  counters : Hash Nat Int
  /-- The next counter to be allocated. -/
  next : Nat
  connCounts : Hash App Nat
  /-- By worker and token. -/
  slab : Hash (Nat × Nat) (SlabEntry App)
  /-- A worker's `next_gen`. -/
  gens : Hash Nat Nat
  busy : Hash Nat (Phase App)
  /-- How often an app was purged; no operation reads it. -/
  purges : Hash App Nat

namespace Gate

def empty : Gate App := ⟨0, ∅, 0, ∅, ∅, ∅, ∅, ∅⟩

def purgesOf (s : Gate App) (app : App) : Nat := (s.purges.hget app).getD 0

/-- What a counter holds. -/
def value (s : Gate App) (counter : Nat) : Int := (s.counters.hget counter).getD 0

/-- `fetch_add` of `d`. -/
def add (s : Gate App) (counter : Nat) (d : Int) : Gate App :=
  { s with counters := s.counters.hset counter (s.value counter + d) }

/-- The thread's next operation. -/
def turn (s : Gate App) (thread : Nat) (phase : Phase App) : Gate App :=
  { s with busy := s.busy.hset thread phase }

/-- The thread is through. -/
def rest (s : Gate App) (thread : Nat) : Gate App := { s with busy := s.busy.hdel thread }

/-- `entry(app).or_insert_with(|| Arc::new(AtomicUsize::new(0))).clone()`. -/
def lookup (s : Gate App) (app : App) : Gate App × Ticket App :=
  match s.connCounts.hget app with
  | some counter => (s, ⟨app, counter, s.purgesOf app⟩)
  | none =>
    ({ s with
        counters := s.counters.hset s.next 0
        connCounts := s.connCounts.hset app s.next
        next := s.next + 1 }, ⟨app, s.next, s.purgesOf app⟩)

/-- `remove_if(app, |_, c| c.load() == 0)`. -/
def removeIf (s : Gate App) (app : App) : Gate App :=
  match s.connCounts.hget app with
  | some counter =>
    if s.value counter = 0 then { s with connCounts := s.connCounts.hdel app } else s
  | none => s

/-- `entry.session = Some(session)`. -/
def seat (s : Gate App) (key : Nat × Nat) (ticket : Ticket App) : Gate App :=
  match s.slab.hget key with
  | some entry => { s with slab := s.slab.hset key { entry with session := some ticket } }
  | none => s

/-- A thread's next operation: `saturated` is what it reads of the memory gauge
and `verdict` the cluster's answer. -/
def advance (cfg : GateConfig App) (s : Gate App) (thread : Nat) (saturated : Bool)
    (verdict : Option Bool) : Phase App → Gate App
  | .taking token app =>
    let nodeN := s.nodeConns
    let s := { s with nodeConns := s.nodeConns + 1 }
    if cfg.maxConnections ≠ 0 ∧ (cfg.maxConnections : Int) ≤ nodeN then
      s.turn thread (.refusing token .ceiling)
    else s.turn thread (.gating token app)
  | .gating token app =>
    if saturated then s.turn thread (.refusing token .saturated)
    else s.turn thread (.looking token app)
  | .looking token app =>
    let (s, ticket) := s.lookup app
    s.turn thread (.counting token ticket)
  | .counting token ticket =>
    let current := s.value ticket.counter
    let s := s.add ticket.counter 1
    if cfg.capacity ticket.app ≠ 0 ∧ (cfg.capacity ticket.app : Int) ≤ current then
      s.turn thread (.undoing token ticket .capacity)
    else s.turn thread (.asking token ticket)
  | .asking token ticket =>
    -- a failed or missing answer lets the connection in
    if cfg.capacity ticket.app ≠ 0 ∧ cfg.clustered ∧ verdict = some false then
      s.turn thread (.undoing token ticket .cluster)
    else (s.seat (thread, token) ticket).rest thread
  | .undoing token ticket refusal =>
    (s.add ticket.counter (-1)).turn thread (.refusing token refusal)
  | .refusing token _ =>
    -- the refused connection is then removed, without a session
    { s with
      nodeConns := s.nodeConns - 1
      slab := s.slab.hdel (thread, token) }.rest thread
  | .discounting ticket => (s.add ticket.counter (-1)).turn thread (.sweeping ticket.app)
  | .sweeping app => (s.removeIf app).turn thread .leaving
  | .leaving => { s with nodeConns := s.nodeConns - 1 }.rest thread
  | .purging app =>
    { s with
      connCounts := s.connCounts.hdel app
      purges := s.purges.hset app (s.purgesOf app + 1) }.rest thread

end Gate

/-- What a worker or another thread may start, and `advance`. -/
inductive GateAct (App : Type)
  | accept (worker token : Nat)
  /-- A handshake whose app is cached. -/
  | establish (worker token : Nat) (app : App)
  | park (worker token : Nat)
  /-- One result taken by `drain_resolved`; `none` is any rejection. -/
  | resolve (worker token gen : Nat) (found : Option App)
  /-- `remove`, from wherever it is called. -/
  | remove (worker token : Nat)
  | purge (thread : Nat) (app : App)
  | advance (thread : Nat) (saturated : Bool) (verdict : Option Bool)

namespace Gate

/-- An entry leaves the slab; only a session has counters to give back. -/
def removeEntry (s : Gate App) (worker token : Nat) : Gate App :=
  match s.slab.hget (worker, token) with
  | some entry =>
    let s := { s with slab := s.slab.hdel (worker, token) }
    match entry.session with
    | some ticket => s.turn worker (.discounting ticket)
    | none => s
  | none => s

/-- The head was read and the app is not cached: `pending_establish` is set. -/
def parkEntry (s : Gate App) (worker token : Nat) (entry : SlabEntry App) : Gate App :=
  let gen := (s.gens.hget worker).getD 0
  { s with
    slab := s.slab.hset (worker, token) { entry with handshaking := false, pending := some gen }
    gens := s.gens.hset worker ((gen + 1) % 2 ^ 64) }

/-- A result for a park that is still pending resumes or rejects it. -/
def resolveEntry (s : Gate App) (worker token gen : Nat) (found : Option App) : Gate App :=
  match s.slab.hget (worker, token) with
  | some entry =>
    if entry.pending = some gen then
      match found with
      | some app =>
        { s with slab := s.slab.hset (worker, token) { entry with pending := none } }.turn worker
          (.taking token app)
      | none => { s with slab := s.slab.hdel (worker, token) }
    else s
  | none => s

/-- A handshake that goes straight on to `finish_establish`. -/
def establishEntry (s : Gate App) (worker token : Nat) (app : App) : Gate App :=
  match s.slab.hget (worker, token) with
  | some entry =>
    if entry.handshaking then
      { s with slab := s.slab.hset (worker, token) { entry with handshaking := false } }.turn worker
        (.taking token app)
    else s
  | none => s

end Gate

/-- One step. A thread starts something only when it is through with the last. -/
def gateStep (cfg : GateConfig App) (s : Gate App) : GateAct App → Gate App
  | .accept worker token =>
    if s.busy.hget worker = none ∧ s.slab.hget (worker, token) = none then
      { s with slab := s.slab.hset (worker, token) ⟨true, none, none⟩ }
    else s
  | .establish worker token app =>
    if s.busy.hget worker = none then s.establishEntry worker token app else s
  | .park worker token =>
    match s.busy.hget worker, s.slab.hget (worker, token) with
    | none, some entry => if entry.handshaking then s.parkEntry worker token entry else s
    | _, _ => s
  | .resolve worker token gen found =>
    if s.busy.hget worker = none then s.resolveEntry worker token gen found else s
  | .remove worker token =>
    if s.busy.hget worker = none then s.removeEntry worker token else s
  | .purge thread app =>
    if s.busy.hget thread = none then s.turn thread (.purging app) else s
  | .advance thread saturated verdict =>
    match s.busy.hget thread with
    | some phase => s.advance cfg thread saturated verdict phase
    | none => s

/-! ## Who may set a session -/

/-- The entry an establish is for. -/
def Phase.token : Phase App → Option Nat
  | .taking token _ | .gating token _ | .looking token _ | .counting token _ | .asking token _
  | .undoing token _ _ | .refusing token _ => some token
  | .discounting _ | .sweeping _ | .leaving | .purging _ => none

/-- The fields of an entry exclude each other. -/
def SlabEntry.Proper (entry : SlabEntry App) : Prop :=
  (entry.handshaking = true → entry.pending = none ∧ entry.session = none) ∧
    (entry.pending ≠ none → entry.session = none)

/-- An entry whose handshake is over and that is in nobody's hands but a
`finish_establish`. -/
def SlabEntry.between : SlabEntry App := ⟨false, none, none⟩

/-- An establish is for an entry of its worker that has no session yet. -/
structure Gate.Seated (s : Gate App) : Prop where
  proper : ∀ key entry, s.slab.hget key = some entry → entry.Proper
  attempt : ∀ thread phase token, s.busy.hget thread = some phase → phase.token = some token →
    s.slab.hget (thread, token) = some .between

omit [DecidableEq App] in
theorem SlabEntry.Proper.between : (SlabEntry.between : SlabEntry App).Proper :=
  ⟨fun h => absurd h Bool.false_ne_true, fun _ => rfl⟩

namespace Gate

variable {s s' : Gate App} {thread : Nat}

section

omit [DecidableEq App]

/-- What only one thread and its entries are concerned with. -/
theorem Seated.frame (h : s.Seated) (thread : Nat)
    (hslab : ∀ other token, other ≠ thread →
      s'.slab.hget (other, token) = s.slab.hget (other, token))
    (hbusy : ∀ other, other ≠ thread → s'.busy.hget other = s.busy.hget other)
    (hproper : ∀ token entry, s'.slab.hget (thread, token) = some entry → entry.Proper)
    (hattempt : ∀ phase token, s'.busy.hget thread = some phase → phase.token = some token →
      s'.slab.hget (thread, token) = some .between) : s'.Seated := by
  constructor
  · rintro ⟨other, token⟩ entry hentry
    by_cases hother : other = thread
    · subst hother
      exact hproper token entry hentry
    · rw [hslab other token hother] at hentry
      exact h.proper _ entry hentry
  · intro other phase token hphase htoken
    by_cases hother : other = thread
    · subst hother
      exact hattempt phase token hphase htoken
    · rw [hbusy other hother] at hphase
      rw [hslab other token hother]
      exact h.attempt other phase token hphase htoken

theorem Seated.move (h : s.Seated) {old : Phase App} (new : Phase App) (hslab : s'.slab = s.slab)
    (hbusy : s'.busy = s.busy.hset thread new) (hold : s.busy.hget thread = some old)
    (htoken : new.token = old.token) : s'.Seated := by
  refine h.frame thread (fun _ _ _ => by rw [hslab]) ?_ ?_ ?_
  · intro other hother
    rw [hbusy, Hash.hget_hset_ne _ _ hother]
  · intro token entry hentry
    rw [hslab] at hentry
    exact h.proper _ entry hentry
  · intro phase token hphase htok
    rw [hbusy, Hash.hget_hset_self] at hphase
    obtain rfl : new = phase := Option.some.inj hphase
    rw [hslab]
    exact h.attempt thread old token hold (htoken ▸ htok)

/-- A thread that is for no entry, after a step that changed at most one entry. -/
theorem Seated.free (h : s.Seated) (thread token : Nat)
    (hslab : ∀ key, key ≠ (thread, token) → s'.slab.hget key = s.slab.hget key)
    (hentry : ∀ entry, s'.slab.hget (thread, token) = some entry → entry.Proper)
    (hbusy : ∀ other, other ≠ thread → s'.busy.hget other = s.busy.hget other)
    (hfree : ∀ phase, s'.busy.hget thread = some phase → phase.token = none) : s'.Seated := by
  refine h.frame thread ?_ hbusy ?_ ?_
  · intro other token' hother
    exact hslab _ fun heq => hother (congrArg Prod.fst heq)
  · intro token' entry hget
    by_cases htoken : token' = token
    · subst htoken
      exact hentry entry hget
    · rw [hslab _ fun heq => htoken (congrArg Prod.snd heq)] at hget
      exact h.proper _ entry hget
  · intro phase token' hphase htoken'
    rw [hfree phase hphase] at htoken'
    cases htoken'

theorem Seated.done (h : s.Seated) (thread token : Nat)
    (hslab : ∀ key, key ≠ (thread, token) → s'.slab.hget key = s.slab.hget key)
    (hentry : ∀ entry, s'.slab.hget (thread, token) = some entry → entry.Proper)
    (hbusy : s'.busy = s.busy.hdel thread) : s'.Seated := by
  refine h.free thread token hslab hentry ?_ ?_
  · intro other hother
    rw [hbusy, Hash.hget_hdel_ne _ hother]
  · intro phase hphase
    rw [hbusy, Hash.hget_hdel_self] at hphase
    cases hphase

/-- A thread goes on to `finish_establish` for one of its entries. -/
theorem Seated.start (h : s.Seated) (thread token : Nat) (app : App)
    (hslab : s'.slab = s.slab.hset (thread, token) .between)
    (hbusy : s'.busy = s.busy.hset thread (.taking token app)) : s'.Seated := by
  refine h.frame thread ?_ ?_ ?_ ?_
  · intro other token' hother
    rw [hslab, Hash.hget_hset_ne _ _ fun heq => hother (congrArg Prod.fst heq)]
  · intro other hother
    rw [hbusy, Hash.hget_hset_ne _ _ hother]
  · intro token' entry hget
    rw [hslab, Hash.hget_hset] at hget
    split at hget
    · obtain rfl : SlabEntry.between = entry := Option.some.inj hget
      exact .between
    · exact h.proper _ entry hget
  · intro phase token' hphase htoken
    rw [hbusy, Hash.hget_hset_self] at hphase
    obtain rfl : Phase.taking token app = phase := Option.some.inj hphase
    obtain rfl : token = token' := Option.some.inj htoken
    rw [hslab, Hash.hget_hset_self]

/-! ### One step -/

@[simp] theorem slab_turn (p : Phase App) : (s.turn thread p).slab = s.slab := rfl

@[simp] theorem busy_turn (p : Phase App) : (s.turn thread p).busy = s.busy.hset thread p := rfl

@[simp] theorem slab_rest : (s.rest thread).slab = s.slab := rfl

end

variable (app : App)

@[simp] theorem slab_lookup : (s.lookup app).1.slab = s.slab := by
  unfold lookup
  split <;> rfl

@[simp] theorem busy_lookup : (s.lookup app).1.busy = s.busy := by
  unfold lookup
  split <;> rfl

@[simp] theorem slab_removeIf : (s.removeIf app).slab = s.slab := by
  unfold removeIf
  split
  · split <;> rfl
  · rfl

@[simp] theorem busy_removeIf : (s.removeIf app).busy = s.busy := by
  unfold removeIf
  split
  · split <;> rfl
  · rfl

omit [DecidableEq App] in
/-- The session goes into the entry the establish is for. -/
theorem Seated.seat_slab (h : s.Seated) {token : Nat} {phase : Phase App} (ticket : Ticket App)
    (hphase : s.busy.hget thread = some phase) (htoken : phase.token = some token) :
    s.seat (thread, token) ticket =
      { s with slab := s.slab.hset (thread, token) ⟨false, none, some ticket⟩ } := by
  unfold seat
  rw [h.attempt thread phase token hphase htoken]
  rfl

end Gate

section

omit [DecidableEq App]

theorem SlabEntry.Proper.seated (ticket : Ticket App) :
    (⟨false, none, some ticket⟩ : SlabEntry App).Proper :=
  ⟨fun h => absurd h Bool.false_ne_true, fun h => absurd rfl h⟩

theorem SlabEntry.Proper.of_pending {entry : SlabEntry App} (h : entry.Proper) {gen : Nat}
    (hpending : entry.pending = some gen) : { entry with pending := none } = SlabEntry.between := by
  obtain ⟨handshaking, pending, session⟩ := entry
  obtain rfl : pending = some gen := hpending
  obtain rfl : session = none := h.2 (Option.some_ne_none gen)
  cases handshaking with
  | false => rfl
  | true => cases (h.1 rfl).1

theorem SlabEntry.Proper.of_handshaking {entry : SlabEntry App} (h : entry.Proper)
    (hhands : entry.handshaking = true) : entry = ⟨true, none, none⟩ := by
  obtain ⟨handshaking, pending, session⟩ := entry
  obtain rfl : handshaking = true := hhands
  obtain ⟨rfl, rfl⟩ : pending = none ∧ session = none := h.1 rfl
  rfl

end

namespace Gate

variable {cfg : GateConfig App} {s : Gate App}

/-- A thread's next operation keeps every establish with its entry. -/
theorem Seated.advance (h : s.Seated) {thread : Nat} {phase : Phase App} (saturated : Bool)
    (verdict : Option Bool) (hphase : s.busy.hget thread = some phase) :
    (s.advance cfg thread saturated verdict phase).Seated := by
  cases phase with
  | taking | gating | counting =>
    simp only [Gate.advance]
    split <;> exact h.move _ rfl rfl hphase rfl
  | looking token app =>
    refine h.move (.counting token (s.lookup app).2) ?_ ?_ hphase rfl
    · exact slab_lookup app
    · exact congrArg (fun busy => Hash.hset busy thread _) (busy_lookup app)
  | asking token ticket =>
    simp only [Gate.advance]
    split
    · exact h.move _ rfl rfl hphase rfl
    · rw [h.seat_slab ticket hphase rfl]
      refine h.done thread token (fun key hkey => Hash.hget_hset_ne _ _ hkey) ?_ rfl
      intro entry hentry
      rw [slab_rest, Hash.hget_hset_self] at hentry
      obtain rfl := Option.some.inj hentry
      exact .seated ticket
  | undoing | discounting => exact h.move _ rfl rfl hphase rfl
  | refusing token =>
    refine h.done thread token (fun key hkey => Hash.hget_hdel_ne _ hkey) ?_ rfl
    intro entry hentry
    rw [Gate.advance, slab_rest, Hash.hget_hdel_self] at hentry
    cases hentry
  | sweeping app =>
    refine h.move .leaving (slab_removeIf app) ?_ hphase rfl
    exact congrArg (fun busy => Hash.hset busy thread _) (busy_removeIf app)
  | leaving | purging => exact h.done thread 0 (fun _ _ => rfl) (fun entry => h.proper _ entry) rfl

section

omit [DecidableEq App]

variable {s' : Gate App} {worker token : Nat} {entry : SlabEntry App}

/-- An idle worker puts an entry into one of its places. -/
theorem Seated.fill (h : s.Seated) (hidle : s.busy.hget worker = none) (hproper : entry.Proper)
    (hslab : s'.slab = s.slab.hset (worker, token) entry) (hbusy : s'.busy = s.busy) :
    s'.Seated := by
  refine h.free worker token ?_ ?_ (fun _ _ => by rw [hbusy]) ?_
  · intro key hkey
    rw [hslab, Hash.hget_hset_ne _ _ hkey]
  · intro filled hfilled
    rw [hslab, Hash.hget_hset_self] at hfilled
    obtain rfl := Option.some.inj hfilled
    exact hproper
  · intro phase hphase
    rw [hbusy, hidle] at hphase
    cases hphase

/-- An idle worker empties one of its places. -/
theorem Seated.vacate (h : s.Seated) (token : Nat) (hidle : s.busy.hget worker = none) :
    { s with slab := s.slab.hdel (worker, token) }.Seated := by
  refine h.done worker token (fun key hkey => Hash.hget_hdel_ne _ hkey) ?_
    (Hash.hdel_of_hget_none hidle).symm
  intro entry hget
  rw [Hash.hget_hdel_self] at hget
  cases hget

/-- A thread begins something that is for no entry. -/
theorem Seated.begin (h : s.Seated) (thread : Nat) {phase : Phase App}
    (hfree : phase.token = none) : (s.turn thread phase).Seated := by
  refine h.free thread 0 (fun _ _ => rfl) (fun entry => h.proper _ entry) ?_ ?_
  · intro other hother
    exact Hash.hget_hset_ne _ _ hother
  · intro next hnext
    rw [busy_turn, Hash.hget_hset_self] at hnext
    obtain rfl := Option.some.inj hnext
    exact hfree

theorem Seated.establish (h : s.Seated) (worker token : Nat) (app : App) :
    (s.establishEntry worker token app).Seated := by
  unfold Gate.establishEntry
  split
  next entry hentry =>
    split
    next hhands =>
      refine h.start worker token app ?_ rfl
      rw [(h.proper _ entry hentry).of_handshaking hhands]
      rfl
    next => exact h
  next => exact h

theorem Seated.park (h : s.Seated) (hidle : s.busy.hget worker = none)
    (hentry : s.slab.hget (worker, token) = some entry) (hhands : entry.handshaking = true) :
    (s.parkEntry worker token entry).Seated := by
  refine h.fill hidle ?_ rfl rfl
  rw [(h.proper _ entry hentry).of_handshaking hhands]
  exact ⟨fun hhands => absurd hhands Bool.false_ne_true, fun _ => rfl⟩

theorem Seated.resolve (h : s.Seated) (hidle : s.busy.hget worker = none) (token gen : Nat)
    (found : Option App) : (s.resolveEntry worker token gen found).Seated := by
  unfold Gate.resolveEntry
  split
  next entry hentry =>
    split
    next hgen =>
      cases found with
      | some app =>
        refine h.start worker token app ?_ rfl
        rw [← (h.proper _ entry hentry).of_pending hgen]
        rfl
      | none => exact h.vacate token hidle
    next => exact h
  next => exact h

theorem Seated.remove (h : s.Seated) (hidle : s.busy.hget worker = none) (token : Nat) :
    (s.removeEntry worker token).Seated := by
  have hgone := h.vacate token hidle
  unfold Gate.removeEntry
  split
  next =>
    -- a session's counters are still to be given back, but its entry is gone
    split
    next => exact hgone.begin worker rfl
    next => exact hgone
  next => exact h

end

theorem Seated.step (h : s.Seated) (a : GateAct App) : (gateStep cfg s a).Seated := by
  cases a with
  | accept =>
    simp only [gateStep]
    split
    next hfree => exact h.fill hfree.1 ⟨fun _ => ⟨rfl, rfl⟩, fun _ => rfl⟩ rfl rfl
    next => exact h
  | establish =>
    simp only [gateStep]
    split
    next => exact h.establish _ _ _
    next => exact h
  | park =>
    simp only [gateStep]
    split
    next hidle hentry =>
      split
      next hhands => exact h.park hidle hentry hhands
      next => exact h
    next => exact h
  | resolve =>
    simp only [gateStep]
    split
    next hidle => exact h.resolve hidle _ _ _
    next => exact h
  | remove =>
    simp only [gateStep]
    split
    next hidle => exact h.remove hidle _
    next => exact h
  | purge =>
    simp only [gateStep]
    split
    next => exact h.begin _ rfl
    next => exact h
  | advance _ saturated verdict =>
    simp only [gateStep]
    split
    next phase hphase => exact h.advance saturated verdict hphase
    next => exact h

omit [DecidableEq App] in
theorem Seated.empty : (Gate.empty : Gate App).Seated := by
  constructor
  · intro key entry hget
    cases hget
  · intro thread phase token hget
    cases hget

end Gate

/-! ## Sums over sessions and threads -/

/-- What sessions and threads count for, where a session counts for the same as
the establish that is about to set it and as the `remove` that took it. -/
structure Scale (App : Type) where
  session : Ticket App → Nat
  phase : Phase App → Nat
  taking : ∀ token app, phase (.taking token app) = 0
  purging : ∀ app, phase (.purging app) = 0
  asking : ∀ token ticket, phase (.asking token ticket) = session ticket
  discounting : ∀ ticket, phase (.discounting ticket) = session ticket

def Scale.entry (w : Scale App) (entry : SlabEntry App) : Nat := entry.session.elim 0 w.session

namespace Gate

variable {cfg : GateConfig App} {s s' : Gate App} (w : Scale App) {thread : Nat}
  {old : Phase App}

/-- What the sessions and the threads count for together. -/
def sum (w : Scale App) (s : Gate App) : Nat := s.slab.tally w.entry + s.busy.tally w.phase

section

omit [DecidableEq App]

theorem sum_turn {new : Phase App} (hslab : s'.slab = s.slab)
    (hbusy : s'.busy = s.busy.hset thread new) (hold : s.busy.hget thread = some old) :
    s'.sum w + w.phase old = s.sum w + w.phase new := by
  have hset := Hash.tally_hset w.phase s.busy thread new
  rw [Hash.weight_of_hget hold] at hset
  unfold sum
  rw [hslab, hbusy]
  omega

theorem sum_rest (hslab : s'.slab.tally w.entry = s.slab.tally w.entry)
    (hbusy : s'.busy = s.busy.hdel thread) (hold : s.busy.hget thread = some old) :
    s'.sum w + w.phase old = s.sum w := by
  have hdel := Hash.tally_hdel w.phase s.busy thread
  rw [Hash.weight_of_hget hold] at hdel
  unfold sum
  rw [hslab, hbusy]
  omega

/-- Setting the session of an establish changes no sum. -/
theorem Seated.sum_seat (h : s.Seated) {token : Nat} {ticket : Ticket App}
    (hold : s.busy.hget thread = some (.asking token ticket)) :
    ((s.seat (thread, token) ticket).rest thread).sum w = s.sum w := by
  have hslab := Hash.tally_hset w.entry s.slab (thread, token) ⟨false, none, some ticket⟩
  have hbusy := Hash.tally_hdel w.phase s.busy thread
  rw [Hash.weight_of_hget (h.attempt thread _ token hold rfl)] at hslab
  rw [Hash.weight_of_hget hold, w.asking] at hbusy
  rw [h.seat_slab ticket hold rfl]
  have hbetween : w.entry SlabEntry.between = 0 := rfl
  have hseated : w.entry ⟨false, none, some ticket⟩ = w.session ticket := rfl
  show (s.slab.hset (thread, token) ⟨false, none, some ticket⟩).tally w.entry +
    (s.busy.hdel thread).tally w.phase = s.slab.tally w.entry + s.busy.tally w.phase
  omega

end

variable {key : Nat × Nat}

section

omit [DecidableEq App]

/-- An entry without a session may go, or change as long as it gets none. -/
theorem tally_slab_hdel (hkey : s.slab.weight w.entry key = 0) :
    (s.slab.hdel key).tally w.entry = s.slab.tally w.entry := by
  have hdel := Hash.tally_hdel w.entry s.slab key
  omega

theorem tally_slab_hset {entry : SlabEntry App} (hkey : s.slab.weight w.entry key = 0)
    (hentry : entry.session = none) :
    (s.slab.hset key entry).tally w.entry = s.slab.tally w.entry := by
  have hset := Hash.tally_hset w.entry s.slab key entry
  have hzero : w.entry entry = 0 := by
    rw [Scale.entry, hentry]
    rfl
  omega

theorem weight_of_session_none {entry : SlabEntry App} (hget : s.slab.hget key = some entry)
    (hentry : entry.session = none) : s.slab.weight w.entry key = 0 := by
  rw [Hash.weight_of_hget hget, Scale.entry, hentry]
  rfl

theorem sum_start {new : Phase App} (hslab : s'.slab.tally w.entry = s.slab.tally w.entry)
    (hbusy : s'.busy = s.busy.hset thread new) (hidle : s.busy.hget thread = none)
    (hnew : w.phase new = 0) : s'.sum w = s.sum w := by
  have hset := Hash.tally_hset w.phase s.busy thread new
  rw [Hash.weight_of_absent hidle, hnew] at hset
  unfold sum
  rw [hslab, hbusy]
  omega

end

/-- Until a task goes on, no unit is moved. -/
theorem Seated.sum_start (h : s.Seated) {a : GateAct App}
    (ha : ∀ thread saturated verdict, a ≠ .advance thread saturated verdict) :
    (gateStep cfg s a).sum w = s.sum w := by
  cases a with
  | accept worker token =>
    simp only [gateStep]
    split
    next hfree =>
      have hslab : (s.slab.hset (worker, token) ⟨true, none, none⟩).tally w.entry =
          s.slab.tally w.entry := tally_slab_hset w (Hash.weight_of_absent hfree.2) rfl
      exact congrArg (· + s.busy.tally w.phase) hslab
    next => rfl
  | establish _ token app =>
    simp only [gateStep, establishEntry]
    split
    next hidle =>
      split
      next entry hentry =>
        split
        next hhands =>
          have hsession := ((h.proper _ entry hentry).1 hhands).2
          exact Gate.sum_start w
            (tally_slab_hset w (weight_of_session_none w hentry hsession) hsession) rfl hidle
            (w.taking token app)
        next => rfl
      next => rfl
    next => rfl
  | park =>
    simp only [gateStep]
    split
    next entry hidle hentry =>
      split
      next hhands =>
        have hsession := ((h.proper _ entry hentry).1 hhands).2
        exact congrArg (· + s.busy.tally w.phase)
          (tally_slab_hset w (weight_of_session_none w hentry hsession) hsession)
      next => rfl
    next => rfl
  | resolve _ token _ found =>
    simp only [gateStep, resolveEntry]
    split
    next hidle =>
      split
      next entry hentry =>
        split
        next hgen =>
          have hsession := (h.proper _ entry hentry).2 (by rw [hgen]; simp)
          have hweight := weight_of_session_none w hentry hsession
          cases found with
          | some app =>
            exact Gate.sum_start w (tally_slab_hset w hweight hsession) rfl hidle
              (w.taking token app)
          | none => exact congrArg (· + s.busy.tally w.phase) (tally_slab_hdel w hweight)
        next => rfl
      next => rfl
    next => rfl
  | remove worker token =>
    simp only [gateStep, removeEntry]
    split
    next hidle =>
      split
      next entry hentry =>
        split
        next ticket hsession =>
          -- the session now counts through the thread that removes it
          have hslab := Hash.tally_hdel w.entry s.slab (worker, token)
          have hbusy := Hash.tally_hset w.phase s.busy worker (.discounting ticket)
          rw [Hash.weight_of_hget hentry, Scale.entry, hsession, Option.elim_some] at hslab
          rw [Hash.weight_of_absent hidle, w.discounting] at hbusy
          show (s.slab.hdel (worker, token)).tally w.entry +
            (s.busy.hset worker (.discounting ticket)).tally w.phase = s.sum w
          unfold sum
          omega
        next hsession =>
          exact congrArg (· + s.busy.tally w.phase)
            (tally_slab_hdel w (weight_of_session_none w hentry hsession))
      next => rfl
    next => rfl
  | purge _ app =>
    simp only [gateStep]
    split
    next hidle => exact Gate.sum_start w rfl rfl hidle (w.purging app)
    next => rfl
  | advance thread saturated verdict => exact absurd rfl (ha thread saturated verdict)

theorem tables_start {a : GateAct App}
    (ha : ∀ thread saturated verdict, a ≠ .advance thread saturated verdict) :
    (gateStep cfg s a).nodeConns = s.nodeConns ∧ (gateStep cfg s a).connCounts = s.connCounts ∧
      (gateStep cfg s a).counters = s.counters ∧ (gateStep cfg s a).next = s.next ∧
      (gateStep cfg s a).purges = s.purges := by
  cases a with
  | accept | purge =>
    simp only [gateStep]
    split <;> exact ⟨rfl, rfl, rfl, rfl, rfl⟩
  | establish =>
    simp only [gateStep, establishEntry]
    repeat' split
    all_goals exact ⟨rfl, rfl, rfl, rfl, rfl⟩
  | park =>
    simp only [gateStep]
    repeat' split
    all_goals exact ⟨rfl, rfl, rfl, rfl, rfl⟩
  | resolve =>
    simp only [gateStep, resolveEntry]
    repeat' split
    all_goals exact ⟨rfl, rfl, rfl, rfl, rfl⟩
  | remove =>
    simp only [gateStep, removeEntry]
    repeat' split
    all_goals exact ⟨rfl, rfl, rfl, rfl, rfl⟩
  | advance thread saturated verdict => exact absurd rfl (ha thread saturated verdict)

end Gate

end Pylon.Transport
