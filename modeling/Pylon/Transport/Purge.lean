import Pylon.Transport.Delivery

/-!
# Purging an app

`purge_app` of `adapter/local.rs` empties the app's entry of the connection index
(`adapter/app_registry.rs`) and then writes an error and a Close into the mailbox of
every connection it found there. A full mailbox drops what is sent to it.

Each write into a mailbox is a step of its own. A Close in a mailbox stays there until a
drain reads it, and that drain ends the connection. So a purge is complete as long as
every Close it sends finds room.
-/

namespace Pylon.Transport

open Pylon.Channel Pylon.Lib Pylon.Protocol Pylon.Redis Pylon.Ws

variable {A Value : Type}

/-! ## The index -/

/-- `AppRegistry`: the live connections of each app. -/
abbrev AppRegistry := Hash String (Finset Text)

namespace AppRegistry

/-- The connections registered under an app. -/
def of (apps : AppRegistry) (app : String) : Finset Text := (apps.hget app).getD ∅

def insert (apps : AppRegistry) (app : String) (sid : Text) : AppRegistry :=
  apps.hset app (Insert.insert sid (apps.of app))

/-- An app left with no connection goes too. -/
def remove (apps : AppRegistry) (app : String) (sid : Text) : AppRegistry :=
  match apps.hget app with
  | none => apps
  | some set => if set.erase sid = ∅ then apps.hdel app else apps.hset app (set.erase sid)

/-- Everything that is registered has been given out. -/
def Within (apps : AppRegistry) (used : Finset Text) : Prop :=
  ∀ app set, apps.hget app = some set → set ⊆ used

variable {apps : AppRegistry} {used : Finset Text}

theorem Within.insert (h : apps.Within used) (app : String) {sid : Text} (hsid : sid ∈ used) :
    (apps.insert app sid).Within used := by
  intro app' set hget
  rw [AppRegistry.insert, Hash.hget_hset] at hget
  split at hget
  · cases hget
    refine Finset.insert_subset hsid ?_
    unfold AppRegistry.of
    cases hset : apps.hget app with
    | none => exact Finset.empty_subset used
    | some set => exact h app set hset
  · exact h app' set hget

theorem Within.hdel (h : apps.Within used) (app : String) :
    AppRegistry.Within (apps.hdel app) used := by
  intro app' set hget
  rw [Hash.hget_hdel] at hget
  split at hget
  · cases hget
  · exact h app' set hget

theorem Within.remove (h : apps.Within used) (app : String) (sid : Text) :
    (apps.remove app sid).Within used := by
  unfold AppRegistry.remove
  split
  · exact h
  next set hset =>
    split
    · exact Within.hdel h app
    · intro app' set' hget
      rw [Hash.hget_hset] at hget
      split at hget
      · cases hget
        exact (Finset.erase_subset sid set).trans (h app set hset)
      · exact h app' set' hget

end AppRegistry

/-! ## Purges -/

/-- What `close_handles_4009` sends, in order. -/
def closeHandles4009 (handles : List Text) : List (Text × ServerEvent Value) :=
  handles.flatMap fun sid =>
    [(sid, .error ⟨4009, "You got disconnected by the app."⟩),
      (sid, .close 4009 "You got disconnected by the app.")]

/-- A thread in `purge_app`: the connections it found, and what it has yet to send. It
has returned when nothing is left. -/
structure Purge (Value : Type) where
  drained : List Text
  pending : List (Text × ServerEvent Value)
  deriving DecidableEq

/-- A node with its index and the threads that purge apps. -/
structure Purging (A Value : Type) where
  node : Node A Value
  apps : AppRegistry := ∅
  threads : Hash Nat (Purge Value) := ∅

/-- A step of the node; a removed connection leaving the index; a purge that begins; the
next write of a purge. The order in which the index lists an app's connections comes
with the step. -/
inductive PurgeAct (A Value : Type) where
  | node (a : NodeAct A Value)
  | unregister (app : String) (sid : Text)
  | purgeApp (thread : Nat) (app : String) (handles : List Text)
  | send (thread : Nat)

namespace Purging

variable (ad : Adapter A Value) (out : Outside Value) (maxMessageBytes : Nat)

/-- `finish_establish` registers the session it makes. -/
def register (s : Purging A Value) : NodeAct A Value → AppRegistry
  | .own (.establish sid opening) =>
    if sid ∈ s.node.used then s.apps else s.apps.insert opening.app.id sid
  | _ => s.apps

def step (s : Purging A Value) : PurgeAct A Value → Purging A Value
  | .node a => { s with node := s.node.nodeStep ad out maxMessageBytes a, apps := s.register a }
  | .unregister app sid =>
    -- `remove` has taken the entry out of the slab
    if s.node.entries.hexists sid then s else { s with apps := s.apps.remove app sid }
  | .purgeApp thread app handles =>
    if s.threads.hexists thread ∨ ¬ handles.Nodup ∨ handles.toFinset ≠ s.apps.of app then s
    else
      { s with
        apps := s.apps.hdel app
        threads := s.threads.hset thread ⟨handles, closeHandles4009 handles⟩ }
  | .send thread =>
    match s.threads.hget thread with
    | some ⟨drained, (sid, event) :: rest⟩ =>
      { s with
        node := s.node.nodeStep ad out maxMessageBytes (.send sid event)
        threads := s.threads.hset thread ⟨drained, rest⟩ }
    | _ => s

end Purging

/-! ## Doomed connections -/

/-- A Close is waiting in the mailbox. -/
def Entry.Closing (e : Entry Value) : Prop := ∃ event ∈ e.ctx.mailbox.events, event.isClose = true

instance (e : Entry Value) : Decidable e.Closing :=
  inferInstanceAs (Decidable (∃ event ∈ e.ctx.mailbox.events, event.isClose = true))

/-- A drain that finds a Close ends the connection. -/
theorem drainEvents_closeAfter (out : Outside Value) (now : Nat) {events : List (ServerEvent Value)}
    (h : ∃ event ∈ events, event.isClose = true) (d : Drain Value) :
    (drainEvents out now events d).closeAfter = true := by
  induction events generalizing d with
  | nil =>
    obtain ⟨event, hin, -⟩ := h
    exact absurd hin List.not_mem_nil
  | cons ev rest ih =>
    cases hclose : ev.isClose with
    | true =>
      cases ev with
      | close => rfl
      | _ => cases hclose
    | false =>
      obtain ⟨d', heq, -⟩ := drainEvents_cons out now hclose rest d
      rw [heq]
      refine ih ?_ d'
      obtain ⟨event, hin, hevent⟩ := h
      rcases List.mem_cons.mp hin with rfl | hlater
      · rw [hclose] at hevent
        cases hevent
      · exact ⟨event, hlater, hevent⟩

variable {e : Entry Value}

theorem Entry.Closing.drains (h : e.Closing) (out : Outside Value) (m : Moment Value) :
    (drainSession out e m).action = .close := by
  have hclose := drainEvents_closeAfter out m.now h { entry := e }
  unfold drainSession
  dsimp only
  rw [if_pos (.inr hclose)]

/-- The connection has been opened; it is gone, or a Close is waiting for it. -/
structure Doomed (n : Node A Value) (sid : Text) : Prop where
  used : sid ∈ n.used
  closing : ∀ e, n.entries.hget sid = some e → e.Closing

theorem Entry.Closing.trySend (h : e.Closing) (event : ServerEvent Value) :
    Entry.Closing { e with ctx := { e.ctx with mailbox := e.ctx.mailbox.trySend event } } := by
  obtain ⟨close, hin, hclose⟩ := h
  exact ⟨close, Mailbox.mem_trySend hin event, hclose⟩

theorem Entry.Closing.dispatchFrame (h : e.Closing) (ad : Adapter A Value) (out : Outside Value)
    (maxMessageBytes : Nat) (n : Node A Value) (f : Frame) (m : Moment Value) :
    ((n.turn e).dispatchFrame ad out maxMessageBytes f m).1.entry.Closing := by
  obtain ⟨s, hdispatched, entry, -, heq⟩ :=
    (n.turn e).dispatchFrame_spec ad out maxMessageBytes f m
  obtain ⟨close, hin, hclose⟩ := h
  rw [heq]
  exact ⟨close, hdispatched.mailbox hin, hclose⟩

section

variable (ad : Adapter A Value) (out : Outside Value) (maxMessageBytes : Nat) {n : Node A Value}
  {sid : Text}

/-- A step on a connection with a Close in its mailbox ends it, or leaves the Close. -/
theorem Entry.Closing.nodeStep {e : Entry Value} (h : e.Closing)
    (hlive : n.entries.hget sid = some e) (hused : sid ∈ n.used) (a : NodeAct A Value) :
    ∀ e', (n.nodeStep ad out maxMessageBytes a).entries.hget sid = some e' → e'.Closing := by
  have hsame {n' : Node A Value} (heq : n'.entries.hget sid = n.entries.hget sid) :
      ∀ e', n'.entries.hget sid = some e' → e'.Closing := by
    intro e' hlive'
    rw [heq, hlive] at hlive'
    cases hlive'
    exact h
  have hgone (n' : Node A Value) :
      ∀ e', (n'.remove ad sid).entries.hget sid = some e' → e'.Closing := by
    intro e' hlive'
    rw [Node.hget_remove, if_pos rfl] at hlive'
    cases hlive'
  have hsend (event : ServerEvent Value) :
      ∀ e', (n.send sid event).entries.hget sid = some e' → e'.Closing := by
    intro e' hlive'
    rw [Node.hget_send, if_pos rfl, hlive] at hlive'
    cases hlive'
    exact h.trySend event
  by_cases htarget : a.target = some sid
  · cases a with
    | adapter => exact hsame rfl
    | send _ event =>
      cases htarget
      exact hsend event
    | own a =>
      unfold Node.nodeStep Node.step
      cases a with
      | establish =>
        cases htarget
        dsimp only
        rw [if_pos hused]
        exact hsame rfl
      | frame _ f m =>
        cases htarget
        have hframe := h.dispatchFrame ad out maxMessageBytes n f m
        dsimp only
        rw [hlive]
        dsimp only
        split
        · intro e' hlive'
          rw [Node.hget_settle, if_pos rfl] at hlive'
          cases hlive'
          exact hframe
        · exact hgone _
      | drain _ m =>
        cases htarget
        dsimp only
        rw [hlive]
        dsimp only
        rw [h.drains out m]
        exact hgone _
      | dirty _ m =>
        cases htarget
        dsimp only
        rw [hlive]
        dsimp only
        split
        · exact hsame rfl
        · rw [h.drains out m]
          exact hgone _
      | post _ event =>
        cases htarget
        dsimp only
        split
        · exact hsame rfl
        · exact hsend event
      | close =>
        cases htarget
        exact hgone n
  · exact hsame (Node.hget_nodeStep_ne ad out maxMessageBytes n htarget)

theorem Doomed.nodeStep (h : Doomed n sid) (a : NodeAct A Value) :
    Doomed (n.nodeStep ad out maxMessageBytes a) sid := by
  refine ⟨n.used_nodeStep ad out maxMessageBytes h.used a, ?_⟩
  cases hlive : n.entries.hget sid with
  | none =>
    intro e' hlive'
    rw [Node.gone_nodeStep ad out maxMessageBytes h.used hlive a] at hlive'
    cases hlive'
  | some e => exact (h.closing e hlive).nodeStep ad out maxMessageBytes hlive h.used a

/-- A Close that finds room, or another Close, dooms the connection it is sent to. -/
theorem Doomed.of_send (hused : sid ∈ n.used) {event : ServerEvent Value}
    (hclose : event.isClose = true)
    (hroom : ∀ e ∈ n.entries.hget sid, e.ctx.mailbox.hasRoom = true ∨ e.Closing) :
    Doomed (n.nodeStep ad out maxMessageBytes (.send sid event)) sid := by
  refine ⟨n.used_nodeStep ad out maxMessageBytes hused _, fun e' hlive' => ?_⟩
  change (n.send sid event).entries.hget sid = some e' at hlive'
  rw [Node.hget_send, if_pos rfl] at hlive'
  obtain ⟨e, hlive, rfl⟩ := Option.map_eq_some_iff.mp hlive'
  rcases hroom e hlive with hroom | hclosing
  · refine ⟨event, ?_, hclose⟩
    show event ∈ (e.ctx.mailbox.trySend event).events
    rw [Mailbox.trySend_events, if_pos hroom]
    exact List.mem_append_right _ List.mem_cons_self
  · exact hclosing.trySend event

end

/-! ## Every run -/

namespace Purging

/-- The Close a purge is about to send finds room in the mailbox, or another Close, or
the connection gone. -/
def Fits (s : Purging A Value) : PurgeAct A Value → Prop
  | .send thread => ∀ p ∈ s.threads.hget thread, ∀ next ∈ p.pending.head?,
      next.2.isClose = true →
      ∀ e ∈ s.node.entries.hget next.1, e.ctx.mailbox.hasRoom = true ∨ e.Closing
  | _ => True

instance (s : Purging A Value) (a : PurgeAct A Value) : Decidable (s.Fits a) := by
  cases a <;> unfold Fits <;> infer_instance

/-- Every connection a purge found has its Close coming or is doomed. -/
structure Keeps (s : Purging A Value) : Prop where
  within : s.apps.Within s.node.used
  found : ∀ thread p, s.threads.hget thread = some p → ∀ sid ∈ p.drained,
    sid ∈ s.node.used ∧
      ((∃ event, (sid, event) ∈ p.pending ∧ event.isClose = true) ∨ Doomed s.node sid)

variable (ad : Adapter A Value) (out : Outside Value) (maxMessageBytes : Nat) {s : Purging A Value}

/-- What a purge keeps while the node takes a step. -/
theorem Keeps.found_nodeStep (h : s.Keeps) (a : NodeAct A Value) {thread : Nat} {p : Purge Value}
    (hthread : s.threads.hget thread = some p) {sid : Text} (hsid : sid ∈ p.drained) :
    sid ∈ (s.node.nodeStep ad out maxMessageBytes a).used ∧
      ((∃ event, (sid, event) ∈ p.pending ∧ event.isClose = true) ∨
        Doomed (s.node.nodeStep ad out maxMessageBytes a) sid) := by
  obtain ⟨hused, hfate⟩ := h.found thread p hthread sid hsid
  exact ⟨s.node.used_nodeStep ad out maxMessageBytes hused a,
    hfate.imp_right fun hdoomed => hdoomed.nodeStep ad out maxMessageBytes a⟩

theorem Keeps.within_nodeStep (h : s.Keeps) (a : NodeAct A Value) :
    s.apps.Within (s.node.nodeStep ad out maxMessageBytes a).used :=
  fun app set hget _ hsid =>
    s.node.used_nodeStep ad out maxMessageBytes (h.within app set hget hsid) a

theorem Keeps.node (h : s.Keeps) (a : NodeAct A Value) :
    (s.step ad out maxMessageBytes (.node a)).Keeps := by
  refine ⟨?_, fun thread p hthread sid hsid =>
    h.found_nodeStep ad out maxMessageBytes a hthread hsid⟩
  have hwithin := h.within_nodeStep ad out maxMessageBytes a
  show (s.register a).Within (s.node.nodeStep ad out maxMessageBytes a).used
  unfold register
  split
  next sid opening =>
    split
    · exact hwithin
    next hfresh =>
      refine hwithin.insert opening.app.id ?_
      simp [Node.nodeStep, Node.step, hfresh]
  next => exact hwithin

theorem mem_closeHandles4009 {handles : List Text} {sid : Text} (h : sid ∈ handles) :
    (sid, .close 4009 "You got disconnected by the app.") ∈
      (closeHandles4009 handles : List (Text × ServerEvent Value)) :=
  List.mem_flatMap.mpr ⟨sid, h, by simp⟩

theorem Keeps.purgeApp (h : s.Keeps) (thread : Nat) (app : String) (handles : List Text) :
    (s.step ad out maxMessageBytes (.purgeApp thread app handles)).Keeps := by
  unfold step
  dsimp only
  split
  · exact h
  next hbegins =>
    refine ⟨h.within.hdel app, fun thread' p hthread sid hsid => ?_⟩
    dsimp only at hthread
    rw [Hash.hget_hset] at hthread
    split at hthread
    · cases hthread
      -- everything found was registered, and its Close is among what is to be sent
      have hlisted : sid ∈ s.apps.of app := by
        rw [← not_not.mp fun hne => hbegins (.inr (.inr hne)), List.mem_toFinset]
        exact hsid
      refine ⟨?_, .inl ⟨_, mem_closeHandles4009 hsid, rfl⟩⟩
      unfold AppRegistry.of at hlisted
      cases hset : s.apps.hget app with
      | none =>
        rw [hset] at hlisted
        exact absurd hlisted (Finset.notMem_empty sid)
      | some set =>
        rw [hset] at hlisted
        exact h.within app set hset hlisted
    · exact h.found thread' p hthread sid hsid

/-- A Close leaves the purge for the mailbox of its connection. -/
theorem Keeps.send (h : s.Keeps) (thread : Nat) (hfits : s.Fits (.send thread)) :
    (s.step ad out maxMessageBytes (.send thread)).Keeps := by
  unfold step
  dsimp only
  split
  next drained sid event rest hthread =>
    refine ⟨h.within_nodeStep ad out maxMessageBytes _, fun thread' p hthread' sid' hsid' => ?_⟩
    dsimp only at hthread'
    rw [Hash.hget_hset] at hthread'
    split at hthread'
    · cases hthread'
      obtain ⟨hused, hfate⟩ := h.found thread _ hthread sid' hsid'
      refine ⟨s.node.used_nodeStep ad out maxMessageBytes hused _, ?_⟩
      rcases hfate with ⟨event', hin, hclose⟩ | hdoomed
      · rcases List.mem_cons.mp hin with heq | hlater
        · -- the Close goes out now
          cases heq
          exact .inr (Doomed.of_send ad out maxMessageBytes hused hclose
            (hfits _ hthread _ rfl hclose))
        · exact .inl ⟨event', hlater, hclose⟩
      · exact .inr (hdoomed.nodeStep ad out maxMessageBytes (.send sid event))
    · exact h.found_nodeStep ad out maxMessageBytes _ hthread' hsid'
  next => exact h

theorem Keeps.step (h : s.Keeps) (a : PurgeAct A Value) (hfits : s.Fits a) :
    (s.step ad out maxMessageBytes a).Keeps := by
  cases a with
  | node a => exact h.node ad out maxMessageBytes a
  | unregister app sid =>
    unfold Purging.step
    dsimp only
    split
    · exact h
    · exact ⟨h.within.remove app sid, h.found⟩
  | purgeApp thread app handles => exact h.purgeApp ad out maxMessageBytes thread app handles
  | send thread => exact h.send ad out maxMessageBytes thread hfits

end Purging

/-- In every run in which each Close of a purge fits, once a purge has returned, every
connection it found is gone or has a Close in its mailbox. -/
theorem purge_complete (ad : Adapter A Value) (out : Outside Value) (maxMessageBytes : Nat)
    (adapter : A) (as : List (PurgeAct A Value))
    (hfits : Along (Purging.step ad out maxMessageBytes) Purging.Fits { node := { adapter } } as) :
    let s := run (Purging.step ad out maxMessageBytes) { node := { adapter } } as
    ∀ thread p, s.threads.hget thread = some p → p.pending = [] → ∀ sid ∈ p.drained,
      s.node.entries.hget sid = none ∨
      (∃ e, s.node.entries.hget sid = some e ∧ e.Closing) ∨
      (∃ app, sid ∈ s.apps.of app) := by
  intro s thread p hthread hreturned sid hsid
  have hstart : ({ node := { adapter } } : Purging A Value).Keeps := by
    refine ⟨fun app set hget => ?_, fun thread p hthread => ?_⟩
    · cases hget
    · cases hthread
  have hkeeps : s.Keeps :=
    hfits.invariant (fun s a (h : s.Keeps) hfits => h.step ad out maxMessageBytes a hfits) hstart
  obtain ⟨-, ⟨event, hin, -⟩ | hdoomed⟩ := hkeeps.found thread p hthread sid hsid
  · rw [hreturned] at hin
    exact absurd hin List.not_mem_nil
  · cases hlive : s.node.entries.hget sid with
    | none => exact .inl rfl
    | some e => exact .inr (.inl ⟨e, rfl, hdoomed.closing e hlive⟩)

/-- One connection with an event in its mailbox, and a purge of its app. -/
def purgedRun (mailboxCapacity : Nat) : List (PurgeAct (LocalAdapter Unit) Unit) :=
  [.node (.own (.establish ['1'] { retryOpening with mailboxCapacity })),
    .node (.send ['1'] .ping), .purgeApp 0 "a" [['1']], .send 0, .send 0]

def purged (mailboxCapacity : Nat) : Purging (LocalAdapter Unit) Unit :=
  run (Purging.step localAdapter retryOutside 100) { node := { adapter := .empty } }
    (purgedRun mailboxCapacity)

theorem purge_complete_roomy :
    (purged 3).threads.hget 0 = some ⟨[['1']], []⟩ ∧
      ((purged 3).node.entries.hget ['1'] = none ∨
        (∃ e, (purged 3).node.entries.hget ['1'] = some e ∧ e.Closing) ∨
        ∃ app, ['1'] ∈ (purged 3).apps.of app) := by
  have hreturned : (purged 3).threads.hget 0 = some ⟨[['1']], []⟩ := by decide
  exact ⟨hreturned, purge_complete localAdapter retryOutside 100 .empty (purgedRun 3)
    (by decide) 0 _
    hreturned rfl ['1'] List.mem_cons_self⟩

/-- The mailbox is full. The purge returns, the connection stays open without a Close, and
it is in no app's index any more. -/
theorem purge_drops_close :
    (purged 1).threads.hget 0 = some ⟨[['1']], []⟩ ∧
      ((purged 1).node.entries.hget ['1']).any (fun e => decide ¬ e.Closing) = true ∧
      ∀ app, ['1'] ∉ (purged 1).apps.of app := by
  have hempty : (purged 1).apps = ∅ := by decide
  refine ⟨by decide, by decide, fun app => ?_⟩
  rw [hempty]
  exact Finset.notMem_empty _

end Pylon.Transport
