import Pylon.Lib.Trace
import Pylon.Transport.Worker

/-!
# What a step of the worker comes to

Apart from broadcasts, a step visits entries of the slab one at a time: a handler runs,
what it left is stored and folded, and a connection that was given up is taken out.

`Worker.Rule` is what is to be checked of visits for a property to hold after every step.
-/

namespace Pylon.Transport

open Pylon.Lib

/-- What a visit other than a read runs on an entry. -/
inductive WorkerEntry.Work (cfg : WorkerConfig) (gen : BitVec 64) (e : WorkerEntry) :
    Handled → Prop
  | writable (input : Input) (now : Nat) : Work cfg gen e (e.handleWritable cfg gen input now)
  | mail (mail : List Mail) (site : FlushSite) (now : Nat) :
      Work cfg gen e (e.drainSession mail site now)
  | resumed (upgrade : Upgrade) (gen' : BitVec 64) (site : FlushSite) (now : Nat) :
      Work cfg gen e (({ e with pendingEstablish := none } : WorkerEntry).establish
        upgrade gen' site now)
  | ping (text : Bytes) (site : FlushSite) (now : Nat) :
      Work cfg gen e ((e.queueText text now).flushAndArm site now)
  | goodbye (text : Bytes) (code : Nat) (reason : String) (site : FlushSite) (now : Nat) :
      Work cfg gen e ((e.queueText text now).sendCloseReply code reason site now)
  | closeDue (text : Option Bytes) (code : Nat) (reason : String) (site : FlushSite) (now : Nat) :
      Work cfg gen e
        { (text.elim e fun text => e.queueText text now).sendCloseReply code reason site now with
          action := .close }

namespace Worker

/-- The property outlives accepts, removals, visits and the flags of the shutdown. -/
structure Rule (cfg : WorkerConfig) (P : Worker → Prop) : Prop where
  accept : ∀ w key, P w → P (w.accept cfg key)
  remove : ∀ w key, P w → P (w.remove key)
  visit : ∀ w key e r, P w → w.conns.hget key = some e → e.Work cfg w.nextGen r →
    P ((w.put key r).settle key r.action)
  flags : ∀ w started stopped, P w →
    P { w with drainStarted := started, stopped := stopped }

variable {cfg : WorkerConfig} {w : Worker}

namespace Rule

variable {P : Worker → Prop} (rule : Rule cfg P) (h : P w)

include rule h

theorem removeAll (keys : List Nat) : P (keys.foldl Worker.remove w) :=
  run_invariant rule.remove h keys

theorem writable (key : Nat) (input : Input) (now : Nat) : P (w.writable cfg key input now) := by
  rw [Worker.writable]
  cases hkey : w.conns.hget key with
  | none => exact h
  | some e => exact rule.visit w key e _ h hkey (.writable input now)

theorem drainDirty (mail : Nat → List Mail) (pass : Pass) (key : Nat) :
    P (Worker.drainDirty mail pass w key) := by
  rw [Worker.drainDirty]
  cases hopen : w.openConn key with
  | none => exact h
  | some e => exact rule.visit w key e _ h (session_of_openConn hopen).1 (.mail _ _ _)

theorem drainResolved (token : Nat) (gen : BitVec 64) (outcome : Except Reject Bytes)
    (pass : Pass) : P (w.drainResolved token gen outcome pass) := by
  rw [Worker.drainResolved]
  cases hkey : w.conns.hget token with
  | none => exact h
  | some e =>
    dsimp only
    split
    · exact h
    · cases outcome with
      | ok text => exact rule.visit w token e _ h hkey (.resumed (.establish text) gen _ _)
      | error reject => exact rule.visit w token e _ h hkey (.resumed (.reject reject) gen _ _)

theorem closeDue (key code : Nat) (reason : String) (text : Option Bytes) (pass : Pass) :
    P (w.closeDue key code reason text pass) := by
  rw [Worker.closeDue]
  cases hkey : w.conns.hget key with
  | none => exact h
  | some e => exact rule.visit w key e _ h hkey (.closeDue text code reason _ _)

theorem fireDue (due : Due) (pass : Pass) : P (w.fireDue due pass) := by
  cases due with
  | ping key =>
    rw [Worker.fireDue]
    cases hopen : w.openConn key with
    | none => exact h
    | some e => exact rule.visit w key e _ h (session_of_openConn hopen).1 (.ping _ _ _)
  | close4201 key => exact rule.closeDue h key 4201 _ none pass
  | close4202 key text => exact rule.closeDue h key 4202 _ (some text) pass
  | handshakeTimeout key =>
    rw [Worker.fireDue]
    cases w.conns.hget key with
    | none => exact h
    | some =>
      dsimp only
      split
      · exact h
      · exact rule.remove w key h

theorem drainCloseConnection (text : Nat → Bytes) (pass : Pass) (key : Nat) :
    P (Worker.drainCloseConnection text pass w key) := by
  rw [Worker.drainCloseConnection]
  cases hkey : w.conns.hget key with
  | none => exact h
  | some e => exact rule.visit w key e _ h hkey (.goodbye _ 4200 _ _ _)

theorem shutdown (text : Nat → Bytes) (expired : Bool) (pass : Pass) :
    P (w.shutdown text expired pass) := by
  have hstarted : P (if w.drainStarted then w
      else { w.keys.foldl (Worker.drainCloseConnection text pass) w with
        drainStarted := true }) := by
    split
    · exact h
    · exact rule.flags _ true _ (@run_invariant _ _ _ P
        (fun _ key h => rule.drainCloseConnection h text pass key) w h w.keys)
  rw [Worker.shutdown]
  generalize (if w.drainStarted then w
    else { w.keys.foldl (Worker.drainCloseConnection text pass) w with
      drainStarted := true }) = w' at hstarted
  split
  · exact rule.flags _ _ true (rule.removeAll hstarted w'.keys)
  · exact hstarted

/-- A step keeps the property, given its read or its broadcasts do. -/
theorem step (a : WorkerAct)
    (readable : ∀ key ready now, a = .event key ready now → ready.hangup = false →
      ∀ input ∈ ready.readable, P (w.readable cfg key input now))
    (broadcasts : ∀ budget msgs pass, a = .broadcasts budget msgs pass →
      P (w.drainBroadcasts budget msgs pass)) : P (workerStep cfg w a) := by
  unfold workerStep
  split
  · exact h
  · cases a with
    | shutdown text expired pass => exact rule.shutdown h text expired pass
    | accept keys => exact run_invariant rule.accept h keys
    | event key ready now =>
      dsimp only
      rw [Worker.handleEvent]
      split
      · exact rule.remove w key h
      · rename_i hhangup
        have hread := readable key ready now rfl (Bool.eq_false_iff.mpr hhangup)
        cases hready : ready.readable with
        | none =>
          cases ready.writable with
          | none => exact h
          | some output => exact rule.writable h key output now
        | some input =>
          cases ready.writable with
          | none => exact hread input hready
          | some output => exact rule.writable (hread input hready) key output now
    | broadcasts budget msgs pass => exact broadcasts budget msgs pass rfl
    | dirty keys mail pass =>
      exact @run_invariant _ _ _ P (fun _ key h => rule.drainDirty h mail pass key) w h
        (pass.walk keys.dedup)
    | resolved token gen outcome pass => exact rule.drainResolved h token gen outcome pass
    | due due pass => exact rule.fireDue h due pass

end Rule

/-- A broadcast's inbox is drained by queueing one frame on one open connection at a time. -/
theorem drainBroadcastInbox_rule {P : Worker × List Nat → Prop} {budget now : Nat}
    (queue : ∀ s token e frame, P s → s.1.conns.hget token = some e →
      P ((s.1.put token (.keep (e.queue frame now))).foldDelta token, s.2.insert token))
    (h : P (w, [])) (msgs : List BroadcastMsg) : P (w.drainBroadcastInbox budget now msgs) := by
  rw [Worker.drainBroadcastInbox]
  refine run_invariant (fun s msg hs => run_invariant (fun s sub hs => ?_) hs msg.subs) h msgs
  rw [Worker.deliver]
  split
  · exact hs
  · cases hopen : s.1.openConn sub.token with
    | none => exact hs
    | some e =>
      cases msg.frameFor sub.version with
      | none => exact hs
      | some frame =>
        dsimp only
        split
        · exact hs
        · exact queue s sub.token e frame hs (session_of_openConn hopen).1

end Worker

end Pylon.Transport
