import Pylon.Lib.Trace
import Pylon.Redis.Scripts

/-!
# The sweep lease

One key, `sweeplock`, holds the id of the node that may sweep. `acquire_lease`
is up to three commands: `SET NX`; where that is rejected, `GET`; and where the
reply is the caller's own id, a `SET` without `NX` to renew. Calls of any number
of nodes interleave command by command, the key may lapse between any two, and
any command may fail, with or without having been executed.

The renewing `SET` trusts what the `GET` before it saw. `lease_exclusive` says
what has to stay out of that gap, and `lease_overwritten` what happens when it
does not.
-/

namespace Pylon.Redis

open Pylon.Lib

/-- The command a call issues next. -/
inductive LeaseCmd
  | setNx
  | get
  | set
  deriving DecidableEq

/-- Whether the command, executed, writes the key. -/
def LeaseCmd.writes : LeaseCmd → Option Text → Bool
  | .setNx, lock => lock.isNone
  | .get, _ => false
  | .set, _ => true

/-- The reply of a command that is executed. -/
def LeaseCmd.reply : LeaseCmd → Option Text → Option Text
  | .setNx, none => some ['O', 'K']
  | .setNx, some _ => none
  | .get, lock => lock
  | .set, _ => some ['O', 'K']

/-- What becomes of a command: an error may hide an execution. -/
inductive LeaseFate
  | replied
  | lost
  | unanswered
  deriving DecidableEq

def LeaseFate.executed : LeaseFate → Bool
  | .replied | .unanswered => true
  | .lost => false

/-- What the caller sees. -/
def LeaseFate.answer (fate : LeaseFate) (reply : Option Text) : Except Unit (Option Text) :=
  if fate = .replied then .ok reply else .error ()

inductive LeaseMove
  | next (cmd : LeaseCmd)
  | done (acquired : Bool)

/-- `acquire_lease`, from one command's answer to the next command. -/
def acquireLease (nodeId : Text) : LeaseCmd → Except Unit (Option Text) → LeaseMove
  | .setNx, .ok (some _) => .done true
  | .setNx, .ok none => .next .get
  | .setNx, .error _ => .done false
  | .get, .ok (some owner) => if owner = nodeId then .next .set else .done false
  | .get, .ok none => .done false
  | .get, .error _ => .done false
  -- a failed renewal is logged: the prior lease is taken to hold
  | .set, _ => .done true

/-- A call under way. -/
structure LeaseCall where
  node : Text
  next : LeaseCmd
  deriving DecidableEq

structure LeaseSys where
  sweeplock : Option Text
  calls : Hash Nat LeaseCall

inductive LeaseAct
  | start (call : Nat) (node : Text)
  | command (call : Nat) (fate : LeaseFate)
  | lapse

/-- The id a step writes into the key, if it writes it. -/
def leaseWrite (s : LeaseSys) : LeaseAct → Option Text
  | .command call fate =>
    match s.calls.hget call with
    | some c => if fate.executed && c.next.writes s.sweeplock then some c.node else none
    | none => none
  | _ => none

/-- How the call whose command this is goes on. -/
def leaseMove (s : LeaseSys) (fate : LeaseFate) (c : LeaseCall) : LeaseMove :=
  acquireLease c.node c.next (fate.answer (c.next.reply s.sweeplock))

/-- One call's start, one command, or the key's expiry. -/
def leaseStep (s : LeaseSys) : LeaseAct → LeaseSys
  | .start call node =>
    match s.calls.hget call with
    | some _ => s
    | none => { s with calls := s.calls.hset call ⟨node, .setNx⟩ }
  | .command call fate =>
    match s.calls.hget call with
    | some c =>
      { sweeplock := leaseWrite s (.command call fate) <|> s.sweeplock
        calls :=
          match leaseMove s fate c with
          | .next cmd => s.calls.hset call { c with next := cmd }
          | .done _ => s.calls.hdel call }
    | none => s
  | .lapse => { s with sweeplock := none }

/-- The call that returns at this step, with what it returns. -/
def leaseReturn (s : LeaseSys) : LeaseAct → Option (Text × Bool)
  | .command call fate =>
    match s.calls.hget call with
    | some c =>
      match leaseMove s fate c with
      | .next _ => none
      | .done acquired => some (c.node, acquired)
    | none => none
  | _ => none

/-- The last command got its reply. An error before the last command ends the
call with `false`, so a call that returns `true` met no error at all. -/
def LeaseAct.Clean : LeaseAct → Prop
  | .command _ fate => fate = .replied
  | _ => False

instance : ∀ a : LeaseAct, Decidable a.Clean
  | .command _ _ => inferInstanceAs (Decidable (_ = _))
  | .start _ _ | .lapse => isFalse not_false

/-- No step overwrites another node's lease; and a call that returns `true`
with no error does so on a write of its own that leaves its id in the key. -/
def Exclusive (s : LeaseSys) (a : LeaseAct) : Prop :=
  (∀ id ∈ leaseWrite s a, ∀ holder ∈ s.sweeplock, holder = id) ∧
    ∀ r ∈ leaseReturn s a, r.2 = true → a.Clean →
      leaseWrite s a = some r.1 ∧ (leaseStep s a).sweeplock = some r.1

instance (s : LeaseSys) (a : LeaseAct) : Decidable (Exclusive s a) :=
  inferInstanceAs (Decidable (_ ∧ _))

/-! ## The gap between `GET` and `SET` -/

/-- The call has read its own id and not yet written it. -/
def LeaseSys.Renewing (s : LeaseSys) (call : Nat) (node : Text) : Prop :=
  s.calls.hget call = some ⟨node, .set⟩

/-- A free key is written only while no other node is between its `GET` and its
`SET`. -/
def Unraced (s : LeaseSys) (a : LeaseAct) : Prop :=
  s.sweeplock = none → ∀ id ∈ leaseWrite s a, ∀ call ∈ s.calls.hkeys,
    ∀ c ∈ s.calls.hget call, c.next = .set → c.node = id

instance (s : LeaseSys) (a : LeaseAct) : Decidable (Unraced s a) :=
  inferInstanceAs (Decidable (_ → _))

variable {s : LeaseSys} {a : LeaseAct} {id node : Text}

theorem Unraced.renewing (h : Unraced s a) (hfree : s.sweeplock = none)
    (hid : leaseWrite s a = some id) {call : Nat} (hcall : s.Renewing call node) : node = id :=
  h hfree id hid call (Hash.mem_hkeys_of_hget hcall) _ hcall rfl

/-- A node holds the key, or is about to write it because it once did. -/
def LeaseSys.Claims (s : LeaseSys) (node : Text) : Prop :=
  s.sweeplock = some node ∨ ∃ call, s.Renewing call node

/-- The invariant: one node at a time has a claim. -/
def OneClaim (s : LeaseSys) : Prop :=
  ∀ node node', s.Claims node → s.Claims node' → node = node'

/-- A write hits a free key or comes from a call that claims it. -/
theorem leaseWrite_claims (hid : leaseWrite s a = some id) : s.sweeplock = none ∨ s.Claims id := by
  cases a with
  | start | lapse => exact absurd hid (by simp [leaseWrite])
  | command call =>
    simp only [leaseWrite] at hid
    split at hid
    next c hc =>
      split at hid
      next hwrites =>
        obtain rfl := Option.some.inj hid
        obtain ⟨node, next⟩ := c
        cases next with
        | setNx =>
          simp only [LeaseCmd.writes, Bool.and_eq_true, Option.isNone_iff_eq_none] at hwrites
          exact .inl hwrites.2
        | get => exact absurd hwrites (by simp [LeaseCmd.writes])
        | set => exact .inr (.inr ⟨call, hc⟩)
      next => exact absurd hid (by simp)
    next => exact absurd hid (by simp)

/-- So it agrees with every claim there is. -/
theorem OneClaim.write (h : OneClaim s) (ha : Unraced s a) (hid : leaseWrite s a = some id)
    (hnode : s.Claims node) : node = id := by
  rcases leaseWrite_claims hid with hfree | hclaim
  · rcases hnode with hheld | ⟨call, hr⟩
    · rw [hfree] at hheld
      exact absurd hheld (by simp)
    · exact ha.renewing hfree hid hr
  · exact h node id hnode hclaim

/-- A call goes on to the renewing `SET` only from a `GET` of its own id. -/
theorem leaseMove_set {fate : LeaseFate} {c : LeaseCall} (h : leaseMove s fate c = .next .set) :
    s.sweeplock = some c.node := by
  obtain ⟨node, next⟩ := c
  cases fate <;> cases next <;> cases hlock : s.sweeplock <;>
    simp [leaseMove, acquireLease, LeaseFate.answer, LeaseCmd.reply, hlock] at h ⊢
  exact h

/-- A call renewing after a step was renewing before it, or has just read its
own id. -/
theorem renewing_step {call : Nat} (h : (leaseStep s a).Renewing call node) : s.Claims node := by
  cases a with
  | lapse => exact .inr ⟨call, h⟩
  | start =>
    simp only [leaseStep] at h
    split at h
    next => exact .inr ⟨call, h⟩
    next =>
      simp only [LeaseSys.Renewing, Hash.hget_hset] at h
      split at h
      · exact absurd h (by simp)
      · exact .inr ⟨call, h⟩
  | command _ fate =>
    simp only [leaseStep] at h
    split at h
    next c hc =>
      cases hmove : leaseMove s fate c with
      | done =>
        simp only [LeaseSys.Renewing, hmove, Hash.hget_hdel] at h
        split at h
        · exact absurd h (by simp)
        · exact .inr ⟨call, h⟩
      | next =>
        simp only [LeaseSys.Renewing, hmove, Hash.hget_hset] at h
        split at h
        · obtain ⟨rfl, rfl⟩ := LeaseCall.mk.inj (Option.some.inj h)
          exact .inl (leaseMove_set hmove)
        · exact .inr ⟨call, h⟩
    next => exact .inr ⟨call, h⟩

/-- The key after a step holds what the step wrote, or what it held. -/
theorem sweeplock_step {holder : Text} (h : (leaseStep s a).sweeplock = some holder) :
    leaseWrite s a = some holder ∨ s.sweeplock = some holder := by
  cases a with
  | lapse => exact absurd h (by simp [leaseStep])
  | start =>
    simp only [leaseStep] at h
    split at h <;> exact .inr h
  | command =>
    simp only [leaseStep] at h
    split at h
    next =>
      rw [Option.orElse_eq_orElse, Option.orElse_eq_or, Option.or_eq_some_iff] at h
      exact h.imp_right And.right
    next => exact .inr h

/-- A claim is made on a free key, or by the node that has it. -/
theorem oneClaim_step (s : LeaseSys) (a : LeaseAct) (h : OneClaim s) (ha : Unraced s a) :
    OneClaim (leaseStep s a) := by
  -- a claim after the step is an old one or the step's own write
  have hold : ∀ node, (leaseStep s a).Claims node →
      leaseWrite s a = some node ∨ s.Claims node := by
    rintro node (hheld | ⟨call, hr⟩)
    · exact (sweeplock_step hheld).imp_right .inl
    · exact .inr (renewing_step hr)
  intro node node' hnode hnode'
  rcases hold node hnode with hw | hc <;> rcases hold node' hnode' with hw' | hc'
  · exact Option.some.inj (hw.symm.trans hw')
  · exact (h.write ha hw hc').symm
  · exact h.write ha hw' hc
  · exact h node node' hc hc'

theorem writes_of_leaseMove_true {c : LeaseCall} (h : leaseMove s .replied c = .done true) :
    c.next.writes s.sweeplock = true := by
  obtain ⟨node, next⟩ := c
  cases next with
  | setNx =>
    cases hlock : s.sweeplock with
    | none => rfl
    | some => simp [leaseMove, acquireLease, LeaseFate.answer, LeaseCmd.reply, hlock] at h
  | get =>
    cases hlock : s.sweeplock with
    | none => simp [leaseMove, acquireLease, LeaseFate.answer, LeaseCmd.reply, hlock] at h
    | some =>
      simp only [leaseMove, acquireLease, LeaseFate.answer, LeaseCmd.reply, hlock, if_true] at h
      split at h <;> exact absurd h (by simp)
  | set => rfl

/-- A clean `true` is returned on the write itself. -/
theorem leaseWrite_of_return (hret : leaseReturn s a = some (id, true)) (hclean : a.Clean) :
    leaseWrite s a = some id ∧ (leaseStep s a).sweeplock = some id := by
  cases a with
  | start | lapse => exact absurd hclean not_false
  | command call fate =>
    obtain rfl : fate = .replied := hclean
    simp only [leaseReturn] at hret
    split at hret
    next c hc =>
      split at hret
      next => exact absurd hret (by simp)
      next acquired hmove =>
        obtain ⟨rfl, rfl⟩ := Prod.mk.inj (Option.some.inj hret)
        have hwrite : leaseWrite s (.command call .replied) = some c.node := by
          simp [leaseWrite, hc, LeaseFate.executed, writes_of_leaseMove_true hmove]
        refine ⟨hwrite, ?_⟩
        simp [leaseStep, hc, hwrite]
    next => exact absurd hret (by simp)

/-- In every run from a moment with no call under way, with the key in any
state, in which a free key is written only while no other node is between its
`GET` and its `SET`: no step overwrites another node's lease, and every call that
returns `true` with no error has just written its id. -/
theorem lease_exclusive (s : LeaseSys) (hidle : s.calls = ∅) (as : List LeaseAct)
    (has : Along leaseStep Unraced s as) : Along leaseStep Exclusive s as := by
  have hs : OneClaim s := by
    have hlock : ∀ node, s.Claims node → s.sweeplock = some node := by
      rintro node (hheld | ⟨call, hr⟩)
      · exact hheld
      · rw [LeaseSys.Renewing, hidle] at hr
        exact absurd hr (by simp)
    intro node node' hnode hnode'
    exact Option.some.inj ((hlock node hnode).symm.trans (hlock node' hnode'))
  refine has.of_invariant (fun s a h ha => ⟨oneClaim_step s a h ha, ?_, ?_⟩) hs
  · intro id hid holder hholder
    exact h.write ha hid (.inl hholder)
  · rintro ⟨id, acquired⟩ hret rfl hclean
    exact leaseWrite_of_return hret hclean

/-- Node `a` acquires and renews, its lease lapses, and `b` takes over. -/
theorem lease_exclusive_takeover :
    Along leaseStep Exclusive ⟨none, ∅⟩
      [.start 0 ['a'], .command 0 .replied, .start 1 ['a'], .command 1 .replied,
        .start 2 ['b'], .command 2 .replied, .command 1 .replied, .command 2 .replied,
        .command 1 .replied, .lapse, .start 3 ['b'], .command 3 .replied] :=
  lease_exclusive ⟨none, ∅⟩ rfl _ (by decide)

/-- Node `a`'s call reads its own id; the lease lapses and `b` acquires it; the
renewing `SET` of `a` then overwrites the lease of `b`. -/
theorem lease_overwritten :
    ¬ Along leaseStep Exclusive ⟨none, ∅⟩
      [.start 0 ['a'], .command 0 .replied, .start 1 ['a'], .command 1 .replied,
        .command 1 .replied, .lapse, .start 2 ['b'], .command 2 .replied,
        .command 1 .replied] := by
  decide

end Pylon.Redis
