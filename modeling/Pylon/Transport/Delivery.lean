import Pylon.Transport.SingleNode

/-!
# The delivery index

A worker delivers a broadcast to the connections its own index lists for the
channel. The index is not written by the commands: `reconcile_membership` brings it
up to the session's `subscribed` at the end of a batch, or of a drain that changed
it, and `deindex_connection` takes a closing connection out.

* **all workers** — every index lists exactly what the live entries have on record
  (`Delivers`), over every step of any adapter;
* **the loop top** — a worker that is not in the middle of a batch has its index
  exactly as its sessions say (`delivery_index_exact`), whatever is sent to them and
  whatever other nodes do to the adapter meanwhile.
-/

namespace Pylon.Transport

open Pylon.Channel Pylon.Lib Pylon.Protocol Pylon.Redis Pylon.Ws

/-! ## One index -/

namespace LocalSubs

@[simp] theorem slot_enter (ix : LocalSubs) (key key' : Key) (sid sid' : Text) (at' : Nat × Nat) :
    (ix.enter key sid at').slot key' sid' =
      if key' = key ∧ sid' = sid then some at' else ix.slot key' sid' := by
  unfold slot enter
  rw [Hash.hget_hset]
  by_cases hkey : key' = key
  · subst hkey
    cases hget : ix.hget key' with
    | none | some => simp [Hash.hget_hset]
  · simp [hkey]

@[simp] theorem slot_leave (ix : LocalSubs) (key key' : Key) (sid sid' : Text) :
    (ix.leave key sid).slot key' sid' =
      if key' = key ∧ sid' = sid then none else ix.slot key' sid' := by
  unfold slot leave
  cases hget : ix.hget key with
  | none =>
    by_cases hkey : key' = key
    · simp [hkey, hget]
    · simp [hkey]
  | some subs =>
    by_cases hkey : key' = key
    · subst hkey
      dsimp only
      split
      next hempty =>
        -- nobody is left, so the socket asked for was not there either
        have hnone : (subs.hdel sid).hget sid' = none := by
          rw [Hash.hlen_eq_zero.mp hempty, Hash.hget_empty]
        rw [Hash.hget_hdel] at hnone
        simp only [Hash.hget_hdel_self, Option.bind_none, true_and, hget, Option.bind_some]
        split
        · rfl
        next hne => rw [if_neg hne] at hnone; exact hnone.symm
      next => simp [Hash.hget_hdel, hget]
    · dsimp only
      split <;> simp [Hash.hget_hdel_ne, Hash.hget_hset_ne, hkey]

theorem slot_foldl_enter (app : String) (sid : Text) (at' : Nat × Nat) (channels : List String)
    (ix : LocalSubs) (key : Key) (sid' : Text) :
    (channels.foldl (fun ix channel => ix.enter (app, channel) sid at') ix).slot key sid' =
      if key.1 = app ∧ key.2 ∈ channels ∧ sid' = sid then some at' else ix.slot key sid' := by
  induction channels generalizing ix with
  | nil => simp
  | cons channel channels ih =>
    rw [List.foldl_cons, ih, slot_enter]
    obtain ⟨app', channel'⟩ := key
    by_cases hsid : sid' = sid <;> by_cases happ : app' = app <;>
      by_cases hch : channel' = channel <;> by_cases hin : channel' ∈ channels <;>
      simp [hsid, happ, hch, hin]

theorem slot_foldl_leave (app : String) (sid : Text) (channels : List String) (ix : LocalSubs)
    (key : Key) (sid' : Text) :
    (channels.foldl (fun ix channel => ix.leave (app, channel) sid) ix).slot key sid' =
      if key.1 = app ∧ key.2 ∈ channels ∧ sid' = sid then none else ix.slot key sid' := by
  induction channels generalizing ix with
  | nil => simp
  | cons channel channels ih =>
    rw [List.foldl_cons, ih, slot_leave]
    obtain ⟨app', channel'⟩ := key
    by_cases hsid : sid' = sid <;> by_cases happ : app' = app <;>
      by_cases hch : channel' = channel <;> by_cases hin : channel' ∈ channels <;>
      simp [hsid, happ, hch, hin]

end LocalSubs

variable {A Value : Type}

/-- Where the worker finds the connection, for the channels on record. -/
def Entry.recorded (e : Entry Value) (key : Key) : Option (Nat × Nat) :=
  if key.1 = e.ctx.app.id ∧ key.2 ∈ e.subs then some (e.token, e.version) else none

/-- The index lists a connection exactly as its entry has it on record. -/
def LocalSubs.Lists (ix : LocalSubs) (e : Entry Value) : Prop :=
  ∀ key, ix.slot key e.ctx.socketId = e.recorded key

variable {n : Node A Value} {e : Entry Value} {ix : LocalSubs} {sid : Text} {ad : Adapter A Value}

theorem reconcileMembership_other (e : Entry Value) (ix : LocalSubs) (key : Key)
    (hne : sid ≠ e.ctx.socketId) : (reconcileMembership e ix).slot key sid = ix.slot key sid := by
  unfold reconcileMembership
  split
  · rfl
  · rw [LocalSubs.slot_foldl_leave, LocalSubs.slot_foldl_enter]
    simp [hne]

/-- Reconciling brings the index up to the session. -/
theorem LocalSubs.Lists.reconcile (h : ix.Lists e) :
    (reconcileMembership e ix).Lists { e with subs := e.ctx.subscribed } := by
  intro key
  show (reconcileMembership e ix).slot key e.ctx.socketId =
    if key.1 = e.ctx.app.id ∧ key.2 ∈ e.ctx.subscribed then some (e.token, e.version) else none
  have hbefore : ix.slot key e.ctx.socketId =
      if key.1 = e.ctx.app.id ∧ key.2 ∈ e.subs then some (e.token, e.version) else none := h key
  unfold reconcileMembership
  split
  next hsame => rw [hbefore, hsame]
  · rw [LocalSubs.slot_foldl_leave, LocalSubs.slot_foldl_enter, hbefore]
    by_cases happ : key.1 = e.ctx.app.id <;> by_cases hnow : key.2 ∈ e.ctx.subscribed <;>
      by_cases hrec : key.2 ∈ e.subs <;> simp [happ, hnow, hrec]

theorem deindexConnection_other (e : Entry Value) (ix : LocalSubs) (key : Key)
    (hne : sid ≠ e.ctx.socketId) : (deindexConnection e ix).slot key sid = ix.slot key sid := by
  unfold deindexConnection
  rw [LocalSubs.slot_foldl_leave]
  simp [hne]

theorem LocalSubs.Lists.deindex (h : ix.Lists e) (key : Key) :
    (deindexConnection e ix).slot key e.ctx.socketId = none := by
  have hbefore : ix.slot key e.ctx.socketId =
      if key.1 = e.ctx.app.id ∧ key.2 ∈ e.subs then some (e.token, e.version) else none := h key
  unfold deindexConnection
  rw [LocalSubs.slot_foldl_leave, hbefore]
  by_cases happ : key.1 = e.ctx.app.id <;> by_cases hrec : key.2 ∈ e.subs <;> simp [happ, hrec]

/-! ## All workers -/

/-- What the entries have on record for a worker. -/
def Node.recorded (n : Node A Value) (w : Nat) (key : Key) (sid : Text) : Option (Nat × Nat) :=
  (n.entries.hget sid).bind fun e => if e.worker = w then e.recorded key else none

/-- Every index lists what is on record, and the record of a connection that no
worker is busy with is what its session says. -/
structure Delivers (n : Node A Value) : Prop where
  filed : n.Filed
  listed : ∀ w key sid, (n.indexes w).slot key sid = n.recorded w key sid
  current : ∀ sid e, n.entries.hget sid = some e → sid ∉ n.busy → e.subs = e.ctx.subscribed

theorem Delivers.lists (h : Delivers n) (hlive : n.entries.hget sid = some e) :
    (n.indexes e.worker).Lists e := by
  intro key
  rw [(h.filed sid e hlive).1, h.listed]
  simp [Node.recorded, hlive]

theorem Delivers.set {n' : Node A Value} (h : Delivers n) (hfiled : n'.Filed) {e' : Entry Value}
    (hlive : n.entries.hget sid = some e) (hentries : n'.entries = n.entries.hset sid e')
    (hindexes : n'.indexes = n.indexes) (hworker : e'.worker = e.worker)
    (hrecord : e'.recorded = e.recorded)
    (hbusy : n'.busy = insert sid n.busy ∨ n'.busy = n.busy ∧ e'.subs = e.subs ∧
      e'.ctx.subscribed = e.ctx.subscribed) :
    Delivers n' := by
  refine ⟨hfiled, fun w key sid' => ?_, fun sid' e'' hget hidle => ?_⟩
  · rw [hindexes, h.listed]
    unfold Node.recorded
    rw [hentries, Hash.hget_hset]
    split
    next heq => simp [heq, hlive, hworker, hrecord]
    next => rfl
  · rw [hentries, Hash.hget_hset] at hget
    split at hget
    next heq =>
      cases hget
      rcases hbusy with hbusy | ⟨hbusy, hsubs, hsubscribed⟩
      · exact absurd (by rw [hbusy, heq]; exact Finset.mem_insert_self _ _) hidle
      · rw [hsubs, hsubscribed]
        rw [hbusy, heq] at hidle
        exact h.current sid e hlive hidle
    next hne =>
      refine h.current sid' e'' hget fun hin => hidle ?_
      rcases hbusy with hbusy | ⟨hbusy, -⟩
      · rw [hbusy]
        exact Finset.mem_insert_of_mem hin
      · rwa [hbusy]

theorem Delivers.send (h : Delivers n) (sid : Text) (event : ServerEvent Value) :
    Delivers (n.send sid event) := by
  have hfiled : (n.send sid event).Filed := h.filed.send sid event
  cases hlive : n.entries.hget sid with
  | none =>
    rw [Node.send, hlive]
    exact h
  | some =>
    simp only [Node.send, hlive] at hfiled ⊢
    exact h.set hfiled hlive rfl rfl rfl rfl (.inr ⟨rfl, rfl, rfl⟩)

/-- An index that changed for one connection only, together with that entry. -/
theorem Delivers.listed_update {n' : Node A Value} (h : Delivers n)
    (hlive : n.entries.hget sid = some e)
    (hindexes : n'.indexes = Function.update n.indexes e.worker ix)
    (hentries : ∀ sid', sid' ≠ sid → n'.entries.hget sid' = n.entries.hget sid')
    (hothers : ∀ key sid', sid' ≠ sid → ix.slot key sid' = (n.indexes e.worker).slot key sid')
    (hworker : ∀ e', n'.entries.hget sid = some e' → e'.worker = e.worker)
    (hown : ∀ key, ix.slot key sid = (n'.entries.hget sid).bind (·.recorded key)) (w : Nat)
    (key : Key) (sid' : Text) : (n'.indexes w).slot key sid' = n'.recorded w key sid' := by
  rw [hindexes]
  by_cases hsid : sid' = sid
  · subst hsid
    by_cases hw : w = e.worker
    · subst hw
      rw [Function.update_self, hown]
      unfold Node.recorded
      cases hget : n'.entries.hget sid' with
      | none => rfl
      | some e' => simp [hworker e' hget]
    · -- another worker never listed this connection
      rw [Function.update_of_ne hw, h.listed]
      unfold Node.recorded
      rw [hlive, Option.bind_some, if_neg (Ne.symm hw)]
      cases hget : n'.entries.hget sid' with
      | none => rfl
      | some e' => simp [hworker e' hget, Ne.symm hw]
  · have hbefore := h.listed w key sid'
    unfold Node.recorded at hbefore ⊢
    rw [hentries sid' hsid, ← hbefore]
    by_cases hw : w = e.worker
    · subst hw
      rw [Function.update_self, hothers key sid' hsid]
    · rw [Function.update_of_ne hw]

theorem Delivers.reconcile (h : Delivers n) (hfiled : (n.reconcile sid).Filed) :
    Delivers (n.reconcile sid) := by
  cases hlive : n.entries.hget sid with
  | none =>
    rw [Node.reconcile, hlive]
    exact h
  | some e =>
    have hsid : e.ctx.socketId = sid := (h.filed sid e hlive).1
    have hnew := Node.reconcile_entries hlive
    refine ⟨hfiled, ?_, fun sid' e' hget hidle => ?_⟩
    · refine h.listed_update hlive (by simp only [Node.reconcile, hlive]; rfl) ?_ ?_ ?_ ?_
      · exact fun sid' hne => by rw [hnew, Hash.hget_hset_ne _ _ hne]
      · exact fun key sid' hne => reconcileMembership_other e _ key (hsid ▸ hne)
      · intro e' hget
        rw [hnew, Hash.hget_hset_self] at hget
        cases hget
        rfl
      · intro key
        rw [hnew, Hash.hget_hset_self, Option.bind_some, ← hsid]
        exact (h.lists hlive).reconcile key
    · rw [hnew, Hash.hget_hset] at hget
      split at hget
      next heq =>
        cases hget
        rfl
      next hne =>
        refine h.current sid' e' hget fun hin => hidle ?_
        simp only [Node.reconcile, hlive]
        exact Finset.mem_erase.mpr ⟨hne, hin⟩

/-- A connection that goes is taken out of its worker's index. -/
theorem Delivers.remove (h : Delivers n) (hfiled : (n.remove ad sid).Filed) :
    Delivers (n.remove ad sid) := by
  cases hlive : n.entries.hget sid with
  | none =>
    rw [Node.remove, hlive]
    exact h
  | some e =>
    have hsid : e.ctx.socketId = sid := (h.filed sid e hlive).1
    have hnew : (n.remove ad sid).entries = n.entries.hdel sid := by
      simp [Node.remove, hlive]
    refine ⟨hfiled, ?_, fun sid' e' hget hidle => ?_⟩
    · refine h.listed_update hlive (by simp only [Node.remove, hlive]; rfl) ?_ ?_ ?_ ?_
      · exact fun sid' hne => by rw [hnew, Hash.hget_hdel_ne _ hne]
      · exact fun key sid' hne => deindexConnection_other e _ key (hsid ▸ hne)
      · intro e' hget
        rw [hnew, Hash.hget_hdel_self] at hget
        cases hget
      · intro key
        rw [hnew, Hash.hget_hdel_self, Option.bind_none, ← hsid]
        exact (h.lists hlive).deindex key
    · rw [hnew, Hash.hget_hdel] at hget
      split at hget
      · cases hget
      next hne =>
        refine h.current sid' e' hget fun hin => hidle ?_
        simp only [Node.remove, hlive]
        exact Finset.mem_erase.mpr ⟨hne, hin⟩

/-- A fresh connection is in no index yet. -/
theorem Delivers.opened (h : Delivers n) (opening : Opening) (hfresh : sid ∉ n.used)
    (hfiled : Node.Filed { n with
      entries := n.entries.hset sid (opening.entry sid)
      used := insert sid n.used }) :
    Delivers { n with
      entries := n.entries.hset sid (opening.entry sid), used := insert sid n.used } := by
  have hnone : n.entries.hget sid = none := by
    cases hget : n.entries.hget sid with
    | none => rfl
    | some e => exact absurd (h.filed sid e hget).2 hfresh
  refine ⟨hfiled, fun w key sid' => ?_, fun sid' e' hget hidle => ?_⟩
  · show (n.indexes w).slot key sid' = _
    rw [h.listed]
    unfold Node.recorded
    rw [Hash.hget_hset]
    split
    next heq =>
      -- a new connection has no channels on record
      rw [heq, hnone]
      simp [Entry.recorded, Opening.entry]
    next => rfl
  · dsimp only at hget hidle
    rw [Hash.hget_hset] at hget
    split at hget
    next heq =>
      cases hget
      rfl
    next => exact h.current sid' e' hget hidle

theorem TakesOff.recorded {channels : List String} {e' : Entry Value} (h : TakesOff channels e e') :
    e'.recorded = e.recorded := by
  funext key
  simp only [Entry.recorded, h.conn.app, h.subs, h.slot]

theorem Delivers.change {ok : Node A Value → Entry Value → Prop} (n n' : Node A Value)
    (h : Delivers n) (hchange : Change ad ok n n') : Delivers n' := by
  have hfiled : n'.Filed := h.filed.change n n' hchange
  cases hchange with
  | opened _ opening fresh => exact h.opened opening fresh hfiled
  | command _ _ _ _ live dispatched reached =>
    obtain ⟨entry, ⟨conn, fragment, rfl⟩, rfl⟩ := reached
    refine h.set hfiled live rfl rfl rfl ?_ (.inl rfl)
    funext key
    simp only [Entry.recorded, Turn.setScope, dispatched.same.app]
    rfl
  | drained _ _ _ live _ takes =>
    exact h.set hfiled live rfl rfl takes.worker takes.recorded (.inl rfl)
  | steady _ _ _ live _ takes _ same =>
    exact h.set hfiled live rfl rfl takes.worker takes.recorded (.inr ⟨rfl, takes.subs, same⟩)
  | reconciled => exact h.reconcile hfiled
  | removed => exact h.remove hfiled
  | sent sid event => exact h.send sid event

/-! ## No empty channels -/

namespace LocalSubs

/-- Every channel listed has a subscriber. -/
def Trim (ix : LocalSubs) : Prop := ∀ key, ix.hget key ≠ some ∅

theorem Trim.enter {ix : LocalSubs} (h : ix.Trim) (key : Key) (sid : Text) (at' : Nat × Nat) :
    (ix.enter key sid at').Trim := by
  intro key' hempty
  rw [LocalSubs.enter, Hash.hget_hset] at hempty
  split at hempty
  · have hslot := congrArg (fun subs : Hash Text (Nat × Nat) => subs.hget sid)
      (Option.some.inj hempty)
    simp at hslot
  · exact h key' hempty

theorem Trim.leave {ix : LocalSubs} (h : ix.Trim) (key : Key) (sid : Text) :
    (ix.leave key sid).Trim := by
  intro key' hempty
  rw [LocalSubs.leave] at hempty
  split at hempty
  · exact h key' hempty
  · dsimp only at hempty
    split at hempty
    · rw [Hash.hget_hdel] at hempty
      split at hempty
      · cases hempty
      · exact h key' hempty
    · rename_i hsome
      rw [Hash.hget_hset] at hempty
      split at hempty
      · exact hsome (Hash.hlen_eq_zero.mpr (Option.some.inj hempty))
      · exact h key' hempty

/-- A channel is listed exactly if it has a subscriber. -/
theorem Trim.hget_ne_none {ix : LocalSubs} (h : ix.Trim) (key : Key) :
    ix.hget key ≠ none ↔ ∃ sid, ix.slot key sid ≠ none := by
  unfold slot
  cases hget : ix.hget key with
  | none => simp
  | some subs =>
    refine ⟨fun _ => ?_, fun _ => Option.some_ne_none subs⟩
    by_contra hnone
    have hempty : subs = ∅ :=
      Hash.ext_hget fun sid => not_not.mp fun hsome => hnone ⟨sid, hsome⟩
    exact h key (by rw [hget, hempty])

end LocalSubs

theorem LocalSubs.Trim.reconcile (h : ix.Trim) (e : Entry Value) :
    (reconcileMembership e ix).Trim := by
  unfold reconcileMembership
  split
  · exact h
  · refine run_invariant (fun ix _ (h : ix.Trim) => h.leave _ _) ?_ _
    exact run_invariant (fun ix _ (h : LocalSubs.Trim ix) => h.enter _ _ _) h _

theorem LocalSubs.Trim.deindex (h : ix.Trim) (e : Entry Value) : (deindexConnection e ix).Trim :=
  run_invariant (fun ix _ (h : LocalSubs.Trim ix) => h.leave _ _) h _

/-- No index lists a channel without subscribers. -/
def Node.Trim (n : Node A Value) : Prop := ∀ w, (n.indexes w).Trim

theorem Node.Trim.update (h : n.Trim) (worker : Nat) (hix : ix.Trim) (w : Nat) :
    (Function.update n.indexes worker ix w).Trim := by
  by_cases hw : w = worker
  · rw [hw, Function.update_self]
    exact hix
  · rw [Function.update_of_ne hw]
    exact h w

theorem Node.Trim.send (h : n.Trim) (sid : Text) (event : ServerEvent Value) :
    (n.send sid event).Trim := by
  unfold Node.send
  split
  · exact h
  · exact h

theorem Node.Trim.change {ok : Node A Value → Entry Value → Prop} (n n' : Node A Value) (h : n.Trim)
    (hchange : Change ad ok n n') : n'.Trim := by
  cases hchange with
  | opened | command | drained | steady => exact h
  | reconciled =>
    unfold Node.reconcile
    split
    · exact h
    · rename_i e _
      exact h.update e.worker ((h e.worker).reconcile e)
  | removed =>
    unfold Node.remove
    split
    · exact h
    · rename_i e _
      exact h.update e.worker ((h e.worker).deindex e)
  | sent sid event => exact h.send sid event

/-! ## The loop top -/

/-- A step of a worker, or of what surrounds it: another thread may send any event,
the bridge's refusals included, and another node may change what the adapter sees. -/
inductive NodeAct (A Value : Type) where
  | own (a : Act Value)
  | send (sid : Text) (event : ServerEvent Value)
  | adapter (adapter : A)

namespace Node

variable (ad : Adapter A Value) (out : Outside Value) (maxMessageBytes : Nat)

def nodeStep (n : Node A Value) : NodeAct A Value → Node A Value
  | .own a => n.step ad out maxMessageBytes a
  | .send sid event => n.send sid event
  | .adapter adapter => { n with adapter }

/-- The worker is not in the middle of a batch or a drain. -/
def AtTop (n : Node A Value) (w : Nat) : Prop :=
  ∀ sid e, n.entries.hget sid = some e → e.worker = w → sid ∉ n.busy

/-- Where a worker is to deliver: to each live session of its own, for the channels
the session is subscribed to. -/
def subscribers (n : Node A Value) (w : Nat) (key : Key) (sid : Text) : Option (Nat × Nat) :=
  (n.entries.hget sid).bind fun e =>
    if e.worker = w ∧ key.1 = e.ctx.app.id ∧ key.2 ∈ e.ctx.subscribed then
      some (e.token, e.version)
    else none

variable {ad out maxMessageBytes}

theorem recorded_eq_subscribers {n : Node A Value} (h : Delivers n) {w : Nat} (htop : n.AtTop w)
    (key : Key) (sid : Text) : n.recorded w key sid = n.subscribers w key sid := by
  unfold recorded subscribers Entry.recorded
  cases hlive : n.entries.hget sid with
  | none => rfl
  | some e =>
    dsimp only [Option.bind_some]
    by_cases hw : e.worker = w
    · rw [h.current sid e hlive (htop sid e hlive hw), if_pos hw]
      simp only [hw, true_and]
    · rw [if_neg hw, if_neg fun hall => hw hall.1]

theorem nodeStep_index (n : Node A Value) (a : NodeAct A Value) (h : Delivers n ∧ n.Trim) :
    Delivers (n.nodeStep ad out maxMessageBytes a) ∧
      (n.nodeStep ad out maxMessageBytes a).Trim := by
  cases a with
  | own a =>
    have hchanges : Changes ad (fun _ _ => True) n (n.step ad out maxMessageBytes a) :=
      n.step_changes ad out maxMessageBytes a fun _ _ => trivial
    exact ⟨hchanges.invariant Delivers.change h.1, hchanges.invariant Node.Trim.change h.2⟩
  | send sid event => exact ⟨h.1.send sid event, h.2.send sid event⟩
  | adapter => exact ⟨⟨h.1.filed, h.1.listed, h.1.current⟩, h.2⟩

end Node

/-! ### One connection at a time -/

/-- The connection a step is about. -/
def NodeAct.target : NodeAct A Value → Option Text
  | .own (.establish sid _) | .own (.frame sid _ _) | .own (.drain sid _) | .own (.dirty sid _)
  | .own (.post sid _) | .own (.close sid) | .send sid _ => some sid
  | .adapter _ => none

namespace Node

variable (ad : Adapter A Value) (n : Node A Value)

theorem hget_settle (sid sid' : Text) (t : Turn A Value) :
    (n.settle sid t).entries.hget sid' = if sid' = sid then some t.entry else n.entries.hget sid' :=
  Hash.hget_hset _ _ _ _

theorem hget_remove (sid sid' : Text) :
    (n.remove ad sid).entries.hget sid' = if sid' = sid then none else n.entries.hget sid' := by
  unfold remove
  split
  next hgone =>
    split
    next heq => rw [heq, hgone]
    next => rfl
  next => exact Hash.hget_hdel _ _ _

theorem hget_reconcile (sid sid' : Text) :
    (n.reconcile sid).entries.hget sid' =
      if sid' = sid then (n.entries.hget sid).map fun e => { e with subs := e.ctx.subscribed }
      else n.entries.hget sid' := by
  unfold reconcile
  split
  next hgone =>
    split
    next heq => rw [heq, hgone]; rfl
    next => rfl
  next e hlive =>
    rw [hlive]
    exact Hash.hget_hset _ _ _ _

theorem hget_send (sid sid' : Text) (event : ServerEvent Value) :
    (n.send sid event).entries.hget sid' =
      if sid' = sid then (n.entries.hget sid).map fun e =>
        { e with ctx := { e.ctx with mailbox := e.ctx.mailbox.trySend event } }
      else n.entries.hget sid' := by
  unfold send
  split
  next hgone =>
    split
    next heq => rw [heq, hgone]; rfl
    next => rfl
  next e hlive =>
    rw [hlive]
    exact Hash.hget_hset _ _ _ _

/-- An action changes the entry of its own connection only. -/
theorem hget_nodeStep_ne (out : Outside Value) (maxMessageBytes : Nat) (n : Node A Value)
    {a : NodeAct A Value} {sid : Text} (h : a.target ≠ some sid) :
    (n.nodeStep ad out maxMessageBytes a).entries.hget sid = n.entries.hget sid := by
  have hne {sid' : Text} (hsid : some sid' ≠ some sid) : sid ≠ sid' :=
    fun heq => hsid (congrArg some heq.symm)
  cases a with
  | adapter => rfl
  | send sid' event => exact (hget_send n sid' sid event).trans (if_neg (hne h))
  | own a =>
    unfold nodeStep step
    cases a with
    | establish =>
      dsimp only
      split
      · rfl
      · exact Hash.hget_hset_ne _ _ (hne h)
    | frame =>
      dsimp only
      split
      · rfl
      · split
        · rw [hget_settle, if_neg (hne h)]
        · rw [hget_remove, if_neg (hne h), hget_settle, if_neg (hne h)]
    | drain =>
      dsimp only
      split
      · rfl
      · split
        · rw [hget_reconcile, if_neg (hne h), hget_settle, if_neg (hne h)]
        · rw [hget_remove, if_neg (hne h), hget_settle, if_neg (hne h)]
    | dirty sid' =>
      dsimp only
      split
      · rfl
      · split
        · rfl
        · split
          · split
            · rw [hget_reconcile, if_neg (hne h), hget_settle, if_neg (hne h)]
            · exact (hget_settle n sid' sid _).trans (if_neg (hne h))
          · rw [hget_remove, if_neg (hne h), hget_settle, if_neg (hne h)]
    | post =>
      dsimp only
      split
      · rfl
      · rw [hget_send, if_neg (hne h)]
    | close => rw [hget_remove, if_neg (hne h)]

theorem used_change {ad : Adapter A Value} {ok : Node A Value → Entry Value → Prop} (sid : Text)
    (n n' : Node A Value) (h : sid ∈ n.used) (hchange : Change ad ok n n') : sid ∈ n'.used := by
  cases hchange with
  | opened => exact Finset.mem_insert_of_mem h
  | command | drained | steady => exact h
  | reconciled =>
    unfold reconcile
    split <;> exact h
  | removed =>
    unfold remove
    split <;> exact h
  | sent =>
    unfold send
    split <;> exact h

theorem used_nodeStep (out : Outside Value) (maxMessageBytes : Nat) (n : Node A Value) {sid : Text}
    (h : sid ∈ n.used) (a : NodeAct A Value) :
    sid ∈ (n.nodeStep ad out maxMessageBytes a).used := by
  cases a with
  | own a =>
    have hchanges : Changes ad (fun _ _ => True) n (n.step ad out maxMessageBytes a) :=
      n.step_changes ad out maxMessageBytes a fun _ _ => trivial
    exact hchanges.invariant (used_change sid) h
  | send sid' event =>
    show sid ∈ (n.send sid' event).used
    unfold send
    split <;> exact h
  | adapter => exact h

/-- A socket id is not used again. -/
theorem gone_nodeStep (out : Outside Value) (maxMessageBytes : Nat) {n : Node A Value} {sid : Text}
    (hused : sid ∈ n.used) (hgone : n.entries.hget sid = none) (a : NodeAct A Value) :
    (n.nodeStep ad out maxMessageBytes a).entries.hget sid = none := by
  by_cases htarget : a.target = some sid
  · cases a with
    | adapter => exact hgone
    | send _ event =>
      cases htarget
      show (n.send sid event).entries.hget sid = none
      rw [hget_send, if_pos rfl, hgone]
      rfl
    | own a =>
      cases a with
      | establish =>
        cases htarget
        simp only [nodeStep, step, if_pos hused, hgone]
      | frame | drain | dirty =>
        cases htarget
        simp only [nodeStep, step, hgone]
      | post =>
        cases htarget
        unfold nodeStep step
        dsimp only
        split
        · exact hgone
        · rw [hget_send, if_pos rfl, hgone]
          rfl
      | close =>
        cases htarget
        exact (hget_remove ad n sid sid).trans (if_pos rfl)
  · rw [hget_nodeStep_ne ad out maxMessageBytes n htarget]
    exact hgone

end Node

/-! ### Every run -/

/-- In every state of every run in which a worker is at its loop top, its delivery index
has exactly the sessions' channels, and for each channel exactly the subscribed sessions
under their tokens and versions. No channel is listed without subscribers, and of a
connection that is gone nothing is left, at the loop top or not. -/
theorem delivery_index_exact (ad : Adapter A Value) (out : Outside Value) (maxMessageBytes : Nat)
    (adapter : A) (as : List (NodeAct A Value)) :
    let n := run (Node.nodeStep ad out maxMessageBytes) { adapter } as
    ∀ w,
      (n.AtTop w →
        (∀ key sid, (n.indexes w).slot key sid = n.subscribers w key sid) ∧
        (∀ key, (n.indexes w).hget key ≠ none ↔
          ∃ sid e, n.entries.hget sid = some e ∧ e.worker = w ∧ key.1 = e.ctx.app.id ∧
            key.2 ∈ e.ctx.subscribed)) ∧
      (∀ key subs, (n.indexes w).hget key = some subs → subs ≠ ∅) ∧
      (∀ sid, n.entries.hget sid = none → ∀ key, (n.indexes w).slot key sid = none) := by
  intro n w
  obtain ⟨hdelivers, htrim⟩ : Delivers n ∧ n.Trim := by
    refine run_invariant Node.nodeStep_index ⟨⟨?_, ?_, ?_⟩, ?_⟩ as
    · intro sid e hlive
      cases hlive
    · intro w key sid
      rfl
    · intro sid e hlive
      cases hlive
    · intro w key hempty
      cases hempty
  refine ⟨fun htop => ?_, ?_, ?_⟩
  · have hslot (key : Key) (sid : Text) :
        (n.indexes w).slot key sid = n.subscribers w key sid :=
      (hdelivers.listed w key sid).trans (Node.recorded_eq_subscribers hdelivers htop key sid)
    refine ⟨hslot, fun key => ((htrim w).hget_ne_none key).trans ?_⟩
    simp only [hslot, Node.subscribers, ne_eq, Option.bind_eq_none_iff, ite_eq_right_iff,
      reduceCtorEq, imp_false, not_forall, not_not, exists_prop]
  · rintro key subs hget rfl
    exact htrim w key hget
  · intro sid hgone key
    rw [hdelivers.listed, Node.recorded, hgone]
    rfl

/-- One connection of worker 0 subscribes with a good signature. -/
def signedRun : List (NodeAct (LocalAdapter Unit) Unit) :=
  (.establish ['1'] retryOpening :: Node.batch ['1'] [(⟨true, .text, [0]⟩, {})] {}).map .own

theorem delivery_index_exact_signed :
    let n := run (Node.nodeStep localAdapter retryOutside 100) { adapter := .empty } signedRun
    n.AtTop 0 ∧ (n.indexes 0).slot ("a", "private-room") ['1'] = some (0, 7) := by
  intro n
  have hidle : n.busy = ∅ := by decide
  have htop : n.AtTop 0 := fun sid e _ _ => by
    rw [hidle]
    exact Finset.notMem_empty sid
  obtain ⟨hslot, -⟩ :=
    (delivery_index_exact localAdapter retryOutside 100 .empty signedRun 0).1 htop
  refine ⟨htop, (hslot ("a", "private-room") ['1']).trans ?_⟩
  decide

end Pylon.Transport
