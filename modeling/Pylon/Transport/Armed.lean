import Pylon.Transport.Loop
import Pylon.Transport.Visits

/-!
# Owed bytes and writable interest

A connection owes bytes while frames are queued or its TLS session holds ciphertext.
Only `flush_and_arm` reconciles the poll interest with that, so every path on which a
connection may come to owe something has to reach it.

What a handler queues it flushes. The exception is a read on an open TLS connection: the
session may keep ciphertext of its own, and without a frame to answer or an event to
deliver nothing flushes it (`Reconciles`). Broadcasts queue first and flush later, so
connections queued onto are set apart until they have been flushed.
-/

namespace Pylon.Transport

open Pylon.Lib Pylon.Redis

/-! ## Flushing -/

theorem flushCoalesced_drained (maxBytes now : Nat) (script : List WriteOutcome) (c : Connection)
    (h : (flushCoalesced maxBytes now script c).status = .drained) :
    (flushCoalesced maxBytes now script c).conn.out = [] := by
  revert h
  refine flushCoalesced_rule (motive := fun _ r => r.status = .drained → r.conn.out = [])
    ?_ ?_ ?_ ?_ script c
  · intro c hempty _
    exact hempty
  · intro c status _ hstopped h
    exact absurd h hstopped
  · intro c r _ ih h
    exact ih h
  · intro c n r _ g offered _ _ ih h
    exact ih h

namespace IoConnection

/-- A plain connection holds no ciphertext. -/
def Honest (c : IoConnection) : Prop := c.secure = false → c.tls.wantsWrite = false

/-- What is owed is armed. -/
def Armed (c : IoConnection) : Prop := c.hasPendingWrites = true → c.conn.writableArmed = true

variable {c : IoConnection}

theorem pending_eq_false :
    c.hasPendingWrites = false ↔ c.conn.out = [] ∧ c.tls.wantsWrite = false := by
  simp [hasPendingWrites]

theorem drainCiphertext_ne_drained (c : IoConnection) (outcome : CipherWrite) :
    (c.drainCiphertext outcome).2 ≠ some .drained := by
  unfold drainCiphertext
  split <;> simp

theorem drainCiphertext_sent {c' : IoConnection} {outcome : CipherWrite}
    (h : c.drainCiphertext outcome = (c', none)) : c' = { c with tls := {} } := by
  unfold drainCiphertext at h
  split at h <;> cases h
  rfl

theorem flush_secure (c : IoConnection) (s : Socket) (now : Nat) :
    (c.flush s now).2.secure = c.secure := by
  have hdrain (c : IoConnection) (outcome : CipherWrite) :
      (c.drainCiphertext outcome).1.secure = c.secure := by
    unfold drainCiphertext
    split <;> rfl
  unfold flush
  split
  · show (c.flushTlsPhases s now).2.secure = c.secure
    unfold flushTlsPhases
    have hfirst := hdrain c s.first
    generalize c.drainCiphertext s.first = r at hfirst ⊢
    obtain ⟨c₁, status⟩ := r
    cases status with
    | some => exact hfirst
    | none =>
      dsimp only
      split
      · exact hfirst
      · have hlast := hdrain { c₁ with
          conn := (flushCoalescedTls now s.calls c₁.conn c₁.tls).conn
          tls := (flushCoalescedTls now s.calls c₁.conn c₁.tls).tls } s.last
        generalize IoConnection.drainCiphertext _ s.last = r at hlast ⊢
        obtain ⟨c₂, status⟩ := r
        cases status with
        | some | none => exact hlast.trans hfirst
  · rfl

theorem Honest.flush (h : c.Honest) (s : Socket) (now : Nat) : (c.flush s now).2.Honest := by
  intro hplain
  rw [flush_secure] at hplain
  unfold IoConnection.flush
  rw [if_neg (by rw [hplain]; exact Bool.false_ne_true)]
  exact h hplain

/-- A flush that drains leaves nothing owed. -/
theorem flush_drained (h : c.Honest) (s : Socket) (now : Nat)
    (hdrained : (c.flush s now).1 = .drained) : (c.flush s now).2.hasPendingWrites = false := by
  rw [pending_eq_false]
  unfold flush at hdrained ⊢
  split at hdrained
  · rename_i hsecure
    rw [if_pos hsecure]
    change (c.flushTlsPhases s now).1 = .drained at hdrained
    show (c.flushTlsPhases s now).2.conn.out = [] ∧
      (c.flushTlsPhases s now).2.tls.wantsWrite = false
    unfold flushTlsPhases at hdrained ⊢
    have hfirst := c.drainCiphertext_ne_drained s.first
    generalize c.drainCiphertext s.first = r at hdrained hfirst ⊢
    obtain ⟨c₁, status⟩ := r
    cases status with
    | some => exact absurd (congrArg some hdrained) hfirst
    | none =>
      dsimp only at hdrained ⊢
      obtain ⟨script, hstatus, hconn⟩ := flushCoalescedTls_script now s.calls c₁.conn c₁.tls
      split at hdrained
      · rename_i hne
        exact absurd hdrained hne
      · rename_i hqueue
        rw [if_neg hqueue]
        have hout : (flushCoalescedTls now s.calls c₁.conn c₁.tls).conn.out = [] := by
          rw [hconn]
          exact flushCoalesced_drained _ _ _ _ (hstatus.symm.trans (not_not.mp hqueue))
        generalize hd : ({ c₁ with
          conn := (flushCoalescedTls now s.calls c₁.conn c₁.tls).conn
          tls := (flushCoalescedTls now s.calls c₁.conn c₁.tls).tls } : IoConnection) = d
            at hdrained ⊢
        have hlast := d.drainCiphertext_ne_drained s.last
        generalize hr : d.drainCiphertext s.last = r at hdrained hlast ⊢
        obtain ⟨c₂, status⟩ := r
        cases status with
        | some => exact absurd (congrArg some hdrained) hlast
        | none =>
          rw [drainCiphertext_sent hr, ← hd]
          exact ⟨hout, rfl⟩
  · rename_i hplain
    rw [if_neg hplain]
    exact ⟨flushCoalesced_drained _ _ _ _ hdrained, h (Bool.eq_false_iff.mpr hplain)⟩

theorem Honest.setWantsWrite (h : c.Honest) (wantsWrite : Bool) :
    (c.setWantsWrite wantsWrite).Honest := by
  unfold IoConnection.setWantsWrite
  split
  · rename_i hsecure
    intro hplain
    exact absurd hsecure (Bool.eq_false_iff.mp hplain)
  · exact h

/-- A read that leaves no ciphertext, or finds the connection armed, leaves it armed. -/
theorem armed_setWantsWrite (h : c.Armed) {wantsWrite : Bool}
    (hread : c.secure = true → wantsWrite = true → c.conn.writableArmed = true) :
    (c.setWantsWrite wantsWrite).Armed := by
  unfold IoConnection.setWantsWrite
  split
  · rename_i hsecure
    intro howed
    show c.conn.writableArmed = true
    rcases Bool.or_eq_true_iff.mp howed with hout | hwants
    · exact h (Bool.or_eq_true_iff.mpr (.inl hout))
    · exact hread hsecure hwants
  · exact h

end IoConnection

/-! ## Handlers -/

/-- What a handler leaves is armed, unless it is not kept. -/
structure Handled.Reconciled (r : Handled) : Prop where
  honest : r.entry.conn.Honest
  armed : r.action = .keep → r.entry.conn.Armed

/-- The same, provided that `p`: without it only what is owed on a plain connection
is known. -/
structure Handled.ReconciledIf (r : Handled) (p : Prop) : Prop where
  honest : r.entry.conn.Honest
  armed : p → r.action = .keep → r.entry.conn.Armed

variable {r : Handled}

theorem Handled.Reconciled.always (h : r.Reconciled) (p : Prop) : r.ReconciledIf p :=
  ⟨h.honest, fun _ => h.armed⟩

theorem Handled.ReconciledIf.of {p : Prop} (h : r.ReconciledIf p) (hp : p) : r.Reconciled :=
  ⟨h.honest, h.armed hp⟩

theorem Handled.ReconciledIf.mono {p q : Prop} (h : r.ReconciledIf p) (hq : q → p) :
    r.ReconciledIf q :=
  ⟨h.honest, fun hp => h.armed (hq hp)⟩

namespace WorkerEntry

theorem reconciled_keep {e : WorkerEntry} (h : e.conn.Honest) (harmed : e.conn.Armed) :
    (Handled.keep e).Reconciled :=
  ⟨h, fun _ => harmed⟩

theorem reconciled_close {e : WorkerEntry} (h : e.conn.Honest) : (Handled.close e).Reconciled :=
  ⟨h, fun hkeep => by cases hkeep⟩

/-- An entry kept without a flush is armed if it was. -/
theorem reconciledIf_keep {e e' : WorkerEntry} (h : e'.conn.Honest)
    (hsame : e.conn.Armed → e'.conn.Armed) : (Handled.keep e').ReconciledIf e.conn.Armed :=
  ⟨h, fun harmed _ => hsame harmed⟩

variable {e : WorkerEntry} (h : e.conn.Honest)

include h

theorem reconciled_rearm {writable : Bool}
    (harmed : writable = true ∨ e.conn.hasPendingWrites = false) (reregisters : Bool) :
    (e.rearm reregisters writable).Reconciled := by
  rw [rearm]
  split
  · refine reconciled_keep h fun howed => ?_
    rcases harmed with harmed | hnone
    · exact harmed
    · exact absurd (show e.conn.hasPendingWrites = true from howed) (Bool.eq_false_iff.mp hnone)
  · exact reconciled_close h

variable (cfg : WorkerConfig) (site : FlushSite) (now : Nat)

theorem reconciled_flushAndArm : (e.flushAndArm site now).Reconciled := by
  have hflush : (e.conn.flush site.socket now).2.Honest := h.flush site.socket now
  have hdrained := e.conn.flush_drained h site.socket now
  rw [flushAndArm]
  generalize e.conn.flush site.socket now = r at hflush hdrained
  obtain ⟨status, conn⟩ := r
  cases status with
  | drained => exact reconciled_rearm hflush (.inr (hdrained rfl)) _
  | wouldBlock => exact reconciled_rearm hflush (.inl rfl) _
  | closed => exact reconciled_close hflush

theorem reconciled_flushAndClose : (e.flushAndClose site now).Reconciled :=
  reconciled_close (reconciled_flushAndArm h site now).honest

theorem reconciled_send (frame : Bytes) (site : FlushSite) (now : Nat) :
    ((e.queue frame now).flushAndArm site now).Reconciled :=
  reconciled_flushAndArm (e := e.queue frame now) h site now

theorem reconciled_fail (code : Nat) (reason : String) (site : FlushSite) (now : Nat) :
    (e.fail code reason site now).Reconciled :=
  reconciled_flushAndClose (e := (e.setFragment none).queueCloseFrame code reason now) h site now

theorem reconciledIf_dispatchTextMessage (payload : Bytes) (site : FlushSite) (now : Nat) :
    (e.dispatchTextMessage cfg payload site now).ReconciledIf e.conn.Armed := by
  rw [dispatchTextMessage]
  split
  · exact (reconciled_fail h 1007 _ site now).always _
  · split
    · exact reconciledIf_keep h id
    · exact (reconciled_close h).always _

/-- The frames whose handler flushes: a Ping is answered, a Close ends the connection. -/
def Prompts (f : Frame) : Prop := f.opcode = .ping ∨ f.opcode = .close

instance (f : Frame) : Decidable (Prompts f) := inferInstanceAs (Decidable (_ ∨ _))

theorem reconciledIf_dispatchFrame (f : Frame) (site : FlushSite) (now : Nat) :
    (e.dispatchFrame cfg f site now).ReconciledIf (e.conn.Armed ∨ Prompts f) := by
  have hsend (frame : Bytes) := reconciled_send h frame site now
  by_cases hprompts : Prompts f
  · rcases hprompts with hping | hclose
    · rw [dispatchFrame, hping]
      exact (hsend _).always _
    · rw [dispatchFrame, hclose]
      exact (reconciled_close (hsend _).honest).always _
  · suffices hmain : (e.dispatchFrame cfg f site now).ReconciledIf e.conn.Armed from
      hmain.mono fun harmed => harmed.resolve_right hprompts
    exact dispatchFrame_cases cfg (motive := fun _ r => r.ReconciledIf e.conn.Armed)
      (reconciledIf_keep h id) (fun _ => reconciledIf_keep h id)
      (fun reason => (reconciled_fail h 1002 reason site now).always _)
      (reconciledIf_dispatchTextMessage h cfg · site now)
      (reconciledIf_dispatchTextMessage (e := e.setFragment none) h cfg · site now)
      (fun _ => (hsend _).always _) ((reconciled_close (hsend _).honest).always _)

theorem reconciledIf_dispatchLoop (frames : List Frame) (sites : List FlushSite) :
    (dispatchLoop cfg now frames sites e).ReconciledIf
      (e.conn.Armed ∨ ∃ f ∈ frames, Prompts f) := by
  induction frames generalizing e sites with
  | nil =>
    refine (reconciledIf_keep h id).mono fun harmed => harmed.resolve_right ?_
    rintro ⟨f, hf, -⟩
    exact List.not_mem_nil hf
  | cons f _ ih =>
    have hframe := reconciledIf_dispatchFrame h cfg f (sites.headD {}) now
    rw [dispatchLoop]
    split
    · rename_i hkeep
      refine (ih hframe.honest sites.tail).mono ?_
      rintro (harmed | ⟨g, hg, hprompts⟩)
      · exact .inl (hframe.armed (.inl harmed) hkeep)
      · rcases List.mem_cons.mp hg with rfl | hlater
        · exact .inl (hframe.armed (.inr hprompts) hkeep)
        · exact .inr ⟨g, hlater, hprompts⟩
    · rename_i hleaves
      exact ⟨hframe.honest, fun _ hkeep => absurd hkeep hleaves⟩

theorem queueMail_honest (mail : List Mail) : (queueMail now mail e).1.conn.Honest := by
  induction mail generalizing e with
  | nil => exact h
  | cons m _ ih =>
    cases m with
    | close => exact h
    | event text => exact ih (e := e.queueText text now) h

theorem reconciledIf_drainSession (mail : List Mail) (site : FlushSite) (now : Nat) :
    (e.drainSession mail site now).ReconciledIf
      (e.conn.Armed ∨ e.session = true ∧ mail ≠ []) := by
  rw [drainSession]
  split
  · rename_i hidle
    refine (reconciledIf_keep h id).mono fun harmed => harmed.resolve_right ?_
    rintro ⟨hsession, hmail⟩
    exact hidle.elim (absurd hsession) hmail
  · have hflush := reconciled_flushAndArm (queueMail_honest h now mail) site now
    dsimp only
    split
    · exact (reconciled_close hflush.honest).always _
    · rename_i hkept
      have hkeep := (flushAndArm_action _ site now).resolve_right fun hclose => hkept (.inl hclose)
      exact (reconciled_keep hflush.honest (hflush.armed hkeep)).always _

theorem reconciledIf_echoFrames (frames : List Frame) (wrote : Bool) :
    (echoFrames site now frames wrote e).ReconciledIf
      (e.conn.Armed ∨ wrote = true ∨ ∃ f ∈ frames, f.opcode ≠ .pong) := by
  induction frames generalizing e wrote with
  | nil =>
    rw [echoFrames]
    split
    · exact (reconciled_flushAndArm h site now).always _
    · rename_i hsilent
      refine (reconciledIf_keep h id).mono fun harmed => harmed.resolve_right ?_
      rintro (hwrote | ⟨f, hf, -⟩)
      · exact hsilent hwrote
      · exact List.not_mem_nil hf
  | cons f rest ih =>
    have hqueued (frame : Bytes) :
        (echoFrames site now rest true (e.queue frame now)).ReconciledIf
          (e.conn.Armed ∨ wrote = true ∨ ∃ g ∈ f :: rest, g.opcode ≠ .pong) :=
      (ih (e := e.queue frame now) h true).mono fun _ => .inr (.inl rfl)
    rw [echoFrames]
    cases hop : f.opcode with
    | text | binary | continuation | ping => exact hqueued _
    | pong =>
      refine (ih h wrote).mono (Or.imp_right (Or.imp_right ?_))
      rintro ⟨g, hg, hanswered⟩
      rcases List.mem_cons.mp hg with rfl | hlater
      · exact absurd hop hanswered
      · exact ⟨g, hlater, hanswered⟩
    | close => exact (reconciled_close h).always _

/-! ## Reads -/

theorem reconciled_armHandshakeInterest : (e.armHandshakeInterest site now).Reconciled := by
  rw [armHandshakeInterest]
  split
  · exact reconciled_flushAndArm h site now
  · rename_i hnone
    split
    · exact reconciled_rearm h (.inr (Bool.eq_false_iff.mpr hnone)) _
    · exact reconciled_keep h fun howed => absurd howed hnone

theorem reconciled_establish (upgrade : Upgrade) (gen : BitVec 64) (site : FlushSite) (now : Nat) :
    (e.establish upgrade gen site now).Reconciled := by
  cases upgrade with
  | establish text =>
    exact reconciled_flushAndArm (e := { e.queueText text now with session := true }) h site now
  | reject reject => exact reconciled_flushAndClose (e := e.queueReject reject now) h site now
  | park =>
    have hflush :=
      reconciled_flushAndArm (e := { e with pendingEstablish := some gen }) h site now
    exact ⟨hflush.honest, hflush.armed⟩

/-- Before the upgrade is answered every read ends with a flush, if there is anything
to flush. -/
theorem reconciled_handleHandshake (gen : BitVec 64) (input : Input) (now : Nat) :
    (e.handleHandshake cfg gen input now).Reconciled := by
  have hread : (e.drainHeadBytes input).2.conn.Honest := h.setWantsWrite _
  generalize hhead : (e.drainHeadBytes input).2 = e' at hread
  refine handleHandshake_cases cfg (motive := fun _ r => r.Reconciled) hhead
    (reconciled_close hread) (reconciled_armHandshakeInterest hread input.site now)
    (fun _ => ⟨hread, fun hkeep => by cases hkeep⟩)
    (reconciled_flushAndClose (e := e'.queue _ now) hread input.site now) fun key => ?_
  have hopened : IoConnection.Honest ({ e'.queue (cfg.acceptResponse key) now with
    inbuf := [], state := .opened } : WorkerEntry).conn := hread
  dsimp only
  split
  · exact reconciled_flushAndArm hopened input.site now
  · exact reconciled_establish hopened input.upgrade gen input.site now

/-- What was read, or an event in the mailbox, makes the handler of an open connection
flush or let go of it. -/
def Settles (cfg : WorkerConfig) (e : WorkerEntry) (input : Input) : Prop :=
  match (e.readInto cfg input).1 with
  | .error _ => True
  | .ok frames =>
    (frames ≠ [] ∧ input.flooded = true) ∨
      if cfg.echo then ∃ f ∈ frames, f.opcode ≠ .pong
      else (∃ f ∈ frames, Prompts f) ∨ e.session = true ∧ input.mail ≠ []

instance (cfg : WorkerConfig) (e : WorkerEntry) (input : Input) :
    Decidable (e.Settles cfg input) := by
  unfold Settles
  split <;> infer_instance

/-- What an open TLS connection has to meet when the `write_tls` calls after its reads
leave ciphertext behind: it was armed before, or what was read settles it. -/
def Reconciles (cfg : WorkerConfig) (e : WorkerEntry) (input : Input) : Prop :=
  e.state = .opened → e.conn.secure = true → (input.received e.conn).wantsWrite = true →
    e.conn.conn.writableArmed = true ∨ e.Settles cfg input

instance (cfg : WorkerConfig) (e : WorkerEntry) (input : Input) :
    Decidable (e.Reconciles cfg input) := by
  unfold Reconciles
  infer_instance

theorem reconciledIf_dispatchFrames (frames : List Frame) (input : Input) (now : Nat) :
    (e.dispatchFrames cfg frames input now).ReconciledIf
      (e.conn.Armed ∨ (∃ f ∈ frames, Prompts f) ∨ e.session = true ∧ input.mail ≠ []) := by
  have hloop := reconciledIf_dispatchLoop h cfg now frames input.sites
  have hsession := (converses_dispatchLoop cfg now frames input.sites e).sends.session
  rw [dispatchFrames]
  split
  · rename_i hkeep
    refine (reconciledIf_drainSession hloop.honest input.mail input.site now).mono ?_
    rw [hsession]
    rintro (harmed | hprompts | hmail)
    · exact .inl (hloop.armed (.inl harmed) hkeep)
    · exact .inl (hloop.armed (.inr hprompts) hkeep)
    · exact .inr hmail
  · rename_i hleaves
    exact ⟨hloop.honest, fun _ hkeep => absurd hkeep hleaves⟩

theorem reconciledIf_handleFrames (input : Input) (now : Nat) :
    (e.handleFrames cfg input now).ReconciledIf
      ((e.readInto cfg input).2.conn.Armed ∨ e.Settles cfg input) := by
  have hread : (e.readInto cfg input).2.conn.Honest := h.setWantsWrite _
  have hsession : (e.readInto cfg input).2.session = e.session := rfl
  rw [handleFrames, Settles]
  generalize e.readInto cfg input = r at hread hsession ⊢
  obtain ⟨result, e'⟩ := r
  dsimp only at hread hsession ⊢
  cases result with
  | error => exact (reconciled_close hread).always _
  | ok frames =>
    dsimp only
    split
    · exact (reconciled_fail hread 4100 _ input.site now).always _
    · rename_i hserved
      split
      · refine (reconciledIf_echoFrames hread input.site now frames false).mono ?_
        rintro (harmed | hflooded | hanswered)
        · exact .inl harmed
        · exact absurd hflooded hserved
        · exact .inr (.inr hanswered)
      · refine (reconciledIf_dispatchFrames hread cfg frames input now).mono ?_
        rw [hsession]
        rintro (harmed | hflooded | hsettles)
        · exact .inl harmed
        · exact absurd hflooded hserved
        · exact .inr hsettles

theorem reconciled_handleReadable (gen : BitVec 64) (input : Input) (now : Nat)
    (harmed : e.conn.Armed) (hread : e.Reconciles cfg input) :
    (e.handleReadable cfg gen input now).Reconciled := by
  rw [Reconciles] at hread
  rw [handleReadable]
  cases hstate : e.state with
  | handshaking => exact reconciled_handleHandshake h cfg gen input now
  | opened =>
    refine (reconciledIf_handleFrames h cfg input now).of ?_
    by_cases hsettles : e.Settles cfg input
    · exact .inr hsettles
    · refine .inl (IoConnection.armed_setWantsWrite harmed fun hsecure hwants => ?_)
      exact (hread hstate hsecure hwants).resolve_right hsettles

theorem reconciled_handleWritable (gen : BitVec 64) (input : Input) (now : Nat) :
    (e.handleWritable cfg gen input now).Reconciled := by
  rw [handleWritable]
  cases e.state with
  | handshaking => exact reconciled_handleHandshake h cfg gen input now
  | opened => exact reconciled_flushAndArm h input.site now

theorem Work.reconciled {gen : BitVec 64} {r : Handled} (hwork : e.Work cfg gen r)
    (harmed : e.conn.Armed) : r.Reconciled := by
  cases hwork with
  | writable input now => exact reconciled_handleWritable h cfg gen input now
  | mail mail site now => exact (reconciledIf_drainSession h mail site now).of (.inl harmed)
  | resumed upgrade gen' site now =>
    exact reconciled_establish (e := { e with pendingEstablish := none }) h upgrade gen' site now
  | ping text site now => exact reconciled_send h _ site now
  | goodbye text code reason site now =>
    exact reconciled_send (e := e.queueText text now) h _ site now
  | closeDue text code reason site now =>
    refine ⟨?_, fun hkeep => by cases hkeep⟩
    cases text with
    | none => exact (reconciled_send h _ site now).honest
    | some text => exact (reconciled_send (e := e.queueText text now) h _ site now).honest

end WorkerEntry

/-! ## Every run -/

/-- A pass over a `HashSet` meets each token of it. -/
def Pass.Walks (pass : Pass) : Prop := ∀ tokens, (pass.walk tokens).Perm tokens

namespace Worker

/-- Every connection is armed if it owes something, except perhaps those in `owing`. -/
def ArmedBut (w : Worker) (owing : Set Nat) : Prop :=
  ∀ k e, w.conns.hget k = some e → e.conn.Honest ∧ (k ∉ owing → e.conn.Armed)

variable {w w' : Worker} {key : Nat} {e : WorkerEntry} {r : Handled} {owing : Set Nat}

theorem ArmedBut.at (h : w.ArmedBut ∅) (hkey : w.conns.hget key = some e) :
    e.conn.Honest ∧ e.conn.Armed :=
  ⟨(h key e hkey).1, (h key e hkey).2 (Set.notMem_empty key)⟩

theorem ArmedBut.mono {owing' : Set Nat} (h : w.ArmedBut owing) (hsub : owing ⊆ owing') :
    w.ArmedBut owing' :=
  fun k e hk => ⟨(h k e hk).1, fun hout => (h k e hk).2 fun hin => hout (hsub hin)⟩

theorem ArmedBut.sets {owing' : Set Nat} {entry : Option WorkerEntry} (h : w.ArmedBut owing)
    (hsets : w.Sets w' key entry)
    (hentry : ∀ e ∈ entry, e.conn.Honest ∧ (key ∉ owing' → e.conn.Armed))
    (hothers : ∀ k ∈ owing, k = key ∨ k ∈ owing') : w'.ArmedBut owing' := by
  intro k e hk
  by_cases hkey : k = key
  · subst hkey
    rw [hsets.entry] at hk
    exact hentry e hk
  · rw [hsets.others k hkey] at hk
    refine ⟨(h k e hk).1, fun hout => (h k e hk).2 fun hin => ?_⟩
    exact (hothers k hin).elim hkey hout

theorem left_armed (h : r.Reconciled) : ∀ e ∈ r.left, e.conn.Honest ∧ e.conn.Armed := by
  intro e he
  rw [Handled.left] at he
  split at he
  · rename_i hkeep
    cases he
    exact ⟨h.honest, h.armed hkeep⟩
  · cases he
  · cases he

theorem ArmedBut.reconciled (h : w.ArmedBut ∅) (hsets : w.Sets w' key r.left)
    (hr : r.Reconciled) : w'.ArmedBut ∅ :=
  h.sets hsets (fun e he => (left_armed hr e he).imp_right fun harmed _ => harmed)
    fun _ hin => absurd hin (Set.notMem_empty _)

theorem ArmedBut.remove (h : w.ArmedBut owing) (key : Nat) :
    (w.remove key).ArmedBut (owing \ {key}) := by
  refine h.sets (w.sets_release key) (fun _ he => by cases he) fun k hin => ?_
  by_cases hkey : k = key
  · exact .inl hkey
  · exact .inr ⟨hin, hkey⟩

theorem ArmedBut.removeAll (h : w.ArmedBut owing) (keys : List Nat) :
    (keys.foldl Worker.remove w).ArmedBut (owing \ {k | k ∈ keys}) := by
  induction keys generalizing w owing with
  | nil => exact h.mono fun k hin => ⟨hin, List.not_mem_nil⟩
  | cons key _ ih =>
    refine (ih (h.remove key)).mono ?_
    rintro k ⟨⟨hin, hne⟩, hrest⟩
    exact ⟨hin, fun hk => (List.mem_cons.mp hk).elim hne hrest⟩

theorem ArmedBut.readable (h : w.ArmedBut ∅) (cfg : WorkerConfig) (key : Nat) (input : Input)
    (now : Nat)
    (hread : ∀ e ∈ w.conns.hget key, e.Reconciles cfg input) :
    (w.readable cfg key input now).ArmedBut ∅ := by
  cases hkey : w.conns.hget key with
  | none =>
    rw [Worker.readable, hkey]
    exact h
  | some e =>
    obtain ⟨hhonest, harmed⟩ := h.at hkey
    exact h.reconciled (sets_readable cfg hkey input now)
      (WorkerEntry.reconciled_handleReadable hhonest cfg w.nextGen input now harmed (hread e hkey))

/-! ### Broadcasts -/

variable {s : Worker × List Nat}

theorem ArmedBut.drainBroadcastInbox (h : w.ArmedBut ∅) (budget now : Nat)
    (msgs : List BroadcastMsg) :
    (w.drainBroadcastInbox budget now msgs).1.ArmedBut
      {k | k ∈ (w.drainBroadcastInbox budget now msgs).2} := by
  refine @drainBroadcastInbox_rule w (fun s => s.1.ArmedBut {k | k ∈ s.2}) budget now ?_
    (h.mono (Set.empty_subset _)) msgs
  intro s token e frame hs hkey
  have hput := s.1.sets_put token (.keep (e.queue frame now))
  refine hs.sets (hput.trans (sets_foldDelta hput.entry)) ?_ ?_
  · rintro e' ⟨⟩
    exact ⟨(hs _ e hkey).1, fun hout => absurd List.mem_insert_self hout⟩
  · intro k hin
    exact .inr (List.mem_insert_of_mem hin)

/-- A connection that was flushed is armed, or to be closed. -/
theorem ArmedBut.flushTouched {token : Nat} {rest : List Nat}
    (h : s.1.ArmedBut {k | k ∈ token :: rest ∨ k ∈ s.2}) (pass : Pass) :
    (Worker.flushTouched pass s token).1.ArmedBut
      {k | k ∈ rest ∨ k ∈ (Worker.flushTouched pass s token).2} := by
  have hothers {touched : List Nat} (hkept : ∀ k ∈ s.2, k ∈ touched) :
      ∀ k ∈ {k | k ∈ token :: rest ∨ k ∈ s.2}, k = token ∨ k ∈ {k | k ∈ rest ∨ k ∈ touched} := by
    rintro k (hlisted | hclosed)
    · exact (List.mem_cons.mp hlisted).imp_right .inl
    · exact .inr (.inr (hkept k hclosed))
  rw [Worker.flushTouched]
  cases hkey : s.1.conns.hget token with
  | none =>
    refine h.sets (Sets.self s.1 token) ?_ (hothers fun _ hin => hin)
    rw [hkey]
    rintro _ ⟨⟩
  | some e =>
    dsimp only
    have hr := WorkerEntry.reconciled_flushAndArm (h token e hkey).1 (pass.site token) pass.now
    have haction := WorkerEntry.flushAndArm_action e (pass.site token) pass.now
    generalize e.flushAndArm (pass.site token) pass.now = r at hr haction
    have hput := s.1.sets_put token r
    refine h.sets (hput.trans (sets_foldDelta hput.entry)) ?_ (hothers ?_)
    · rintro _ ⟨⟩
      refine ⟨hr.honest, fun hout => hr.armed (haction.resolve_right fun hclose => hout ?_)⟩
      rw [if_pos hclose]
      exact .inr List.mem_insert_self
    · intro k hin
      split
      · exact List.mem_insert_of_mem hin
      · exact hin

theorem ArmedBut.flushAll {tokens : List Nat} (h : s.1.ArmedBut {k | k ∈ tokens ∨ k ∈ s.2})
    (pass : Pass) :
    (tokens.foldl (Worker.flushTouched pass) s).1.ArmedBut
      {k | k ∈ (tokens.foldl (Worker.flushTouched pass) s).2} := by
  induction tokens generalizing s with
  | nil => exact h.mono fun k hin => hin.resolve_left List.not_mem_nil
  | cons _ _ ih => exact ih (h.flushTouched pass)

theorem ArmedBut.drainBroadcasts (h : w.ArmedBut ∅) (budget : Nat) (msgs : List BroadcastMsg)
    {pass : Pass} (hwalk : pass.Walks) : (w.drainBroadcasts budget msgs pass).ArmedBut ∅ := by
  have hinbox := h.drainBroadcastInbox budget pass.now msgs
  rw [Worker.drainBroadcasts]
  generalize w.drainBroadcastInbox budget pass.now msgs = s at hinbox
  obtain ⟨w', touched⟩ := s
  have hflushed : ((pass.walk touched).foldl (Worker.flushTouched pass) (w', [])).1.ArmedBut
      {k | k ∈ ((pass.walk touched).foldl (Worker.flushTouched pass) (w', [])).2} := by
    refine ArmedBut.flushAll (s := (w', [])) (hinbox.mono fun k hin => ?_) pass
    exact .inl ((hwalk touched).mem_iff.mpr hin)
  dsimp only
  generalize (pass.walk touched).foldl (Worker.flushTouched pass) (w', []) = s at hflushed
  refine (hflushed.removeAll (pass.walk s.2)).mono ?_
  rintro k ⟨hin, hout⟩
  exact hout ((hwalk s.2).mem_iff.mpr hin)

/-! ### Steps -/

theorem ArmedBut.accept (h : w.ArmedBut ∅) (cfg : WorkerConfig) (key : Nat) :
    (w.accept cfg key).ArmedBut ∅ := by
  rw [Worker.accept]
  split
  · exact h
  · intro k e hk
    rw [Hash.hget_hset] at hk
    split at hk
    · cases hk
      exact ⟨fun _ => rfl, fun _ howed => by cases howed⟩
    · exact h k e hk

/-- Any visit ends with a flush, if it keeps the connection. -/
theorem ArmedBut.rule (cfg : WorkerConfig) : Rule cfg (ArmedBut · ∅) where
  accept _ key h := h.accept cfg key
  remove _ key h := (h.remove key).mono fun _ hin => hin.1
  visit w key _ r h hkey hwork :=
    h.reconciled (w.sets_settle key r r.action) (hwork.reconciled (h.at hkey).1 cfg (h.at hkey).2)
  flags _ _ _ h := h

/-- What keeps a step from leaving owed bytes unarmed: each read on an open TLS
connection reconciles it (see `WorkerEntry.Reconciles`). -/
def Reconciles (cfg : WorkerConfig) (w : Worker) : WorkerAct → Prop
  | .event key ready _ => ready.hangup = false → ∀ input ∈ ready.readable,
      ∀ e ∈ w.conns.hget key, e.Reconciles cfg input
  | _ => True

instance (cfg : WorkerConfig) (w : Worker) (a : WorkerAct) : Decidable (w.Reconciles cfg a) := by
  cases a <;> unfold Reconciles <;> infer_instance

end Worker

/-- The passes of a step meet each token of the sets they walk. -/
def WorkerAct.Walks : WorkerAct → Prop
  | .broadcasts _ _ pass => pass.Walks
  | _ => True

theorem Worker.ArmedBut.step {w : Worker} (h : w.ArmedBut ∅) (cfg : WorkerConfig) (a : WorkerAct)
    (hwalk : a.Walks) (hread : w.Reconciles cfg a) : (workerStep cfg w a).ArmedBut ∅ := by
  refine (ArmedBut.rule cfg).step h a ?_ ?_
  · rintro key ready now rfl hhangup input hready
    exact h.readable cfg key input now (hread hhangup input hready)
  · rintro budget msgs pass rfl
    exact h.drainBroadcasts budget msgs hwalk

/-- Along every run in which no read leaves an open TLS connection with ciphertext that
nothing flushes, each connection that owes bytes has writable interest. -/
theorem owed_bytes_armed (cfg : WorkerConfig) (as : List WorkerAct) (hwalk : ∀ a ∈ as, a.Walks)
    (hread : Along (workerStep cfg) (Worker.Reconciles cfg) {} as) :
    ∀ k e, (run (workerStep cfg) {} as).conns.hget k = some e →
      e.conn.hasPendingWrites = true → e.conn.conn.writableArmed = true := by
  have hstart : ({} : Worker).ArmedBut ∅ := by
    intro k e hk
    cases hk
  have hrun := ((Along.of_mem hwalk _).and hread).invariant
    (fun w a (h : w.ArmedBut ∅) hok => h.step cfg a hok.1 hok.2) hstart
  intro k e hk
  exact (hrun.at hk).2

/-- A TLS connection is accepted and upgraded, and everything is written. -/
def upgraded : List WorkerAct :=
  [.accept [0],
    .event 0 { readable := some {
      incoming := { bytes := [1] }
      upgrade := .establish [2]
      site := { socket := { calls := [{ taken := .wrote 1000 }] } } } } 0]

/-- Records without plaintext, for which the session of an open connection has an answer
of its own to write: the socket blocks. -/
def keyUpdate (mail : List Mail) : WorkerAct :=
  .event 0 { readable := some { incoming := { writes := [.wouldBlock] }, mail } } 1

theorem upgraded_walks (mail : List Mail) : ∀ a ∈ upgraded ++ [keyUpdate mail], a.Walks := by
  simp [upgraded, keyUpdate, WorkerAct.Walks]

/-- An event in the mailbox has the ciphertext flushed as well; the flush blocks. -/
theorem owed_bytes_armed_event : let as := upgraded ++ [keyUpdate [.event [3]]]
    ((run (workerStep (LoopConfig.sample true).toWorkerConfig) {} as).conns.hget 0).any
        (·.conn.hasPendingWrites) = true ∧
      ∀ e, (run (workerStep (LoopConfig.sample true).toWorkerConfig) {} as).conns.hget 0 = some e →
        e.conn.hasPendingWrites = true → e.conn.conn.writableArmed = true :=
  ⟨by decide +kernel,
    owed_bytes_armed _ _ (upgraded_walks [.event [3]]) (by decide +kernel) 0⟩

/-- Without it, the ciphertext stays where it is and nothing waits for the socket. -/
theorem ciphertext_left_unarmed : let as := upgraded ++ [keyUpdate []]
    (∀ a ∈ as, a.Walks) ∧
      ((run (workerStep (LoopConfig.sample true).toWorkerConfig) {} as).conns.hget 0).any
        (fun e => e.conn.hasPendingWrites && !e.conn.conn.writableArmed) = true :=
  ⟨upgraded_walks [], by decide +kernel⟩

end Pylon.Transport
