import Pylon.Lib.Trace
import Pylon.Webhook.Target

/-!
# The delivery task

The task that `HttpTransport::deliver` spawns for one delivery
(`webhook/transport.rs`): the guard's check, then attempts with backoff in between
until one succeeds or the budget is spent. A step of the machine is what the task
does between two points where time may pass, and a `Moment` is what it finds there.

The budget is compared with one reading of the clock and subtracted from with the
next, so the two are steps of their own. Every attempt goes through a sender that the
check allowed; a refused delivery makes no attempt and counts as failed.
-/

namespace Pylon.Webhook

open Pylon.Lib

/-! ## Configuration -/

/-- `HttpTransport`, as far as one task reads it: 64-bit durations, a cap that is
not zero. -/
structure HttpTransport where
  backoffBaseMs : Nat
  backoffCapMs : Nat
  retryBudgetMs : Nat
  guard : Option SsrfGuard
  cap_pos : 0 < backoffCapMs
  base_lt : backoffBaseMs < 2 ^ 64
  cap_lt : backoffCapMs < 2 ^ 64
  budget_lt : retryBudgetMs < 2 ^ 64

/-- `with_sender_and_guard`: the cap is floored at one millisecond. -/
def HttpTransport.withSenderAndGuard (guard : Option SsrfGuard)
    (backoffBaseMs backoffCapMs retryBudgetMs : UInt64) : HttpTransport where
  backoffBaseMs := backoffBaseMs.toNat
  backoffCapMs := max backoffCapMs.toNat 1
  retryBudgetMs := retryBudgetMs.toNat
  guard
  cap_pos := by omega
  base_lt := backoffBaseMs.toNat_lt
  cap_lt := by
    have := backoffCapMs.toNat_lt
    omega
  budget_lt := retryBudgetMs.toNat_lt

/-- The client an attempt is made with. -/
inductive Sender where
  | shared
  | pinned (pin : DeliveryPin)
  deriving DecidableEq, Repr

/-- The client for what the check allowed. -/
def Sender.of : Option DeliveryPin → Sender
  | none => .shared
  | some pin => .pinned pin

/-! ## The task -/

inductive Phase where
  | preflight
  /-- Waiting for the first permit. -/
  | acquiring
  /-- An attempt is in flight. -/
  | posting
  /-- About to compare the time spent with the budget. -/
  | checking
  /-- About to subtract the time spent from the budget. -/
  | measuring
  | sleeping (ms : Nat)
  /-- Waiting for the permit of a retry. -/
  | reacquiring
  | done
  deriving DecidableEq, Repr

/-- A requested sleep, with the time spent as it was read last. -/
structure Sleep where
  /-- Nanoseconds since the start. -/
  elapsed : Nat
  ms : Nat
  deriving DecidableEq, Repr

/-- The task, with a record of what it did. -/
structure Task where
  phase : Phase := .preflight
  sender : Sender := .shared
  /-- Nanoseconds. -/
  start : Nat := 0
  delayMs : Nat := 0
  attempt : Nat := 0
  /-- When the last step was taken. -/
  clock : Nat := 0
  attempts : List Sender := []
  sleeps : List Sleep := []
  /-- Whether a subtraction went below zero. -/
  underflowed : Bool := false
  deliveredOk : Nat := 0
  deliveredFailed : Nat := 0
  deriving DecidableEq, Repr

/-- What the task finds at a step, each phase looking at its part of it. -/
structure Moment where
  /-- The clock, in nanoseconds. -/
  now : Nat
  /-- What the resolver answers. -/
  resolve : String → List IpAddr := fun _ => []
  /-- Whether the pinned client can be built. -/
  buildable : Bool := true
  /-- Whether the permit is granted; the semaphore is closed otherwise. -/
  granted : Bool := true
  /-- The status of the response, or a transport error. -/
  response : Except String Nat := .ok 200

/-- `Duration::as_millis` of nanoseconds, cast to 64 bits. -/
def asMillis (ns : Nat) : Nat := ns / 10 ^ 6 % 2 ^ 64

/-- Subtraction of 64-bit numbers as the release build computes it. -/
def wrappingSub (a b : Nat) : Nat := (a + 2 ^ 64 - b) % 2 ^ 64

/-- `saturating_mul` of 64-bit numbers. -/
def saturatingMul (a b : Nat) : Nat := min (a * b) (2 ^ 64 - 1)

def succeeded : Except String Nat → Bool
  | .ok status => 200 ≤ status && status < 300
  | .error _ => false

namespace Task

def succeed (s : Task) : Task := { s with phase := .done, deliveredOk := s.deliveredOk + 1 }

def fail (s : Task) : Task := { s with phase := .done, deliveredFailed := s.deliveredFailed + 1 }

/-- Begin an attempt. -/
def post (s : Task) : Task :=
  { s with phase := .posting, attempts := s.attempts ++ [s.sender] }

variable (p : Parsers) (t : HttpTransport) (url : String)

/-- The guard's check, and the client for what it allows. -/
def preflight (s : Task) (m : Moment) : Task :=
  match t.guard with
  | none => { s with phase := .acquiring, sender := .shared }
  | some g =>
    match g.check p m.resolve url with
    | .ok none => { s with phase := .acquiring, sender := .shared }
    | .ok (some pin) =>
      if m.buildable then { s with phase := .acquiring, sender := .pinned pin } else s.fail
    | .error _ => s.fail

/-- What the task does at a moment. -/
def act (s : Task) (m : Moment) : Task :=
  match s.phase with
  | .preflight => s.preflight p t url m
  | .acquiring =>
    if m.granted then
      { s with
        start := m.now
        delayMs := min (max t.backoffBaseMs 1) t.backoffCapMs
        attempt := 0 }.post
    else s.fail
  | .posting => if succeeded m.response then s.succeed else { s with phase := .checking }
  | .checking =>
    if t.retryBudgetMs * 10 ^ 6 ≤ m.now - s.start then s.fail else { s with phase := .measuring }
  | .measuring =>
    -- a second reading of the clock: time may have passed since the comparison
    let elapsed := m.now - s.start
    let remaining := wrappingSub t.retryBudgetMs (asMillis elapsed)
    let ms := min s.delayMs remaining
    { s with
      phase := .sleeping ms
      sleeps := s.sleeps ++ [{ elapsed, ms }]
      underflowed := s.underflowed || decide (t.retryBudgetMs < asMillis elapsed) }
  | .sleeping _ =>
    { s with
      phase := .reacquiring
      delayMs := min (saturatingMul s.delayMs 2) t.backoffCapMs
      attempt := (s.attempt + 1) % 2 ^ 32 }
  | .reacquiring => if m.granted then s.post else s.fail
  | .done => s

def step (s : Task) (m : Moment) : Task := { s.act p t url m with clock := m.now }

end Task

/-! ## Endings -/

variable {p : Parsers} {t : HttpTransport} {url : String} {g : SsrfGuard} {s : Task}

theorem Task.step_done (h : s.phase = .done) (m : Moment) :
    s.step p t url m = { s with clock := m.now } := by
  simp [Task.step, Task.act, h]

theorem Task.run_done (h : s.phase = .done) (ms : List Moment) :
    ∃ clock, run (Task.step p t url) s ms = { s with clock } := by
  refine run_invariant (fun (s' : Task) m (hs' : ∃ clock, s' = { s with clock }) => ?_)
    ⟨s.clock, rfl⟩ ms
  obtain ⟨clock, rfl⟩ := hs'
  exact ⟨m.now, Task.step_done (s := { s with clock }) h m⟩

/-! ## The guard -/

/-- Which addresses an attempt can connect to: that of a URL which spells one out,
those of the pin otherwise. -/
structure Network (p : Parsers) where
  connects : Sender → String → IpAddr → Prop
  shared_only : ∀ {url : String} {parsed : Url} {host : String} {ip a : IpAddr},
    p.url url = .ok parsed → parsed.host = some host → literal p host = some ip →
      connects .shared url a → a = ip
  pinned_only : ∀ {url : String} {pin : DeliveryPin} {a : IpAddr},
    connects (.pinned pin) url a → ∃ port, (a, port) ∈ pin.addrs

/-- The check allowed the sender, for some answer of the resolver. -/
def Allowed (p : Parsers) (g : SsrfGuard) (url : String) (sender : Sender) : Prop :=
  ∃ resolve pin, g.check p resolve url = .ok pin ∧ sender = .of pin

/-- An attempt that the check allowed reaches no private address. -/
theorem Allowed.safe {sender : Sender} (h : Allowed p ⟨false⟩ url sender) (net : Network p) :
    ∃ parsed, p.url url = .ok parsed ∧
      (toAsciiLowercase parsed.scheme = "http" ∨ toAsciiLowercase parsed.scheme = "https") ∧
      ∀ a, net.connects sender url a → isPrivateTarget a = false := by
  obtain ⟨resolve, pin, hcheck, rfl⟩ := h
  obtain ⟨parsed, host, port, hparsed, hscheme, hhost, hclass⟩ := SsrfGuard.check_ok hcheck
  refine ⟨parsed, hparsed, hscheme, fun a hconn => ?_⟩
  rcases SsrfGuard.classify_ok hclass with ⟨ip, hip, hkept, rfl⟩ | ⟨hkept, rfl⟩
  · rw [net.shared_only hparsed hhost hip hconn]
    simpa [SsrfGuard.refuses] using hkept
  · obtain ⟨port', hmem⟩ := net.pinned_only hconn
    obtain ⟨ip, hip, heq⟩ := List.mem_map.mp hmem
    obtain ⟨rfl, -⟩ := Prod.mk.inj heq
    simpa [SsrfGuard.refuses] using hkept ip hip

/-- The sender of a task past its check, and of every attempt, was allowed. -/
structure Screened (p : Parsers) (g : SsrfGuard) (url : String) (s : Task) : Prop where
  sender : s.phase ≠ .preflight → s.phase ≠ .done → Allowed p g url s.sender
  attempts : ∀ sender ∈ s.attempts, Allowed p g url sender

theorem Screened.post (h : ∀ sender ∈ s.attempts, Allowed p g url sender)
    (hsender : Allowed p g url s.sender) : Screened p g url s.post where
  sender := fun _ _ => hsender
  attempts := by
    intro sender hmem
    rcases List.mem_append.mp hmem with hmem | hmem
    · exact h sender hmem
    · rw [List.mem_singleton.mp hmem]
      exact hsender

theorem Screened.over (h : ∀ sender ∈ s.attempts, Allowed p g url sender)
    (hdone : s.phase = .done) :
    Screened p g url s where
  sender := fun _ hnot => absurd hdone hnot
  attempts := h

theorem Screened.preflight (hguard : t.guard = some g)
    (h : ∀ sender ∈ s.attempts, Allowed p g url sender) (m : Moment) :
    Screened p g url (s.preflight p t url m) := by
  unfold Task.preflight
  rw [hguard]
  dsimp only
  split
  · next hcheck => exact ⟨fun _ _ => ⟨m.resolve, none, hcheck, rfl⟩, h⟩
  · next pin hcheck =>
    split
    · exact ⟨fun _ _ => ⟨m.resolve, some pin, hcheck, rfl⟩, h⟩
    · exact .over h rfl
  · exact .over h rfl

theorem Screened.act (hguard : t.guard = some g) (h : Screened p g url s) (m : Moment) :
    Screened p g url (s.act p t url m) := by
  have hsender : s.phase ≠ .preflight → s.phase ≠ .done → Allowed p g url s.sender := h.sender
  unfold Task.act
  split <;> rename_i hphase <;> rw [hphase] at hsender
  · exact .preflight hguard h.attempts m
  · split
    · exact .post h.attempts (hsender (by simp) (by simp))
    · exact .over h.attempts rfl
  · split
    · exact .over h.attempts rfl
    · exact ⟨fun _ _ => hsender (by simp) (by simp), h.attempts⟩
  · split
    · exact .over h.attempts rfl
    · exact ⟨fun _ _ => hsender (by simp) (by simp), h.attempts⟩
  · exact ⟨fun _ _ => hsender (by simp) (by simp), h.attempts⟩
  · exact ⟨fun _ _ => hsender (by simp) (by simp), h.attempts⟩
  · split
    · exact .post h.attempts (hsender (by simp) (by simp))
    · exact .over h.attempts rfl
  · exact h

/-- No attempt is sent past the guard. -/
theorem Screened.run (hguard : t.guard = some g) (ms : List Moment) :
    Screened p g url (run (Task.step p t url) {} ms) := by
  refine run_invariant (fun (s : Task) m (h : Screened p g url s) => ?_) ?_ ms
  · obtain ⟨hsender, hattempts⟩ := h.act hguard m
    exact ⟨hsender, hattempts⟩
  · exact ⟨fun hnot _ => absurd rfl hnot, by simp⟩

theorem Task.step_refused (hguard : t.guard = some g) {m : Moment} {reason : String}
    (hcheck : g.check p m.resolve url = .error reason) :
    Task.step p t url {} m = { phase := .done, clock := m.now, deliveredFailed := 1 } := by
  simp [Task.step, Task.act, Task.preflight, hguard, hcheck, Task.fail]

/-- With the guard installed and private targets not allowed, whatever the URL, the
resolver and the rest of the run: attempts are made for a scheme of the web and
reach no private address, where embedded IPv4 addresses count as such and those a
gateway translates are refused; and a refused delivery makes no attempt and counts
as failed, once. -/
theorem ssrf_guarded (net : Network p) (hguard : t.guard = some ⟨false⟩) (ms : List Moment) :
    let s := run (Task.step p t url) {} ms
    (∀ sender ∈ s.attempts, ∃ parsed, p.url url = .ok parsed ∧
      (toAsciiLowercase parsed.scheme = "http" ∨ toAsciiLowercase parsed.scheme = "https") ∧
      ∀ a, net.connects sender url a → isPrivateTarget a = false) ∧
    (∀ s6 s7, isPrivateTarget (.v6 ⟨0, 0, 0, 0, 0, 0xffff, s6, s7⟩) =
      isPrivateTarget (.v4 (Ipv6Addr.embedded s6 s7))) ∧
    (∀ s6 s7, ¬ (s6 = 0 ∧ s7 = 0) → ¬ (s6 = 0 ∧ s7 = 1) →
      isPrivateTarget (.v6 ⟨0, 0, 0, 0, 0, 0, s6, s7⟩) =
        isPrivateTarget (.v4 (Ipv6Addr.embedded s6 s7))) ∧
    (∀ s6 s7, isPrivateTarget (.v6 ⟨0x64, 0xff9b, 0, 0, 0, 0, s6, s7⟩) = true) ∧
    (∀ v : Ipv6Addr, v.s0 = 0x2002 → isPrivateTarget (.v6 v) = true) ∧
    ∀ m rest reason, ms = m :: rest →
      SsrfGuard.check p ⟨false⟩ m.resolve url = .error reason →
      s.attempts = [] ∧ s.deliveredFailed = 1 ∧ s.deliveredOk = 0 := by
  refine ⟨fun sender hmem => ?_, isPrivateTarget_mapped, isPrivateTarget_compatible,
    isPrivateTarget_nat64, isPrivateTarget_6to4, ?_⟩
  · exact ((Screened.run hguard ms).attempts sender hmem).safe net
  · rintro m rest reason rfl hcheck
    rw [run_cons, Task.step_refused hguard hcheck]
    obtain ⟨clock, hrun⟩ : ∃ clock, run (Task.step p t url)
        { phase := .done, clock := m.now, deliveredFailed := 1 } rest =
          { phase := .done, clock, deliveredFailed := 1 } := Task.run_done rfl rest
    rw [hrun]
    exact ⟨rfl, rfl, rfl⟩

/-- A network that connects to all it may. -/
def Network.full (p : Parsers) : Network p where
  connects
    | .shared, url, a => ∃ parsed host, p.url url = .ok parsed ∧ parsed.host = some host ∧
        literal p host = some a
    | .pinned pin, _, a => ∃ port, (a, port) ∈ pin.addrs
  shared_only := by
    rintro url parsed host ip a hparsed hhost hip ⟨parsed', host', hparsed', hhost', ha⟩
    obtain rfl := Except.ok.inj (hparsed.symm.trans hparsed')
    obtain rfl := Option.some.inj (hhost.symm.trans hhost')
    exact Option.some.inj (ha.symm.trans hip)
  pinned_only := id

/-- Two URLs, one with a public address and one with a name. -/
def samples : Parsers where
  url
    | "http://93.184.216.34/wh" => .ok ⟨"http", some "93.184.216.34", some 80⟩
    | "https://e.test/wh" => .ok ⟨"https", some "e.test", some 443⟩
    | _ => .error "relative URL without a base"
  ipv6 _ := none
  ip
    | "93.184.216.34" => some (.v4 ⟨93, 184, 216, 34⟩)
    | _ => none
  text _ := ""

def guarded : HttpTransport := .withSenderAndGuard (some ⟨false⟩) 1000 60000 300000

/-- A public answer, and one that is private in part. -/
def publicAnswer : Moment := { now := 0, resolve := fun _ => [.v4 ⟨93, 184, 216, 34⟩] }

def splitAnswer : Moment :=
  { now := 0, resolve := fun _ => [.v4 ⟨93, 184, 216, 34⟩, .v4 ⟨169, 254, 169, 254⟩] }

theorem ssrf_guarded_samples :
    (run (Task.step samples guarded "https://e.test/wh") {} [publicAnswer, publicAnswer]).attempts =
      [.pinned ⟨"e.test", [(.v4 ⟨93, 184, 216, 34⟩, 443)]⟩] ∧
    (∀ a, (Network.full samples).connects
        (.pinned ⟨"e.test", [(.v4 ⟨93, 184, 216, 34⟩, 443)]⟩) "https://e.test/wh" a →
      isPrivateTarget a = false) ∧
    (run (Task.step samples guarded "https://e.test/wh") {}
      [splitAnswer, publicAnswer]).attempts = [] := by
  have hattempts : (run (Task.step samples guarded "https://e.test/wh") {}
      [publicAnswer, publicAnswer]).attempts =
        [.pinned ⟨"e.test", [(.v4 ⟨93, 184, 216, 34⟩, 443)]⟩] := by decide
  have hrefused : SsrfGuard.check samples ⟨false⟩ splitAnswer.resolve "https://e.test/wh" = .error
      "host e.test resolves to private/loopback/link-local address " := by rfl
  obtain ⟨_, _, _, hsafe⟩ := (ssrf_guarded (t := guarded) (Network.full samples) rfl
    [publicAnswer, publicAnswer]).1 _ (hattempts ▸ List.mem_singleton.mpr rfl)
  have hsplit := (ssrf_guarded (t := guarded) (Network.full samples) rfl
    [splitAnswer, publicAnswer]).2.2.2.2.2 splitAnswer [publicAnswer] _ rfl hrefused
  exact ⟨hattempts, hsafe, hsplit.1⟩

end Pylon.Webhook
