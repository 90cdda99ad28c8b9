import Mathlib.Data.String.Basic

/-!
# Webhook targets

The guard against deliveries into the server's own network
(`is_private_target` and `SsrfGuard::check` of `webhook/transport.rs`).

* **addresses** — an IPv6 address that embeds an IPv4 one is classified by it, or
  refused altogether where a gateway translates it; the forms overlap, so the order
  of the tests matters;
* **the check** — a literal address is classified as it is; a name is resolved,
  one private address in the answer refuses the delivery, and the delivery is
  pinned to the answer.

Parsing of URLs and addresses belongs to libraries and is a parameter (`Parsers`);
what the resolver answers is an argument.
-/

namespace Pylon.Webhook

/-! ## Addresses -/

structure Ipv4Addr where
  a : UInt8
  b : UInt8
  c : UInt8
  d : UInt8
  deriving DecidableEq, Repr

namespace Ipv4Addr

variable (v : Ipv4Addr)

def isLoopback : Bool := v.a = 127

def isUnspecified : Bool := v = ⟨0, 0, 0, 0⟩

def isLinkLocal : Bool := v.a = 169 && v.b = 254

def isPrivate : Bool :=
  v.a = 10 || (v.a = 172 && 16 ≤ v.b && v.b ≤ 31) || (v.a = 192 && v.b = 168)

/-- 100.64.0.0/10. -/
def isShared : Bool := v.a = 100 && 0x40 ≤ v.b && v.b ≤ 0x7f

def isMulticast : Bool := 224 ≤ v.a && v.a ≤ 239

def isBroadcast : Bool := v = ⟨255, 255, 255, 255⟩

/-- 240.0.0.0/4. -/
def isReserved : Bool := 0xf0 ≤ v.a && v.a ≤ 0xff

/-- `is_private_target` of an IPv4 address. -/
def isPrivateTarget : Bool :=
  v.isLoopback || v.isUnspecified || v.isLinkLocal || v.isPrivate || v.isShared ||
    v.isMulticast || v.isBroadcast || v.isReserved

end Ipv4Addr

/-- An IPv6 address by its segments. -/
structure Ipv6Addr where
  s0 : UInt16
  s1 : UInt16
  s2 : UInt16
  s3 : UInt16
  s4 : UInt16
  s5 : UInt16
  s6 : UInt16
  s7 : UInt16
  deriving DecidableEq, Repr

namespace Ipv6Addr

/-- The IPv4 address in the last two segments. -/
def embedded (s6 s7 : UInt16) : Ipv4Addr :=
  ⟨(s6 >>> 8).toUInt8, s6.toUInt8, (s7 >>> 8).toUInt8, s7.toUInt8⟩

variable (v : Ipv6Addr)

def isLoopback : Bool := v = ⟨0, 0, 0, 0, 0, 0, 0, 1⟩

def isUnspecified : Bool := v = ⟨0, 0, 0, 0, 0, 0, 0, 0⟩

def isMulticast : Bool := v.s0 &&& 0xff00 = 0xff00

/-- `::ffff:a.b.c.d`. -/
def toIpv4Mapped : Option Ipv4Addr :=
  if v.s0 = 0 ∧ v.s1 = 0 ∧ v.s2 = 0 ∧ v.s3 = 0 ∧ v.s4 = 0 ∧ v.s5 = 0xffff then
    some (embedded v.s6 v.s7)
  else none

/-- `::ffff:a.b.c.d` or `::a.b.c.d`. -/
def toIpv4 : Option Ipv4Addr :=
  if v.s0 = 0 ∧ v.s1 = 0 ∧ v.s2 = 0 ∧ v.s3 = 0 ∧ v.s4 = 0 ∧ (v.s5 = 0 ∨ v.s5 = 0xffff) then
    some (embedded v.s6 v.s7)
  else none

/-- The well-known prefix `64:ff9b::/96`. -/
def isNat64 : Bool :=
  v.s0 = 0x64 && v.s1 = 0xff9b && v.s2 = 0 && v.s3 = 0 && v.s4 = 0 && v.s5 = 0

/-- `is_private_target` of an IPv6 address. -/
def isPrivateTarget : Bool :=
  if v.isLoopback || v.isUnspecified then true
  else
    match v.toIpv4Mapped with
    | some v4 => v4.isPrivateTarget
    | none =>
      if v.isNat64 then true
      else
        match v.toIpv4 with
        | some v4 => v4.isPrivateTarget
        | none =>
          if v.s0 = 0x2002 then true
          else v.s0 &&& 0xfe00 = 0xfc00 || v.s0 &&& 0xffc0 = 0xfe80 || v.isMulticast

end Ipv6Addr

inductive IpAddr where
  | v4 (v : Ipv4Addr)
  | v6 (v : Ipv6Addr)
  deriving DecidableEq, Repr

def isPrivateTarget : IpAddr → Bool
  | .v4 v => v.isPrivateTarget
  | .v6 v => v.isPrivateTarget

/-! ## Addresses that embed an IPv4 one -/

/-- A mapped address is classified by the address it embeds. -/
theorem isPrivateTarget_mapped (s6 s7 : UInt16) :
    isPrivateTarget (.v6 ⟨0, 0, 0, 0, 0, 0xffff, s6, s7⟩) =
      isPrivateTarget (.v4 (Ipv6Addr.embedded s6 s7)) := by
  simp [isPrivateTarget, Ipv6Addr.isPrivateTarget, Ipv6Addr.isLoopback, Ipv6Addr.isUnspecified,
    Ipv6Addr.toIpv4Mapped]

/-- So is a compatible one, but for `::` and `::1`. -/
theorem isPrivateTarget_compatible (s6 s7 : UInt16) (h0 : ¬ (s6 = 0 ∧ s7 = 0))
    (h1 : ¬ (s6 = 0 ∧ s7 = 1)) :
    isPrivateTarget (.v6 ⟨0, 0, 0, 0, 0, 0, s6, s7⟩) =
      isPrivateTarget (.v4 (Ipv6Addr.embedded s6 s7)) := by
  simp [isPrivateTarget, Ipv6Addr.isPrivateTarget, Ipv6Addr.isLoopback, Ipv6Addr.isUnspecified,
    Ipv6Addr.toIpv4Mapped, Ipv6Addr.isNat64, Ipv6Addr.toIpv4, h0, h1]

theorem isPrivateTarget_nat64 (s6 s7 : UInt16) :
    isPrivateTarget (.v6 ⟨0x64, 0xff9b, 0, 0, 0, 0, s6, s7⟩) = true := by
  simp [isPrivateTarget, Ipv6Addr.isPrivateTarget, Ipv6Addr.isLoopback, Ipv6Addr.isUnspecified,
    Ipv6Addr.toIpv4Mapped, Ipv6Addr.isNat64]

theorem isPrivateTarget_6to4 (v : Ipv6Addr) (h : v.s0 = 0x2002) :
    isPrivateTarget (.v6 v) = true := by
  obtain ⟨s0, s1, s2, s3, s4, s5, s6, s7⟩ := v
  subst h
  simp [isPrivateTarget, Ipv6Addr.isPrivateTarget, Ipv6Addr.isLoopback, Ipv6Addr.isUnspecified,
    Ipv6Addr.toIpv4Mapped, Ipv6Addr.isNat64, Ipv6Addr.toIpv4]

/-! ## The check -/

/-- What the URL parser reads off a URL. -/
structure Url where
  scheme : String
  host : Option String
  /-- The port, or the default port of the scheme. -/
  port : Option Nat
  deriving DecidableEq, Repr

/-- The parsers of other libraries. -/
structure Parsers where
  url : String → Except String Url
  ipv6 : String → Option Ipv6Addr
  ip : String → Option IpAddr
  /-- The text of an address. -/
  text : IpAddr → String

/-- The host and the addresses a delivery is pinned to. -/
structure DeliveryPin where
  host : String
  addrs : List (IpAddr × Nat)
  deriving DecidableEq, Repr

/-- `h.strip_prefix('[')` followed by `strip_suffix(']')`. -/
def stripBrackets (host : String) : Option String :=
  match host.toList with
  | '[' :: inner =>
    if inner.getLast? = some ']' then some (String.ofList inner.dropLast) else none
  | _ => none

/-- `str::to_ascii_lowercase`. -/
def toAsciiLowercase (s : String) : String := String.ofList (s.toList.map Char.toLower)

variable (p : Parsers)

/-- The address a host spells out, if it does. -/
def literal (host : String) : Option IpAddr :=
  match stripBrackets host with
  | some inner => (p.ipv6 inner).map .v6
  | none => p.ip host

/-- `SsrfGuard`, its resolver apart. -/
structure SsrfGuard where
  allowPrivate : Bool
  deriving DecidableEq, Repr

namespace SsrfGuard

variable (g : SsrfGuard)

def refuses (ip : IpAddr) : Bool := isPrivateTarget ip && !g.allowPrivate

/-- The part of `check` that classifies the host. -/
def classify (resolve : String → List IpAddr) (host : String) (port : Nat) :
    Except String (Option DeliveryPin) :=
  match literal p host with
  | some ip =>
    if g.refuses ip then
      .error ("target " ++ p.text ip ++ " is a private/loopback/link-local address")
    else .ok none
  | none =>
    let ips := resolve host
    if ips.isEmpty then .error ("host " ++ host ++ " did not resolve")
    else
      match ips.find? g.refuses with
      | some ip =>
        .error ("host " ++ host ++ " resolves to private/loopback/link-local address " ++ p.text ip)
      | none => .ok (some { host, addrs := ips.map (·, port) })

/-- `check`, given what the resolver answers: refused, allowed as it stands, or
allowed and pinned. -/
def check (resolve : String → List IpAddr) (url : String) : Except String (Option DeliveryPin) :=
  match p.url url with
  | .error e => .error ("invalid URL: " ++ e)
  | .ok parsed =>
    let scheme := toAsciiLowercase parsed.scheme
    if scheme ≠ "http" ∧ scheme ≠ "https" then
      .error ("unsupported scheme " ++ scheme.quote ++
        ": webhook targets must be http:// or https://")
    else
      match parsed.host, parsed.port with
      | none, _ => .error "URL has no host"
      | some _, none => .error "unknown port for scheme"
      | some host, some port => g.classify p resolve host port

variable {p g}

/-- A host is allowed as the address it spells out, or with all of its answer. -/
theorem classify_ok {resolve : String → List IpAddr} {host : String} {port : Nat}
    {pin : Option DeliveryPin} (h : g.classify p resolve host port = .ok pin) :
    (∃ ip, literal p host = some ip ∧ g.refuses ip = false ∧ pin = none) ∨
      ((∀ ip ∈ resolve host, g.refuses ip = false) ∧
        pin = some { host, addrs := (resolve host).map (·, port) }) := by
  unfold classify at h
  split at h
  case h_1 ip hip =>
    split at h
    · cases h
    · next hkept => exact .inl ⟨ip, hip, by simpa using hkept, (Except.ok.inj h).symm⟩
  case h_2 =>
    dsimp only at h
    split at h
    · cases h
    · split at h
      · cases h
      · next hnone =>
        refine .inr ⟨fun ip hip => ?_, (Except.ok.inj h).symm⟩
        simpa using List.find?_eq_none.mp hnone ip hip

/-- What is allowed has a scheme of the web and a host that is. -/
theorem check_ok {resolve : String → List IpAddr} {url : String} {pin : Option DeliveryPin}
    (h : g.check p resolve url = .ok pin) :
    ∃ parsed host port, p.url url = .ok parsed ∧
      (toAsciiLowercase parsed.scheme = "http" ∨ toAsciiLowercase parsed.scheme = "https") ∧
      parsed.host = some host ∧ g.classify p resolve host port = .ok pin := by
  unfold check at h
  split at h
  · cases h
  · next parsed hparsed =>
    dsimp only at h
    split at h
    · cases h
    · next hscheme =>
      split at h
      · cases h
      · cases h
      · next host port hhost _ => exact ⟨parsed, host, port, hparsed, by tauto, hhost, h⟩

end SsrfGuard

end Pylon.Webhook
