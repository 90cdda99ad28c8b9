import Pylon.Auth.Rest
import Pylon.Webhook.Delivery
import Pylon.Ws.Dispatch

/-!
# One secret, five messages

An app's secret signs private and presence subscriptions, sign-ins, REST requests
and webhook bodies, each message put together by plain concatenation. What keeps a
signature made for one from serving as another is that the messages can be told
apart:

* a token's message starts with a socket id and a colon, and behind it stands a
  channel name without a colon (`Grant.message_inj`);
* a REST message has a line break before its first colon, a webhook body starts
  with a brace.

Joining a channel the connection holds already and repeating its own sign-in read
no token: they are no use of one.
-/

namespace Pylon.Ws

open Pylon.Auth Pylon.Channel Pylon.Lib Pylon.Redis Pylon.Webhook

/-! ## The messages -/

/-- What a token is presented for. -/
inductive Grant where
  | channel (name : String)
  | presence (name data : String)
  | signin (userData : String)
  deriving DecidableEq

/-- A socket id: digits, a dot, digits. -/
def SocketIdForm (socketId : Text) : Prop :=
  ∃ a b : Text, a ≠ [] ∧ b ≠ [] ∧ (∀ c ∈ a ++ b, c.isDigit) ∧ socketId = a ++ '.' :: b

namespace Grant

/-- The message signed for a grant. -/
def message (socketId : Text) : Grant → String
  | channel name => channelMessage socketId name none
  | presence name data => channelMessage socketId name (some data)
  | signin userData => userMessage socketId userData

/-- The message behind the socket id and its colon. -/
def rest : Grant → Text
  | channel name => name.toList
  | presence name data => name.toList ++ ':' :: data.toList
  | signin userData => ':' :: ("user::".toList ++ userData.toList)

theorem message_toList (socketId : Text) (g : Grant) :
    (g.message socketId).toList = socketId ++ ':' :: g.rest := by
  cases g <;> simp [message, channelMessage, userMessage, rest]

/-- A channel name stands between colons, and holds none. -/
def Named : Grant → Prop
  | channel name | presence name _ => name.toList ≠ [] ∧ ':' ∉ name.toList
  | signin _ => True

/-- A name has no colon; `name:data` and a sign-in have one. -/
theorem isChannel_of_rest {g g' : Grant} (hg : g.Named) {name : String} (heq : g'.rest = g.rest)
    (hchannel : g = channel name) : ∃ name', g' = channel name' := by
  subst hchannel
  cases g' with
  | channel name' => exact ⟨name', rfl⟩
  | presence | signin =>
    refine absurd ?_ hg.2
    rw [show name.toList = _ from heq.symm]
    simp [rest]

/-- A sign-in starts with a colon, `name:data` does not. -/
theorem presence_ne_signin {name data userData : String} (hg : (presence name data).Named) :
    (presence name data).rest ≠ (signin userData).rest := by
  intro heq
  have hcut : name.toList ++ ':' :: data.toList = [] ++
      ':' :: ("user::".toList ++ userData.toList) :=
    heq
  exact hg.1 (Separated.append_sep_inj hg.2 (by simp) hcut).1

/-- What stands behind the socket id says what the grant is. -/
theorem rest_inj {g g' : Grant} (hg : g.Named) (hg' : g'.Named) (heq : g.rest = g'.rest) :
    g = g' := by
  cases g with
  | channel =>
    obtain ⟨name', rfl⟩ := isChannel_of_rest hg heq.symm rfl
    rw [String.toList_inj.mp heq]
  | presence =>
    cases g' with
    | channel => exact absurd (isChannel_of_rest hg' heq rfl) (by simp)
    | presence =>
      obtain ⟨hname, hdata⟩ := Separated.append_sep_inj hg.2 hg'.2 heq
      rw [String.toList_inj.mp hname, String.toList_inj.mp hdata]
    | signin => exact absurd heq (presence_ne_signin hg)
  | signin =>
    cases g' with
    | channel => exact absurd (isChannel_of_rest hg' heq rfl) (by simp)
    | presence => exact absurd heq.symm (presence_ne_signin hg')
    | signin =>
      rw [String.toList_inj.mp (List.append_cancel_left (List.cons.inj heq).2)]

end Grant

variable {socketId : Text}

theorem SocketIdForm.no_colon (h : SocketIdForm socketId) : ':' ∉ socketId := by
  obtain ⟨a, b, -, -, hdigits, rfl⟩ := h
  intro hmem
  simp only [List.mem_append, List.mem_cons, Char.reduceEq, false_or] at hmem
  exact absurd (hdigits ':' (List.mem_append.mpr hmem)) (by decide)

theorem SocketIdForm.no_newline (h : SocketIdForm socketId) : '\n' ∉ socketId := by
  obtain ⟨a, b, -, -, hdigits, rfl⟩ := h
  intro hmem
  simp only [List.mem_append, List.mem_cons, Char.reduceEq, false_or] at hmem
  exact absurd (hdigits '\n' (List.mem_append.mpr hmem)) (by decide)

theorem SocketIdForm.head (h : SocketIdForm socketId) (rest : Text) :
    (socketId ++ rest).head? ≠ some '\x7b' := by
  obtain ⟨a, b, hne, -, hdigits, rfl⟩ := h
  cases a with
  | nil => exact absurd rfl hne
  | cons c =>
    intro hhead
    obtain rfl : c = '\x7b' := by simpa using hhead
    exact absurd (hdigits '\x7b' (by simp)) (by decide)

/-- The message says which socket and which grant it was signed for. -/
theorem Grant.message_inj {socketId' : Text} {g g' : Grant} (hs : SocketIdForm socketId)
    (hs' : SocketIdForm socketId') (hg : g.Named) (hg' : g'.Named)
    (heq : g.message socketId = g'.message socketId') : socketId = socketId' ∧ g = g' := by
  have htexts := congrArg String.toList heq
  rw [message_toList, message_toList] at htexts
  obtain ⟨hsid, hrest⟩ := Separated.append_sep_inj hs.no_colon hs'.no_colon htexts
  exact ⟨hsid, rest_inj hg hg' hrest⟩

/-! ## What accepts a token -/

section Accepts

variable {A Value : Type} (ad : Adapter A Value) (out : Outside Value)

/-- A connection takes a token for a grant: it joins the channel on it, or signs
in on it. -/
def Scope.Accepts (s : Scope A Value) (token : String) (inp : Inputs Value) : Grant → Prop
  | .channel name => (ChannelInfo.of name).auth ≠ .pub ∧
      ∃ data, s.admitSubscribe ad out name (some token) data inp = .join none
  | .presence name data =>
      ∃ member, s.admitSubscribe ad out name (some token) (some data) inp = .join (some member)
  | .signin userData =>
      s.ctx.user = none ∧ (s.signin ad out token userData inp).ctx.user ≠ none

theorem validateChannelName_named {name : String} {maxLen : Nat}
    (h : validateChannelName name maxLen) : name.toList ≠ [] ∧ ':' ∉ name.toList := by
  simp only [validateChannelName, ne_eq, Bool.and_eq_true, decide_eq_true_eq, List.all_eq_true] at h
  refine ⟨fun hempty => h.1.1 ?_, fun hmem => absurd (h.2 ':' hmem) (by decide)⟩
  rw [String.toList_eq_nil_iff.mp hempty]
  rfl

variable {s : Scope A Value} {token : String} {inp : Inputs Value}

theorem signin_user {userData : String} (hnone : s.ctx.user = none)
    (h : (s.signin ad out token userData inp).ctx.user ≠ none) :
    verify out.hmac s.ctx.app.key s.ctx.app.secret (userMessage s.ctx.socketId userData) token =
      .ok () := by
  by_contra hbad
  refine h ?_
  unfold Scope.signin
  rw [hnone]
  split
  · exact hnone
  · dsimp only
    split
    · exact hnone
    · rename_i hok
      exact absurd hok hbad

/-- An accepted token is the app's key and the signature of the grant's message. -/
theorem Scope.Accepts.splitOnce {g : Grant} (h : s.Accepts ad out token inp g) :
    g.Named ∧ Auth.splitOnce token =
      some (s.ctx.app.key, out.hmac s.ctx.app.secret (g.message s.ctx.socketId)) := by
  rw [← verify_ok_iff out.hmac]
  cases g with
  | channel =>
    obtain ⟨hkind, data, hjoin⟩ := h
    obtain ⟨-, hvalid, hadmitted⟩ := admitSubscribe_join ad out hjoin
    refine ⟨validateChannelName_named hvalid, ?_⟩
    cases hadmitted with
    | pub kind => exact absurd kind hkind
    | priv _ _ given ok =>
      obtain rfl := Option.some.inj given
      exact ok
  | presence _ data =>
    obtain ⟨member, hjoin⟩ := h
    obtain ⟨-, hvalid, hadmitted⟩ := admitSubscribe_join ad out hjoin
    refine ⟨validateChannelName_named hvalid, ?_⟩
    cases hadmitted with
    | presence _ _ _ _ given data ok =>
      obtain rfl := Option.some.inj given
      obtain rfl := Option.some.inj data
      exact ok
  | signin => exact ⟨trivial, signin_user ad out h.1 h.2⟩

end Accepts

/-! ## Separation -/

section Separation

variable {A Value : Type} {ad : Adapter A Value} {out : Outside Value} {app : App}

/-- A signature made under the app's secret serves one message. -/
theorem Scope.Accepts.message_eq (hinj : Function.Injective (out.hmac app.secret))
    {s : Scope A Value} {token key message : String} {inp : Inputs Value} {g : Grant}
    (happ : s.ctx.app = app) (h : s.Accepts ad out token inp g)
    (htoken : Auth.splitOnce token = some (key, out.hmac app.secret message)) :
    g.message s.ctx.socketId = message := by
  have hparts := (h.splitOnce ad out).2.symm.trans htoken
  rw [happ] at hparts
  exact hinj (Prod.mk.inj (Option.some.inj hparts)).2

/-- **Separation.** A token is taken for one socket and one grant, and no
signature of a REST request or of a webhook body serves as a token. -/
theorem token_separation (ad : Adapter A Value) (out : Outside Value) (app : App)
    (hinj : Function.Injective (out.hmac app.secret)) :
    (∀ (s s' : Scope A Value) (token : String) (inp inp' : Inputs Value) (g g' : Grant),
      s.ctx.app = app → s'.ctx.app = app →
      SocketIdForm s.ctx.socketId → SocketIdForm s'.ctx.socketId →
      s.Accepts ad out token inp g → s'.Accepts ad out token inp' g' →
      s.ctx.socketId = s'.ctx.socketId ∧ g = g') ∧
    (∀ (s : Scope A Value) (token key : String) (inp : Inputs Value) (g : Grant)
      (p : Primitives) (req : Auth.Request) (signed : Std.TreeMap String String),
      s.ctx.app = app → SocketIdForm s.ctx.socketId →
      p.hmac = out.hmac → ':' ∉ (p.toUppercase req.method).toList →
      splitOnce token = some (key, req.signature p app.secret signed) →
      ¬ s.Accepts ad out token inp g) ∧
    (∀ (s : Scope A Value) (token key : String) (inp : Inputs Value) (g : Grant)
      (url : String) (timeMs : Nat) (events : List Json) (custom : Std.TreeMap String String),
      s.ctx.app = app → SocketIdForm s.ctx.socketId →
      splitOnce token = some (key, out.hmac app.secret
        (buildSignedDelivery out.hmac url app.key app.secret timeMs events custom).body) →
      ¬ s.Accepts ad out token inp g) := by
  refine ⟨?_, ?_, ?_⟩
  · intro s s' token inp inp' g g' happ happ' hform hform' h h'
    obtain ⟨hnamed', hsplit'⟩ := h'.splitOnce ad out
    rw [happ'] at hsplit'
    exact Grant.message_inj hform hform' (h.splitOnce ad out).1 hnamed'
      (h.message_eq hinj happ hsplit')
  · intro s token key inp g p req signed happ hform hp hmethod htoken h
    rw [Auth.Request.signature, hp] at htoken
    have htext := congrArg String.toList (h.message_eq hinj happ htoken)
    rw [Grant.message_toList, signingString_toList] at htext
    exact Separated.append_sep_ne _ _ (by decide) hform.no_newline hmethod htext
  · intro s token key inp g url timeMs events custom happ hform htoken h
    have htext := congrArg String.toList (h.message_eq hinj happ htoken)
    rw [Grant.message_toList] at htext
    exact hform.head _ ((congrArg List.head? htext).trans (buildSignedDelivery_body_head ..))

end Separation

/-- An adapter that keeps nothing. -/
def emptyAdapter : Adapter Unit Unit where
  subscribe _ _ _ _ := ((), ⟨1, none, true⟩)
  unsubscribe _ _ _ := ((), ⟨0, none, true⟩)
  userCount _ _ := none
  presenceMembers _ _ := []
  resendPresenceAck _ _ _ := ((), none)
  signinUser _ _ _ := ((), true)
  signoutUser _ _ _ := ((), true)

/-- Libraries whose HMAC keeps its message. -/
def plainOutside : Outside Unit where
  hmac _ message := message
  parseChannelData _ := none
  parseUserData raw := some ⟨raw, raw, []⟩
  isNull _ := true
  jsonBytes _ := 0
  fromUtf8 _ := none
  decode _ := none
  encode _ := []

/-- A connection that holds nothing yet. -/
def freshScope : Scope Unit Unit where
  ctx :=
    { app := { id := "a", key := "k", secret := "x" }
      socketId := ['1', '.', '2']
      mailbox := .new 8
      limits := ⟨100, 100, 100, 100, 100, 100, 100, 100⟩
      clustered := false
      capabilities := ⟨true, true, true, true, true, true⟩ }
  adapter := ()

theorem token_separation_private :
    freshScope.Accepts emptyAdapter plainOutside "k:1.2:private-x" {} (.channel "private-x") ∧
      ¬ freshScope.Accepts emptyAdapter plainOutside "k:1.2:private-x" {}
        (.signin "private-x") := by
  have hform : SocketIdForm freshScope.ctx.socketId := by
    refine ⟨['1'], ['2'], by simp, by simp, fun c hc => ?_, rfl⟩
    simp only [List.cons_append, List.nil_append, List.mem_cons, List.not_mem_nil, or_false] at hc
    rcases hc with rfl | rfl <;> rfl
  have haccepts : freshScope.Accepts emptyAdapter plainOutside "k:1.2:private-x" {}
      (.channel "private-x") := ⟨by decide, none, rfl⟩
  refine ⟨haccepts, fun hsignin => ?_⟩
  have hone := (token_separation emptyAdapter plainOutside freshScope.ctx.app fun _ _ h => h).1
    freshScope freshScope _ {} {} _ _ rfl rfl hform hform haccepts hsignin
  exact absurd hone.2 (by decide)

end Pylon.Ws
