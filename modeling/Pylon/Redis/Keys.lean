import Pylon.App.Validate
import Pylon.Lib.Separated

/-!
# Redis keys

`adapter/redis/keys.rs` writes every key as texts joined by colons, with nothing
escaped: `prefix:kind:app` for the sets of an app, `prefix:kind:app:{x}` for what
belongs to a channel or to a user.

* **the kind** has no colon, so it is always found again;
* **a channel name** has no brace, so the last `:{` of the key is where it begins;
* **a user id** is any text and an app id any text that is not blank, so a key of
  a user may be read in two ways: user `x:{u` of app `a` is user `u` of app `a:{x`.

Two apps keep apart exactly as long as neither id is the other one, `:{` and more.
-/

namespace Pylon.Redis

open Lib.Separated Channel Webhook

/-! ## The key functions -/

/-- `Keys`, by its prefix. -/
structure Keys where
  pfx : String

namespace Keys

variable (k : Keys)

/-- The key of a channel or of a user. -/
def hashTagged (kind app subject : String) : String :=
  k.pfx ++ ":" ++ kind ++ ":" ++ app ++ ":\x7b" ++ subject ++ "\x7d"

/-- The key of an app. -/
def perApp (kind app : String) : String := k.pfx ++ ":" ++ kind ++ ":" ++ app

def msg (app channel : String) : String := k.hashTagged "msg" app channel

def occ (app channel : String) : String := k.hashTagged "occ" app channel

def cache (app channel : String) : String := k.hashTagged "cache" app channel

def chans (app : String) : String := k.perApp "chans" app

def presusers (app channel : String) : String := k.hashTagged "presusers" app channel

def presinfo (app channel : String) : String := k.hashTagged "presinfo" app channel

def presmembers (app channel : String) : String := k.hashTagged "presmembers" app channel

def presseats (app channel : String) : String := k.hashTagged "presseats" app channel

def usr (app userId : String) : String := k.hashTagged "usr" app userId

def users (app : String) : String := k.perApp "users" app

def usermsg (app userId : String) : String := k.hashTagged "usermsg" app userId

def watch (app userId : String) : String := k.hashTagged "watch" app userId

end Keys

/-! ## What a key stands for -/

/-- The id of an app that `validate` accepts. -/
abbrev AppId := { id : String // ∃ app : Webhook.App, app.id = id ∧ app.validate = .ok () }

/-- A name that is valid under some length limit. -/
abbrev ChannelName := { name : String // ∃ maxLen, validateChannelName name maxLen = true }

inductive ChannelKind where
  | msg | occ | cache | presusers | presinfo | presmembers | presseats
  deriving DecidableEq, Repr

inductive UserKind where
  | usr | usermsg | watch
  deriving DecidableEq, Repr

inductive AppKind where
  | chans | users
  deriving DecidableEq, Repr

/-- A piece of cluster state or a pub/sub channel. -/
inductive Place where
  | channel (kind : ChannelKind) (owner : AppId) (name : ChannelName)
  | user (kind : UserKind) (owner : AppId) (userId : String)
  | app (kind : AppKind) (owner : AppId)
  deriving DecidableEq

def Place.owner : Place → AppId
  | .channel _ owner _ | .user _ owner _ | .app _ owner => owner

/-- The key a place is kept under. -/
def Keys.key (k : Keys) : Place → String
  | .channel .msg owner name => k.msg owner.1 name.1
  | .channel .occ owner name => k.occ owner.1 name.1
  | .channel .cache owner name => k.cache owner.1 name.1
  | .channel .presusers owner name => k.presusers owner.1 name.1
  | .channel .presinfo owner name => k.presinfo owner.1 name.1
  | .channel .presmembers owner name => k.presmembers owner.1 name.1
  | .channel .presseats owner name => k.presseats owner.1 name.1
  | .user .usr owner userId => k.usr owner.1 userId
  | .user .usermsg owner userId => k.usermsg owner.1 userId
  | .user .watch owner userId => k.watch owner.1 userId
  | .app .chans owner => k.chans owner.1
  | .app .users owner => k.users owner.1

/-! ## Kind and rest -/

inductive Kind where
  | channel (kind : ChannelKind)
  | user (kind : UserKind)
  | app (kind : AppKind)
  deriving DecidableEq, Repr

namespace Kind

/-- What stands between the colons after the prefix. -/
def text : Kind → String
  | channel .msg => "msg"
  | channel .occ => "occ"
  | channel .cache => "cache"
  | channel .presusers => "presusers"
  | channel .presinfo => "presinfo"
  | channel .presmembers => "presmembers"
  | channel .presseats => "presseats"
  | user .usr => "usr"
  | user .usermsg => "usermsg"
  | user .watch => "watch"
  | app .chans => "chans"
  | app .users => "users"

theorem colon_notMem_text (kind : Kind) : ':' ∉ kind.text.toList := by
  rcases kind with kind | kind | kind <;> cases kind <;> decide

theorem text_injective : Function.Injective text := by
  intro kind kind' heq
  rcases kind with kind | kind | kind <;> rcases kind' with kind' | kind' | kind' <;>
    cases kind <;> cases kind' <;> first | rfl | exact absurd heq (by decide)

end Kind

namespace Place

def kind : Place → Kind
  | channel kind _ _ => .channel kind
  | user kind _ _ => .user kind
  | app kind _ => .app kind

/-- What stands after the kind. -/
def rest : Place → List Char
  | channel _ owner name => owner.1.toList ++ ':' :: '\x7b' :: (name.1.toList ++ ['\x7d'])
  | user _ owner userId => owner.1.toList ++ ':' :: '\x7b' :: (userId.toList ++ ['\x7d'])
  | app _ owner => owner.1.toList

end Place

variable (k : Keys)

theorem Keys.toList_hashTagged (kind app subject : String) :
    (k.hashTagged kind app subject).toList =
      k.pfx.toList ++ ':' :: (kind.toList ++ ':' :: (app.toList ++ ':' :: '\x7b' ::
        (subject.toList ++ ['\x7d']))) := by
  simp [hashTagged]

theorem Keys.toList_perApp (kind app : String) :
    (k.perApp kind app).toList = k.pfx.toList ++ ':' :: (kind.toList ++ ':' :: app.toList) := by
  simp [perApp]

theorem Keys.toList_key (p : Place) :
    (k.key p).toList = k.pfx.toList ++ ':' :: (p.kind.text.toList ++ ':' :: p.rest) := by
  cases p with
  | channel kind _ _ | user kind _ _ => cases kind <;> exact k.toList_hashTagged _ _ _
  | app kind _ => cases kind <;> exact k.toList_perApp _ _

/-- Equal keys have the same kind and the same text after it. -/
theorem Keys.key_eq_iff (p q : Place) : k.key p = k.key q ↔ p.kind = q.kind ∧ p.rest = q.rest := by
  rw [← String.toList_inj, k.toList_key, k.toList_key, List.append_cancel_left_eq]
  constructor
  · intro heq
    obtain ⟨hkind, hrest⟩ := append_sep_inj p.kind.colon_notMem_text q.kind.colon_notMem_text
      (List.cons.inj heq).2
    exact ⟨Kind.text_injective (String.toList_inj.mp hkind), hrest⟩
  · rintro ⟨hkind, hrest⟩
    rw [hkind, hrest]

/-! ## Channels and apps keep apart -/

theorem brace_notMem_channelName (name : ChannelName) : '\x7b' ∉ name.1.toList := by
  obtain ⟨maxLen, hvalid⟩ := name.2
  simp only [validateChannelName, Bool.and_eq_true, List.all_eq_true] at hvalid
  intro hmem
  exact absurd (hvalid.2 _ hmem) (by decide)

variable {a b : AppId}

/-- Of the text after the kind of a channel's key, the channel is what follows the
last mark. -/
theorem rest_channel_inj {kind : ChannelKind} {n m : ChannelName}
    (heq : (Place.channel kind a n).rest = (Place.channel kind b m).rest) : a = b ∧ n = m := by
  have hbrace (name : ChannelName) : '\x7b' ∉ name.1.toList ++ ['\x7d'] := by
    simp [brace_notMem_channelName]
  obtain ⟨happ, hname⟩ := append_mark_inj (by decide) (hbrace n) (hbrace m) heq
  exact ⟨Subtype.ext (String.toList_inj.mp happ),
    Subtype.ext (String.toList_inj.mp (List.append_cancel_right hname))⟩

theorem rest_app_inj {kind : AppKind} (heq : (Place.app kind a).rest = (Place.app kind b).rest) :
    a = b :=
  Subtype.ext (String.toList_inj.mp heq)

/-! ## Users -/

/-- `b` is `a`, then `:{` and more. -/
def Extends (a b : AppId) : Prop := ∃ more : String, b.1 = a.1 ++ ":\x7b" ++ more

theorem not_extends_self (a : AppId) : ¬ Extends a a := by
  rintro ⟨more, hmore⟩
  have hlen := congrArg (fun id => id.toList.length) hmore
  simp only [String.toList_append, List.length_append] at hlen
  have hmark : ":\x7b".toList.length = 2 := rfl
  omega

/-- A user's key read in another way is a key of an app that extends the first. -/
theorem rest_user_eq {kind : UserKind} {u v : String}
    (heq : (Place.user kind a u).rest = (Place.user kind b v).rest) :
    (a = b ∧ u = v) ∨ Extends a b ∨ Extends b a := by
  rcases (append_mark_eq_iff (by decide)).mp heq with ⟨happ, huser⟩ | ⟨d, hd, -⟩ | ⟨d, hd, -⟩
  · exact .inl ⟨Subtype.ext (String.toList_inj.mp happ),
      String.toList_inj.mp (List.append_cancel_right huser)⟩
  · exact .inr (.inl ⟨String.ofList d, String.toList_inj.mp (by simp [hd])⟩)
  · exact .inr (.inr ⟨String.ofList d, String.toList_inj.mp (by simp [hd])⟩)

/-- Of an app and one that extends it, each can name a user of the other. -/
theorem Extends.key_eq (kind : UserKind) {more : String} (hmore : b.1 = a.1 ++ ":\x7b" ++ more)
    (userId : String) :
    k.key (.user kind a (more ++ ":\x7b" ++ userId)) = k.key (.user kind b userId) := by
  rw [k.key_eq_iff]
  exact ⟨rfl, by simp [Place.rest, hmore]⟩

/-! ## Isolation -/

/-- A key of one app and a key of the other are equal only for one place. -/
def Isolated (k : Keys) (a b : AppId) : Prop :=
  ∀ p q : Place, p.owner = a → q.owner = b → k.key p = k.key q → p = q

theorem isolated_of_not_extends (hab : ¬ Extends a b) (hba : ¬ Extends b a) : Isolated k a b := by
  rintro p q rfl rfl heq
  obtain ⟨hkind, hrest⟩ := (k.key_eq_iff p q).mp heq
  rcases p with ⟨kind, a, n⟩ | ⟨kind, a, u⟩ | ⟨kind, a⟩ <;>
    rcases q with ⟨kind', b, m⟩ | ⟨kind', b, v⟩ | ⟨kind', b⟩ <;>
    simp only [Place.kind, Kind.channel.injEq, Kind.user.injEq, Kind.app.injEq, reduceCtorEq]
      at hkind <;> subst hkind
  · obtain ⟨rfl, rfl⟩ := rest_channel_inj hrest
    rfl
  · rcases rest_user_eq hrest with ⟨rfl, rfl⟩ | h | h
    · rfl
    · exact absurd h hab
    · exact absurd h hba
  · obtain rfl := rest_app_inj hrest
    rfl

/-- Two accepted apps are kept apart by their keys exactly when neither id is the
other one, `:{` and more. -/
theorem keys_isolated_iff (k : Keys) (a b : AppId) :
    Isolated k a b ↔ ¬ Extends a b ∧ ¬ Extends b a := by
  constructor
  · intro hiso
    refine ⟨fun ⟨more, hmore⟩ => ?_, fun ⟨more, hmore⟩ => ?_⟩
    · have hsame := hiso _ _ rfl rfl (Extends.key_eq k .usr hmore "")
      obtain rfl : a = b := (Place.user.inj hsame).2.1
      exact not_extends_self a ⟨more, hmore⟩
    · have hsame := hiso _ _ rfl rfl (Extends.key_eq k .usr hmore "").symm
      obtain rfl : a = b := (Place.user.inj hsame).2.1
      exact not_extends_self a ⟨more, hmore⟩
  · rintro ⟨hab, hba⟩
    exact isolated_of_not_extends k hab hba

/-- An accepted app with nothing but the id of its own. -/
def plainApp (id : String) : Webhook.App := { id, key := "k", secret := "s", webhooks := [] }

theorem validate_plainApp {id : String} (h : blank id = false) :
    (plainApp id).validate = .ok () := by
  have hkey : ¬ blank "k" := by decide
  have hcolon : ':' ∉ "k".toList := by decide
  have hsecret : ¬ blank "s" := by decide
  rw [App.validate_eq_ok_iff]
  exact ⟨by simpa [plainApp] using h, hkey, hcolon, hsecret, by simp [plainApp]⟩

def shopId : AppId := ⟨"a", plainApp "a", rfl, validate_plainApp (by decide)⟩

def shopXId : AppId := ⟨"a:\x7bx", plainApp "a:\x7bx", rfl, validate_plainApp (by decide)⟩

def otherId : AppId := ⟨"b", plainApp "b", rfl, validate_plainApp (by decide)⟩

theorem keys_isolated_shops : Isolated ⟨"pylon"⟩ shopId otherId := by
  refine (keys_isolated_iff ⟨"pylon"⟩ shopId otherId).mpr ⟨?_, ?_⟩
  · rintro ⟨more, hmore⟩
    simpa [shopId, otherId] using congrArg String.toList hmore
  · rintro ⟨more, hmore⟩
    simpa [shopId, otherId] using congrArg String.toList hmore

/-- User `x:{u` of app `a` and user `u` of app `a:{x` have the same key. -/
theorem user_keys_collide :
    ¬ ((⟨"pylon"⟩ : Keys).key (.user .usr shopId "x:\x7bu") =
        (⟨"pylon"⟩ : Keys).key (.user .usr shopXId "u") →
      Place.user .usr shopId "x:\x7bu" = .user .usr shopXId "u") := by
  intro hinj
  have hmore : shopXId.1 = shopId.1 ++ ":\x7b" ++ "x" := rfl
  have hsame := hinj (Extends.key_eq ⟨"pylon"⟩ .usr hmore "u")
  simp [shopId, shopXId] at hsame

end Pylon.Redis
