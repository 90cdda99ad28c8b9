import Pylon.Lib.Hash

/-!
# The channel scripts

The Lua programs Redis runs for one channel or one signed-in user, each as
the function it computes (Redis serializes scripts, so a script is one step).

* **membership** — a hash from member tokens to `expireAt` stamps and an entry
  in an index set: `occ` and `chans` for a channel, `usr` and `users` for a
  user. One program joins both.
* **presence** — a channel's side-tables `presusers` (user → connection
  refcount), `presinfo` (user → roster `user_info`), `presmembers` (token →
  user) and `presseats` (user → that user's connections in join order, packed
  as newline-terminated `token`, `user_info` lines).

Redis strings are `Text`; user ids occur only as hash fields and stay generic.
-/

namespace Pylon.Redis

open Pylon.Lib

/-- A Redis string. -/
abbrev Text := List Char

instance : LawfulBEq Text := inferInstance

/-- An `expireAt` stamp as `parse::<u64>` reads it; `none` does not parse. -/
abbrev Stamp := Option Nat

variable {User : Type} [DecidableEq User]

/-- The presence side-tables of one channel. -/
structure Presence (User : Type) where
  presusers : Hash User Int
  presinfo : Hash User Text
  presmembers : Hash Text User
  presseats : Hash User Text

/-- No table exists. -/
def Presence.empty : Presence User := ⟨∅, ∅, ∅, ∅⟩

/-- A membership hash (`occ` or `usr`) and whether its subject is in the app's
index set (`chans` or `users`). -/
structure Membership where
  stamps : Hash Text Stamp
  indexed : Bool

/-- A subject nobody is a member of. -/
def Membership.empty : Membership := ⟨∅, false⟩

/-- Every key of one channel. -/
structure ChannelKeys (User : Type) extends Membership where
  pres : Presence User

/-- A channel no key exists for. -/
def ChannelKeys.empty : ChannelKeys User := ⟨.empty, .empty⟩

/-! ## `RESEAT_LUA` -/

/-- The lines of `packed` that a newline ends; text after the last newline is
no line. -/
def lines (packed : Text) : List Text :=
  (packed.splitOn '\n').dropLast

/-- Consecutive lines two by two; a last line alone makes no pair. -/
def pairs : List Text → List (Text × Text)
  | token :: presented :: rest => (token, presented) :: pairs rest
  | _ => []

/-- `string.gmatch(packed, '([^\n]*)\n([^\n]*)\n')`. A match starts where the
last one ended and takes the next two lines whole; with fewer than two left
it fails there and at every later position. -/
def gmatchSeats (packed : Text) : List (Text × Text) :=
  pairs (lines packed)

/-- `table.concat(live, '\n') .. '\n'` over the flat list of tokens and
presented values. -/
def concatSeats (live : List (Text × Text)) : Text :=
  ['\n'].intercalate (live.flatMap fun p => [p.1, p.2]) ++ ['\n']

/-- `reseat(members, info, seats, user)`, returning the new `info` and `seats`. -/
def reseat (members : Hash Text User) (info seats : Hash User Text) (user : User) :
    Hash User Text × Hash User Text :=
  match seats.hget user with
  | none => (info, seats)
  | some packed =>
    let live := (gmatchSeats packed).filter fun p => members.hexists p.1
    match live with
    | [] => (info, seats.hdel user)
    | seat :: _ => (info.hset user seat.2, seats.hset user (concatSeats live))

/-! ## Presence scripts -/

/-- The cap refuses `user`: it is set, the user is new and the roster is full. -/
def Presence.Refuses (t : Presence User) (user : User) (cap : Int) : Prop :=
  0 ≤ cap ∧ t.presusers.hexists user = false ∧ cap ≤ t.presusers.hlen

instance (t : Presence User) (user : User) (cap : Int) : Decidable (t.Refuses user cap) :=
  inferInstanceAs (Decidable (_ ∧ _ ∧ _))

/-- `PRESENCE_JOIN_LUA`; `-1` is the cap's refusal. -/
def presenceJoin (t : Presence User) (user : User) (userInfo token : Text) (cap : Int) :
    Presence User × Int :=
  if t.Refuses user cap then (t, -1)
  else
    let presmembers := t.presmembers.hset token user
    let seats := (t.presseats.hget user).getD []
    let presseats := t.presseats.hset user (seats ++ token ++ ['\n'] ++ userInfo ++ ['\n'])
    let conn := (t.presusers.hincrby user 1).2
    let presusers := (t.presusers.hincrby user 1).1
    let presinfo := if conn = 1 then t.presinfo.hset user userInfo else t.presinfo
    (⟨presusers, presinfo, presmembers, presseats⟩, conn)

variable {t : Presence User} {token : Text} {user : User}

theorem presenceJoin_refused {cap : Int} (h : t.Refuses user cap) (userInfo token : Text) :
    presenceJoin t user userInfo token cap = (t, -1) :=
  if_pos h

theorem presenceJoin_accepted {cap : Int} (h : ¬ t.Refuses user cap) (userInfo token : Text) :
    presenceJoin t user userInfo token cap =
      (⟨t.presusers.hset user ((t.presusers.hget user).getD 0 + 1),
        if (t.presusers.hget user).getD 0 + 1 = 1 then t.presinfo.hset user userInfo
        else t.presinfo,
        t.presmembers.hset token user,
        t.presseats.hset user
          ((t.presseats.hget user).getD [] ++ token ++ ['\n'] ++ userInfo ++ ['\n'])⟩,
        (t.presusers.hget user).getD 0 + 1) :=
  if_neg h

/-- Drop a user from the roster: `HDEL` of `presusers`, `presinfo`, `presseats`. -/
def Presence.dropUser (t : Presence User) (user : User) : Presence User :=
  { t with
    presusers := t.presusers.hdel user
    presinfo := t.presinfo.hdel user
    presseats := t.presseats.hdel user }

/-- Run `reseat` on the tables. -/
def Presence.reseated (t : Presence User) (user : User) : Presence User :=
  let r := reseat t.presmembers t.presinfo t.presseats user
  { t with presinfo := r.1, presseats := r.2 }

/-- `PRESENCE_LEAVE_LUA`; returns the remaining refcount. -/
def presenceLeave (t : Presence User) (user : User) (token : Text) : Presence User × Int :=
  let conn := (t.presusers.hincrby user (-1)).2
  let t' : Presence User :=
    { t with
      presmembers := t.presmembers.hdel token
      presusers := (t.presusers.hincrby user (-1)).1 }
  if conn ≤ 0 then (t'.dropUser user, conn) else (t'.reseated user, conn)

@[simp] theorem presenceLeave_reply (t : Presence User) (user : User) (token : Text) :
    (presenceLeave t user token).2 = (t.presusers.hget user).getD 0 - 1 := by
  unfold presenceLeave
  dsimp only
  split <;> rfl

theorem presenceLeave_presusers (t : Presence User) (user : User) (token : Text) :
    (presenceLeave t user token).1.presusers =
      if (t.presusers.hget user).getD 0 ≤ 1 then t.presusers.hdel user
      else t.presusers.hset user ((t.presusers.hget user).getD 0 - 1) := by
  by_cases h : (t.presusers.hget user).getD 0 ≤ 1
  · have h0 : (t.presusers.hget user).getD 0 + -1 ≤ 0 := by omega
    simp [presenceLeave, h, h0, Presence.dropUser]
  · have h0 : ¬ (t.presusers.hget user).getD 0 + -1 ≤ 0 := by omega
    simp [presenceLeave, h, h0, Presence.reseated, Int.sub_eq_add_neg]

@[simp] theorem presenceLeave_presmembers (t : Presence User) (user : User) (token : Text) :
    (presenceLeave t user token).1.presmembers = t.presmembers.hdel token := by
  unfold presenceLeave
  dsimp only
  split <;> rfl

/-- The reply of `REAP_MEMBER_LUA`; `user` is `none` for the empty `user_id`. -/
structure Reaped (User : Type) where
  user : Option User
  remaining : Int
  won : Bool

/-- `REAP_MEMBER_LUA`. -/
def reapMember (t : Presence User) (token : Text) : Presence User × Reaped User :=
  match t.presmembers.hget token with
  | none => (t, ⟨none, 0, false⟩)
  | some user =>
    let t' := { t with presmembers := t.presmembers.hdel token }
    let conn := (t.presusers.hget user).getD 0
    if conn ≤ 1 then (t'.dropUser user, ⟨some user, 0, decide (conn = 1)⟩)
    else
      let left := (t.presusers.hincrby user (-1)).2
      let t'' := { t' with presusers := (t.presusers.hincrby user (-1)).1 }
      (t''.reseated user, ⟨some user, left, false⟩)

theorem reapMember_absent (h : t.presmembers.hget token = none) :
    reapMember t token = (t, ⟨none, 0, false⟩) := by
  unfold reapMember
  rw [h]

/-- A reap of a joined token does to the tables what its user's leave does. -/
theorem reapMember_eq_leave (h : t.presmembers.hget token = some user) :
    (reapMember t token).1 = (presenceLeave t user token).1 := by
  unfold reapMember presenceLeave
  rw [h]
  by_cases hconn : (t.presusers.hget user).getD 0 ≤ 1
  · have h0 : (t.presusers.hget user).getD 0 + -1 ≤ 0 := by omega
    simp [hconn, h0, Presence.dropUser]
  · have h0 : ¬ (t.presusers.hget user).getD 0 + -1 ≤ 0 := by omega
    simp [hconn, h0]

/-- A reap names the removed user; it wins the removal exactly when it takes
the user's counter from one. -/
theorem reapMember_reply (h : t.presmembers.hget token = some user) :
    (reapMember t token).2.user = some user ∧
      ((reapMember t token).2.won = true ↔ (t.presusers.hget user).getD 0 = 1) := by
  unfold reapMember
  rw [h]
  by_cases hconn : (t.presusers.hget user).getD 0 ≤ 1
  · simp [hconn]
  · have hne : (t.presusers.hget user).getD 0 ≠ 1 := by omega
    simp [hconn, hne]

/-! ## Membership scripts -/

/-- `MEMBERSHIP_JOIN_LUA`; returns the new `HLEN`. -/
def membershipJoin (m : Membership) (token : Text) (expireAt : Nat) : Membership × Nat :=
  let stamps := m.stamps.hset token (some expireAt)
  (⟨stamps, true⟩, stamps.hlen)

/-- `UNSUBSCRIBE_LUA`; returns the remaining `HLEN` and the vacate flag. -/
def unsubscribe (m : Membership) (token : Text) : Membership × (Nat × Bool) :=
  let stamps := m.stamps.hdel token
  let count := stamps.hlen
  if count = 0 then (⟨∅, false⟩, (count, m.indexed)) else (⟨stamps, m.indexed⟩, (count, false))

/-- `USER_SIGNOUT_LUA`; returns the remaining `HLEN`. -/
def userSignout (m : Membership) (token : Text) : Membership × Nat :=
  let stamps := m.stamps.hdel token
  let conn := stamps.hlen
  if conn = 0 then (⟨∅, false⟩, conn) else (⟨stamps, m.indexed⟩, conn)

/-- `VACATE_LUA`; returns the vacate flag and the drained roster. -/
def vacate (k : ChannelKeys User) : ChannelKeys User × (Bool × Finset User) :=
  if k.stamps.hlen ≠ 0 then (k, (false, ∅))
  else
    let roster := k.pres.presusers.hkeys
    if k.indexed = false then ({ k with stamps := ∅ }, (false, ∅))
    else (⟨⟨∅, false⟩, .empty⟩, (true, roster))

theorem membershipJoin_count_eq_one {m : Membership} {expireAt : Nat} :
    (membershipJoin m token expireAt).2 = 1 ↔ (m.stamps.hdel token).hlen = 0 := by
  unfold membershipJoin
  rw [Hash.hlen_hset_eq_one, Hash.hlen_eq_zero]
  constructor
  · intro hall
    ext1 token'
    rw [Hash.hget_hdel, Hash.hget_empty]
    split
    · rfl
    next hne =>
      by_contra h
      exact hne (hall token' h)
  · intro hnone token' hget
    by_contra hne
    apply hget
    rw [← Hash.hget_hdel_ne m.stamps hne, hnone, Hash.hget_empty]

/-- An unsubscribe keeps the token out and leaves the others, or clears the
subject: then it won the vacate exactly when it was indexed. -/
theorem unsubscribe_cases (m : Membership) (token : Text) :
    (m.stamps.hdel token = ∅ ∧ unsubscribe m token = (.empty, (0, m.indexed))) ∨
      (m.stamps.hdel token ≠ ∅ ∧ unsubscribe m token =
        (⟨m.stamps.hdel token, m.indexed⟩, ((m.stamps.hdel token).hlen, false))) := by
  by_cases h : m.stamps.hdel token = ∅
  · have hlen : (m.stamps.hdel token).hlen = 0 := Hash.hlen_eq_zero.mpr h
    exact .inl ⟨h, by simp [unsubscribe, hlen, Membership.empty]⟩
  · have hlen : (m.stamps.hdel token).hlen ≠ 0 := fun h0 => h (Hash.hlen_eq_zero.mp h0)
    exact .inr ⟨h, by simp [unsubscribe, hlen]⟩

theorem unsubscribe_shrinks (m : Membership) (token token' : Text) :
    (unsubscribe m token).1.stamps.hget token' = m.stamps.hget token' ∨
      (unsubscribe m token).1.stamps.hget token' = none := by
  rcases unsubscribe_cases m token with ⟨-, heq⟩ | ⟨-, heq⟩
  · right
    rw [heq]
    exact Hash.hget_empty token'
  · rw [heq]
    rw [Hash.hget_hdel]
    split
    · exact .inr rfl
    · exact .inl rfl

theorem userSignout_shrinks (m : Membership) (token token' : Text) :
    (userSignout m token).1.stamps.hget token' = m.stamps.hget token' ∨
      (userSignout m token).1.stamps.hget token' = none := by
  unfold userSignout
  dsimp only
  split
  · exact .inr (Hash.hget_empty token')
  · dsimp only
    rw [Hash.hget_hdel]
    split
    · exact .inr rfl
    · exact .inl rfl

omit [DecidableEq User] in
/-- A winning `VACATE` found no token and the channel indexed, and cleared
every key; any other changes nothing. -/
theorem vacate_cases (k : ChannelKeys User) :
    (k.stamps = ∅ ∧ k.indexed = true ∧ vacate k = (.empty, (true, k.pres.presusers.hkeys))) ∨
      (¬ (k.stamps = ∅ ∧ k.indexed = true) ∧ vacate k = (k, (false, ∅))) := by
  by_cases hstamps : k.stamps = ∅
  · have hlen : k.stamps.hlen = 0 := Hash.hlen_eq_zero.mpr hstamps
    cases hidx : k.indexed with
    | true =>
      left
      refine ⟨hstamps, rfl, ?_⟩
      simp [vacate, hlen, hidx, ChannelKeys.empty, Membership.empty]
    | false =>
      right
      refine ⟨by simp, ?_⟩
      unfold vacate
      rw [if_neg (by simp [hlen]), if_pos hidx, ← hstamps]
  · right
    refine ⟨fun h => hstamps h.1, ?_⟩
    have hlen : k.stamps.hlen ≠ 0 := fun h => hstamps (Hash.hlen_eq_zero.mp h)
    simp [vacate, hlen]

end Pylon.Redis
