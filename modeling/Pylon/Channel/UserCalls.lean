import Pylon.Channel.Registry
import Pylon.Lib.Sharded

/-!
# The user registry, access by access

Three sharded maps: who is signed in as a user, who watches a user, and what a
socket watches. A `signin` is one access. A `signout` is two, as an unsubscribe of
the channel registry is. A `watch` first drops what the socket watched before,
then makes one access for each user it adds, one for each user it asks to be
online, and records the list; an `unwatch` takes the list out and then makes two
accesses for each user on it. Every call may be interrupted by others between any
two of its accesses. A socket makes one call at a time, so a call in progress is
found by its socket.

What a step does to either map of sets is a `SetMove` (`users_step`, `watchers_step`).
-/

namespace Pylon.Channel

open Pylon.Lib

variable {Sid : Type} [DecidableEq Sid]

/-- A socket of an application. -/
abbrev Socket (Sid : Type) := String × Sid

/-- Where a call in progress stands: its remaining users first. `after` is what the
`watch` around an `unwatch` goes on to record. -/
inductive UserCall
  | signout (user : String)
  | dropping (rest : List String) (after : Option (List String))
  | pruning (user : String) (rest : List String) (after : Option (List String))
  | adding (rest watched : List String)
  | asking (rest watched online : List String)
  deriving DecidableEq

structure UserSys (Sid : Type) where
  users : Hash Key (Finset Sid)
  watchers : Hash Key (Finset Sid)
  watching : Hash (Socket Sid) (List String)
  calls : Hash (Socket Sid) UserCall

namespace UserSys

def empty : UserSys Sid := ⟨∅, ∅, ∅, ∅⟩

/-- The socket's call goes on to a point, or ends. -/
def goOn (s : UserSys Sid) (socket : Socket Sid) : Option UserCall → UserSys Sid
  | some call => { s with calls := s.calls.hset socket call }
  | none => { s with calls := s.calls.hdel socket }

/-- The first access of `unwatch`. -/
def takeWatching (s : UserSys Sid) (socket : Socket Sid) (after : Option (List String)) :
    UserSys Sid :=
  match s.watching.hget socket with
  | some watched =>
    { s with watching := s.watching.hdel socket }.goOn socket (some (.dropping watched after))
  | none => s.goOn socket (after.map fun watched => .adding watched watched)

/-- `is_online`. -/
def isOnline (s : UserSys Sid) (key : Key) : Bool :=
  decide (Sharded.content id s.users key ≠ ∅)

/-- The next access of a call. -/
def advance (s : UserSys Sid) (socket : Socket Sid) : UserCall → UserSys Sid
  | .signout user =>
    { s with users := Sharded.removeIf (· = ∅) s.users (socket.1, user) }.goOn socket none
  | .dropping [] after =>
    s.goOn socket (after.map fun watched => .adding watched watched)
  | .dropping (user :: rest) after =>
    if (s.watchers.hget (socket.1, user)).isSome then
      { s with
        watchers := Sharded.adjust (·.erase socket.2) s.watchers (socket.1, user) }.goOn socket
          (some (.pruning user rest after))
    else s.goOn socket (some (.dropping rest after))
  | .pruning user rest after =>
    { s with watchers := Sharded.removeIf (· = ∅) s.watchers (socket.1, user) }.goOn socket
      (some (.dropping rest after))
  | .adding (user :: rest) watched =>
    { s with
      watchers := Sharded.upsert ∅ (insert socket.2) s.watchers (socket.1, user) }.goOn socket
        (some (.adding rest watched))
  | .adding [] watched => s.goOn socket (some (.asking watched watched []))
  | .asking (user :: rest) watched online =>
    s.goOn socket (some (.asking rest watched
      (if s.isOnline (socket.1, user) then online ++ [user] else online)))
  | .asking [] watched _ =>
    { s with watching := s.watching.hset socket watched }.goOn socket none

end UserSys

/-- One access: the first of a call, or the next of the call of a socket. -/
inductive UserAct (Sid : Type)
  | signin (socket : Socket Sid) (user : String)
  | signout (socket : Socket Sid) (user : String)
  | watch (socket : Socket Sid) (watched : List String)
  | unwatch (socket : Socket Sid)
  | advance (socket : Socket Sid)

def userStep (s : UserSys Sid) : UserAct Sid → UserSys Sid
  | .signin socket user =>
    { s with users := Sharded.upsert ∅ (insert socket.2) s.users (socket.1, user) }
  | .signout socket user =>
    if (s.users.hget (socket.1, user)).isSome then
      { s with
        users := Sharded.adjust (·.erase socket.2) s.users (socket.1, user) }.goOn socket
          (some (.signout user))
    else s
  | .watch socket watched => s.takeWatching socket (some watched)
  | .unwatch socket => s.takeWatching socket none
  | .advance socket =>
    match s.calls.hget socket with
    | some call => s.advance socket call
    | none => s

/-! ## What each access touches -/

namespace UserSys

variable (s : UserSys Sid) (socket : Socket Sid) (next : Option UserCall)

@[simp] theorem goOn_users : (s.goOn socket next).users = s.users := by
  cases next <;> rfl

@[simp] theorem goOn_watchers : (s.goOn socket next).watchers = s.watchers := by
  cases next <;> rfl

@[simp] theorem goOn_watching : (s.goOn socket next).watching = s.watching := by
  cases next <;> rfl

@[simp] theorem hget_goOn (socket' : Socket Sid) :
    (s.goOn socket next).calls.hget socket' =
      if socket' = socket then next else s.calls.hget socket' := by
  cases next with
  | some => exact Hash.hget_hset _ _ _ _
  | none => exact Hash.hget_hdel _ _ _

end UserSys

/-- What an access does to a map of sets. -/
inductive SetMove (Sid : Type)
  | idle
  | add (key : Key) (sid : Sid)
  | drop (key : Key) (sid : Sid)
  | prune (key : Key)

namespace SetMove

def apply : SetMove Sid → Hash Key (Finset Sid) → Hash Key (Finset Sid)
  | idle, sets => sets
  | add key sid, sets => Sharded.upsert ∅ (insert sid) sets key
  | drop key sid, sets => Sharded.adjust (·.erase sid) sets key
  | prune key, sets => Sharded.removeIf (· = ∅) sets key

theorem content_add (sets : Hash Key (Finset Sid)) (sid : Sid) (key key' : Key) :
    Sharded.content id ((add key sid).apply sets) key' =
      if key' = key then insert sid (Sharded.content id sets key)
      else Sharded.content id sets key' :=
  Sharded.content_upsert id rfl (fun _ => rfl) sets key key'

theorem content_drop (sets : Hash Key (Finset Sid)) (sid : Sid) (key key' : Key) :
    Sharded.content id ((drop key sid).apply sets) key' =
      if key' = key then (Sharded.content id sets key).erase sid
      else Sharded.content id sets key' :=
  Sharded.content_adjust (fun _ => rfl) sets key key'

theorem content_prune (sets : Hash Key (Finset Sid)) (key key' : Key) :
    Sharded.content id ((prune key).apply sets) key' = Sharded.content id sets key' :=
  Sharded.content_removeIf (fun _ hempty => of_decide_eq_true hempty) sets key key'

/-! An entry is there after a move if it was there before, was made by it, and was
not found empty by it. -/

theorem isSome_add (sets : Hash Key (Finset Sid)) (sid : Sid) (key key' : Key) :
    (((add key sid).apply sets).hget key').isSome = true ↔
      key = key' ∨ (sets.hget key').isSome = true := by
  rw [apply, Sharded.upsert, Hash.hget_hset]
  by_cases hkey : key = key'
  · simp [hkey]
  · simp [hkey, Ne.symm hkey]

theorem isSome_drop (sets : Hash Key (Finset Sid)) (sid : Sid) (key key' : Key) :
    (((drop key sid).apply sets).hget key').isSome = true ↔ (sets.hget key').isSome = true := by
  rw [apply, Sharded.isSome_adjust]

theorem isSome_prune (sets : Hash Key (Finset Sid)) (key key' : Key) :
    (((prune key).apply sets).hget key').isSome = true ↔
      (sets.hget key').isSome = true ∧ ¬ (key = key' ∧ sets.hget key' = some ∅) := by
  rw [apply, Sharded.removeIf]
  by_cases hkey : key = key'
  · subst hkey
    cases hget : sets.hget key with
    | none => simp [hget]
    | some set => by_cases hempty : set = ∅ <;> simp [hget, hempty]
  · split
    · simp [hkey, Hash.hget_hdel_ne _ (Ne.symm hkey)]
    · simp [hkey]

/-- The set a move leaves without need of anybody: just filled, or just looked at. -/
def settles : SetMove Sid → Option Key
  | add key _ | prune key => some key
  | idle | drop _ _ => none

/-- The set a move may leave empty. -/
def empties : SetMove Sid → Option Key
  | drop key _ => some key
  | idle | add _ _ | prune _ => none

theorem attended_apply {sets : Hash Key (Finset Sid)} {pending pending' : Key → Prop}
    (h : Sharded.Attended id sets pending) (m : SetMove Sid)
    (hpending : ∀ key, m.settles ≠ some key → pending key → pending' key)
    (hnew : ∀ key ∈ m.empties, (sets.hget key).isSome = true → pending' key) :
    Sharded.Attended id (m.apply sets) pending' := by
  cases m with
  | idle => exact h.mono fun key => hpending key (by simp [settles])
  | add _ sid =>
    have hupdate : ∀ set : Finset Sid, id (insert sid set) = insert sid (id set) := fun _ => rfl
    exact h.upsert hupdate fun key' hne => hpending key' (by simpa [settles] using hne.symm)
  | drop key =>
    exact h.adjust (fun key' => hpending key' (by simp [settles])) fun hsome _ => hnew key rfl hsome
  | prune =>
    exact h.removeIf (fun _ => decide_eq_true_iff)
      fun key' hne => hpending key' (by simpa [settles] using hne.symm)

variable (sets : Hash Key (Finset Sid)) (socket socket' : Socket Sid) (user user' : String)

theorem mem_add :
    socket'.2 ∈ Sharded.content id ((add (socket.1, user) socket.2).apply sets)
        (socket'.1, user') ↔
      socket'.2 ∈ Sharded.content id sets (socket'.1, user') ∨ socket' = socket ∧ user' = user := by
  rw [content_add]
  split
  next heq =>
    obtain ⟨happ, rfl⟩ := Prod.mk.inj heq
    rw [Finset.mem_insert, happ, or_comm, Prod.ext_iff]
    simp [happ]
  next hne =>
    refine (or_iff_left ?_).symm
    rintro ⟨rfl, rfl⟩
    exact hne rfl

theorem mem_drop :
    socket'.2 ∈ Sharded.content id ((drop (socket.1, user) socket.2).apply sets)
        (socket'.1, user') ↔
      socket'.2 ∈ Sharded.content id sets (socket'.1, user') ∧
        ¬ (socket' = socket ∧ user' = user) := by
  rw [content_drop]
  split
  next heq =>
    obtain ⟨happ, rfl⟩ := Prod.mk.inj heq
    rw [Finset.mem_erase, happ, and_comm, Prod.ext_iff]
    simp [happ]
  next hne =>
    refine (and_iff_left ?_).symm
    rintro ⟨rfl, rfl⟩
    exact hne rfl

/-- The move concerns no other socket. -/
def By (socket : Socket Sid) : SetMove Sid → Prop
  | add key sid | drop key sid => (key.1, sid) = socket
  | idle | prune _ => True

theorem By.mem_iff {sets : Hash Key (Finset Sid)} {socket other : Socket Sid} {m : SetMove Sid}
    (h : m.By socket) (hne : other ≠ socket) (user : String) :
    other.2 ∈ Sharded.content id (m.apply sets) (other.1, user) ↔
      other.2 ∈ Sharded.content id sets (other.1, user) := by
  cases m with
  | idle => exact Iff.rfl
  | add key sid =>
    obtain rfl : (key.1, sid) = socket := h
    exact (mem_add sets (key.1, sid) other key.2 user).trans (or_iff_left fun h => hne h.1)
  | drop key sid =>
    obtain rfl : (key.1, sid) = socket := h
    exact (mem_drop sets (key.1, sid) other key.2 user).trans (and_iff_left fun h => hne h.1)
  | prune => rw [content_prune]

end SetMove

/-- What a step does to the sign-in sets. -/
def usersMove (s : UserSys Sid) : UserAct Sid → SetMove Sid
  | .signin socket user => .add (socket.1, user) socket.2
  | .signout socket user => .drop (socket.1, user) socket.2
  | .advance socket =>
    match s.calls.hget socket with
    | some (.signout user) => .prune (socket.1, user)
    | _ => .idle
  | .watch _ _ | .unwatch _ => .idle

/-- What a step does to the watcher sets. -/
def watchersMove (s : UserSys Sid) : UserAct Sid → SetMove Sid
  | .advance socket =>
    match s.calls.hget socket with
    | some (.dropping (user :: _) _) => .drop (socket.1, user) socket.2
    | some (.pruning user _ _) => .prune (socket.1, user)
    | some (.adding (user :: _) _) => .add (socket.1, user) socket.2
    | _ => .idle
  | .signin _ _ | .signout _ _ | .watch _ _ | .unwatch _ => .idle

/-- The socket whose access a step is. -/
def UserAct.socket : UserAct Sid → Socket Sid
  | .signin socket _ | .signout socket _ | .watch socket _ | .unwatch socket | .advance socket =>
    socket

/-- What a step does: a move of the sign-in sets, one of the watcher sets, and
nothing to the call and the list of another socket. -/
structure Accessed (s : UserSys Sid) (a : UserAct Sid) (s' : UserSys Sid) : Prop where
  users : s'.users = (usersMove s a).apply s.users
  watchers : s'.watchers = (watchersMove s a).apply s.watchers
  calls : ∀ other, other ≠ a.socket → s'.calls.hget other = s.calls.hget other
  watching : ∀ other, other ≠ a.socket → s'.watching.hget other = s.watching.hget other

/-- A call's next access, by where the call stands. -/
theorem accessed_advance (s : UserSys Sid) (socket : Socket Sid) :
    Accessed s (.advance socket) (userStep s (.advance socket)) := by
  cases hcall : s.calls.hget socket with
  | none =>
    rw [userStep, hcall]
    constructor <;> simp [usersMove, watchersMove, hcall, SetMove.apply]
  | some call =>
    rw [userStep, hcall]
    cases call with
    | dropping rest =>
      cases rest with
      | nil =>
        constructor <;>
          simp +contextual [usersMove, watchersMove, hcall, SetMove.apply, UserSys.advance,
            UserAct.socket]
      | cons user =>
        simp only [UserSys.advance]
        split
        next =>
          constructor <;>
            simp +contextual [usersMove, watchersMove, hcall, SetMove.apply, UserAct.socket]
        next hmissing =>
          -- a user without an entry has nothing to drop
          constructor <;>
            simp +contextual [usersMove, watchersMove, hcall, SetMove.apply, UserAct.socket,
              Sharded.adjust_of_missing hmissing]
    | adding rest watched | asking rest watched online =>
      cases rest <;> constructor <;>
        simp +contextual [usersMove, watchersMove, hcall, SetMove.apply, UserSys.advance,
          UserAct.socket, Hash.hget_hset]
    | _ =>
      constructor <;>
        simp +contextual [usersMove, watchersMove, hcall, SetMove.apply, UserSys.advance,
          UserAct.socket]

theorem accessed (s : UserSys Sid) (a : UserAct Sid) : Accessed s a (userStep s a) := by
  cases a with
  | signin => exact ⟨rfl, rfl, fun _ _ => rfl, fun _ _ => rfl⟩
  | signout =>
    rw [userStep]
    split
    next =>
      constructor <;> simp +contextual [usersMove, watchersMove, SetMove.apply, UserAct.socket]
    next hmissing =>
      constructor <;>
        simp [usersMove, watchersMove, SetMove.apply, Sharded.adjust_of_missing hmissing]
  | watch socket watched | unwatch socket =>
    rw [userStep, UserSys.takeWatching]
    split <;> constructor <;>
      simp +contextual [usersMove, watchersMove, SetMove.apply, UserAct.socket, Hash.hget_hdel]
  | advance socket => exact accessed_advance s socket

theorem users_step (s : UserSys Sid) (a : UserAct Sid) :
    (userStep s a).users = (usersMove s a).apply s.users :=
  (accessed s a).users

theorem watchers_step (s : UserSys Sid) (a : UserAct Sid) :
    (userStep s a).watchers = (watchersMove s a).apply s.watchers :=
  (accessed s a).watchers

end Pylon.Channel
