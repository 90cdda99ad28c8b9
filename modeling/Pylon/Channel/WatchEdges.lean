import Pylon.Channel.UserCalls

/-!
# The edges of the user registry

Every interleaving of the calls of `UserCalls`. Between calls a socket is in the
watcher sets of exactly the users recorded for it, and `InStep` says where it is
while a call is under way; an empty set is one that some call is about to remove
(`Pending`). Watcher reports differ from the other edges: `unwatch` reports a user
when its entry goes, `watch` whenever it finds the set empty, so a set emptied and
filled again before its entry goes is reported as filled twice.
-/

namespace Pylon.Channel

open Pylon.Lib

variable {Sid : Type} [DecidableEq Sid]

/-- A socket acts sequentially, signs out only when signed in, and watches only
when it has no watch recorded. -/
def Orderly (s : UserSys Sid) : UserAct Sid → Prop
  | .signin socket _ => s.calls.hget socket = none
  | .signout socket user =>
    s.calls.hget socket = none ∧ socket.2 ∈ Sharded.content id s.users (socket.1, user)
  | .watch socket _ => s.calls.hget socket = none ∧ s.watching.hget socket = none
  | .unwatch socket => s.calls.hget socket = none
  | .advance _ => True

instance (s : UserSys Sid) : ∀ a, Decidable (Orderly s a)
  | .signin _ _ | .unwatch _ => inferInstanceAs (Decidable (_ = none))
  | .signout _ _ | .watch _ _ => inferInstanceAs (Decidable (_ ∧ _))
  | .advance _ => isTrue trivial

/-- `first_for_user` and `last_for_user`. -/
def userEdge (key : Key) (s : UserSys Sid) : UserAct Sid → Option Edge
  | .signin socket user =>
    if (socket.1, user) = key ∧ Sharded.content id s.users key = ∅ then some .up else none
  | .signout socket user =>
    if (socket.1, user) = key ∧ (s.users.hget key).isSome ∧
      (Sharded.content id s.users key).erase socket.2 = ∅ then some .down else none
  | _ => none

/-- The watcher reports of a user. What the `unwatch` within a `watch` reports is
discarded. -/
def watchEdge (key : Key) (s : UserSys Sid) : UserAct Sid → Option Edge
  | .advance socket =>
    match s.calls.hget socket with
    | some (.adding (user :: _) _) =>
      if (socket.1, user) = key ∧ Sharded.content id s.watchers key = ∅ then some .up else none
    | some (.pruning user _ none) =>
      if (socket.1, user) = key ∧ s.watchers.hget key = some ∅ then some .down else none
    | _ => none
  | _ => none

/-! ## Sockets and what they watch -/

/-- The socket is among the user's watchers. -/
def UserSys.Watches (s : UserSys Sid) (socket : Socket Sid) (user : String) : Prop :=
  socket.2 ∈ Sharded.content id s.watchers (socket.1, user)

/-- A socket's place in the watcher sets, given where its call stands: between calls
it is in the sets of the users recorded for it; while it adds, of those added so
far; while it drops, of some still to be dropped. -/
def InStep (call : Option UserCall) (recorded : Option (List String)) (watches : String → Prop) :
    Prop :=
  match call with
  | none | some (.signout _) => ∀ user, watches user ↔ user ∈ recorded.getD []
  | some (.dropping rest after) | some (.pruning _ rest after) =>
    after = none ∧ recorded = none ∧ ∀ user, watches user → user ∈ rest
  | some (.adding rest watched) =>
    recorded = none ∧ ∃ added, watched = added ++ rest ∧ ∀ user, watches user ↔ user ∈ added
  | some (.asking _ watched _) => recorded = none ∧ ∀ user, watches user ↔ user ∈ watched

def Tracked (s : UserSys Sid) : Prop :=
  ∀ socket, InStep (s.calls.hget socket) (s.watching.hget socket) (s.Watches socket)

/-- What a step leaves alone of the other sockets. -/
structure Spares (s s' : UserSys Sid) (socket : Socket Sid) : Prop where
  calls : s'.calls.hget socket = s.calls.hget socket
  watching : s'.watching.hget socket = s.watching.hget socket
  watches : ∀ user, s'.Watches socket user ↔ s.Watches socket user

variable {s : UserSys Sid} {socket : Socket Sid} {a : UserAct Sid}

theorem Spares.inStep {s' : UserSys Sid} (h : Spares s s' socket)
    (hs : InStep (s.calls.hget socket) (s.watching.hget socket) (s.Watches socket)) :
    InStep (s'.calls.hget socket) (s'.watching.hget socket) (s'.Watches socket) := by
  have hwatches : s'.Watches socket = s.Watches socket := by
    funext user
    exact propext (h.watches user)
  rwa [h.calls, h.watching, hwatches]

theorem watchersMove_by (s : UserSys Sid) (a : UserAct Sid) : (watchersMove s a).By a.socket := by
  cases a with
  | advance =>
    simp only [watchersMove]
    split <;> first | exact trivial | rfl
  | _ => exact trivial

theorem spares_step (s : UserSys Sid) (a : UserAct Sid) {other : Socket Sid}
    (hne : other ≠ a.socket) : Spares s (userStep s a) other where
  calls := (accessed s a).calls other hne
  watching := (accessed s a).watching other hne
  watches user := by
    rw [UserSys.Watches, watchers_step]
    exact (watchersMove_by s a).mem_iff hne user

theorem inStep_goOn {next : Option UserCall}
    (h : InStep next (s.watching.hget socket) (s.Watches socket)) :
    InStep ((s.goOn socket next).calls.hget socket) ((s.goOn socket next).watching.hget socket)
      ((s.goOn socket next).Watches socket) := by
  have hwatches : (s.goOn socket next).Watches socket = s.Watches socket := by
    funext user
    rw [UserSys.Watches, UserSys.goOn_watchers]
    rfl
  rwa [UserSys.hget_goOn, if_pos rfl, UserSys.goOn_watching, hwatches]

/-- A call leaves its socket where its next access expects it. -/
theorem inStep_advance (s : UserSys Sid) (socket : Socket Sid) (call : UserCall)
    (h : InStep (some call) (s.watching.hget socket) (s.Watches socket)) :
    InStep ((s.advance socket call).calls.hget socket)
      ((s.advance socket call).watching.hget socket) ((s.advance socket call).Watches socket) := by
  cases call with
  | signout => exact inStep_goOn h
  | dropping rest =>
    obtain ⟨rfl, hnone, hrest⟩ := h
    cases rest with
    | nil =>
      refine inStep_goOn fun user => ?_
      rw [hnone]
      exact ⟨hrest user, fun hin => absurd hin List.not_mem_nil⟩
    | cons user =>
      rw [UserSys.advance]
      split
      next =>
        refine inStep_goOn ⟨rfl, hnone, fun user' hwatches => ?_⟩
        obtain ⟨hold, hother⟩ := (SetMove.mem_drop s.watchers _ _ _ _).mp hwatches
        exact (List.mem_cons.mp (hrest user' hold)).resolve_left fun heq => hother ⟨rfl, heq⟩
      next hmissing =>
        -- a user without an entry has no watchers to drop
        refine inStep_goOn ⟨rfl, hnone, fun user' hwatches => ?_⟩
        refine (List.mem_cons.mp (hrest user' hwatches)).resolve_left ?_
        rintro rfl
        exact hmissing ((Sharded.isSome_iff id s.watchers (socket.1, user')).mpr
          (.inl (Finset.ne_empty_of_mem hwatches)))
  | pruning =>
    obtain ⟨rfl, hnone, hrest⟩ := h
    refine inStep_goOn ⟨rfl, hnone, fun user' hwatches => hrest user' ?_⟩
    exact (congrArg (socket.2 ∈ ·) (SetMove.content_prune _ _ _)).mp hwatches
  | adding rest =>
    obtain ⟨hnone, added, rfl, hadded⟩ := h
    cases rest with
    | nil =>
      refine inStep_goOn ⟨hnone, fun user => ?_⟩
      rw [List.append_nil]
      exact hadded user
    | cons user =>
      refine inStep_goOn ⟨hnone, added ++ [user], by simp, fun user' => ?_⟩
      rw [List.mem_append, List.mem_singleton, ← hadded user']
      refine (SetMove.mem_add s.watchers _ _ _ _).trans ?_
      simp [UserSys.Watches]
  | asking rest =>
    obtain ⟨hnone, hwatched⟩ := h
    cases rest with
    | nil =>
      refine inStep_goOn fun user => ?_
      rw [Hash.hget_hset_self]
      exact hwatched user
    | cons => exact inStep_goOn ⟨hnone, hwatched⟩

theorem tracked_step (s : UserSys Sid) (a : UserAct Sid) (h : Tracked s) (ha : Orderly s a) :
    Tracked (userStep s a) := by
  intro other
  by_cases hne : other ≠ a.socket
  · exact (spares_step s a hne).inStep (h other)
  rw [not_not] at hne
  subst hne
  have hin := h a.socket
  cases a with
  | signin => exact hin
  | signout =>
    rw [userStep]
    split
    · rw [UserAct.socket, ha.1] at hin
      exact inStep_goOn hin
    · exact hin
  | watch =>
    rw [UserAct.socket, ha.1, ha.2] at hin
    rw [userStep, UserSys.takeWatching, ha.2]
    exact inStep_goOn ⟨ha.2, [], rfl, hin⟩
  | unwatch socket =>
    rw [UserAct.socket, show s.calls.hget socket = none from ha] at hin
    rw [userStep, UserSys.takeWatching]
    split
    next watched hwatched =>
      rw [hwatched] at hin
      refine inStep_goOn ⟨rfl, Hash.hget_hdel_self _ _, fun user hwatches => ?_⟩
      exact (hin user).mp hwatches
    next => exact inStep_goOn hin
  | advance socket =>
    rw [userStep]
    split
    next call hcall =>
      rw [UserAct.socket, hcall] at hin
      exact inStep_advance s socket call hin
    next => exact hin

/-! ## Empty sets and the calls that remove them -/

/-- The user whose sign-in set a call is about to remove. -/
def UserCall.leaves : UserCall → Option String
  | .signout user => some user
  | _ => none

/-- The user whose watcher set a call is about to remove. -/
def UserCall.prunes : UserCall → Option String
  | .pruning user _ _ => some user
  | _ => none

/-- Some call is about to remove the set at `key`. -/
def Pending (calls : Hash (Socket Sid) UserCall) (point : UserCall → Option String) (key : Key) :
    Prop :=
  ∃ sid, (calls.hget (key.1, sid)).bind point = some key.2

/-- A step leaves alone what other calls than its own are about to do. -/
theorem pending_step {point : UserCall → Option String} {key : Key} (h : Pending s.calls point key)
    (a : UserAct Sid) (hnot : key.1 = a.socket.1 →
      (s.calls.hget a.socket).bind point ≠ some key.2) :
    Pending (userStep s a).calls point key := by
  obtain ⟨sid, hsid⟩ := h
  refine ⟨sid, ?_⟩
  rw [(spares_step s a _).calls]
  · exact hsid
  · intro heq
    rw [← heq] at hnot
    exact hnot rfl hsid

theorem Orderly.idle (ha : Orderly s a) :
    (∃ socket, a = .advance socket) ∨ s.calls.hget a.socket = none := by
  cases a with
  | signin | unwatch => exact .inr ha
  | signout | watch => exact .inr ha.1
  | advance socket => exact .inl ⟨socket, rfl⟩

/-- The sets of a map whose moves these are: only calls that leave `point` behind
settle one, and a call that empties one comes to `point`. -/
theorem setsAttended_step {sets : Hash Key (Finset Sid)} {point : UserCall → Option String}
    (h : Sharded.Attended id sets (Pending s.calls point)) (ha : Orderly s a) {m : SetMove Sid}
    (hpoint : ∀ socket call user, a = .advance socket → s.calls.hget socket = some call →
      point call = some user → m.settles = some (socket.1, user))
    (hempties : ∀ key ∈ m.empties, (sets.hget key).isSome = true →
      Pending (userStep s a).calls point key) :
    Sharded.Attended id (m.apply sets) (Pending (userStep s a).calls point) := by
  refine SetMove.attended_apply h m (fun key hkey hpending => ?_) hempties
  refine pending_step hpending a fun happ heq => hkey ?_
  obtain ⟨call, hcall, hat⟩ := Option.bind_eq_some_iff.mp heq
  rcases ha.idle with ⟨socket, rfl⟩ | hidle
  · exact (hpoint socket call key.2 rfl hcall hat).trans (congrArg some (Prod.ext happ.symm rfl))
  · rw [hidle] at hcall
    cases hcall

/-- A set is left empty only by a call that has still to remove it. -/
theorem usersAttended_step (s : UserSys Sid) (a : UserAct Sid)
    (h : Sharded.Attended id s.users (Pending s.calls UserCall.leaves)) (ha : Orderly s a) :
    Sharded.Attended id (userStep s a).users (Pending (userStep s a).calls UserCall.leaves) := by
  rw [users_step]
  refine setsAttended_step h ha ?_ ?_
  · rintro socket call user rfl hcall hleaves
    cases call with
    | signout =>
      obtain rfl := Option.some.inj hleaves
      simp only [usersMove, hcall]
      rfl
    | _ => cases hleaves
  · intro key hkey hsome
    cases a with
    | signout socket =>
      obtain rfl := Option.some.inj hkey
      refine ⟨socket.2, ?_⟩
      rw [userStep, if_pos hsome]
      simp [UserCall.leaves]
    | advance =>
      simp only [usersMove] at hkey
      split at hkey <;> cases hkey
    | _ => cases hkey

theorem watchersAttended_step (s : UserSys Sid) (a : UserAct Sid)
    (h : Sharded.Attended id s.watchers (Pending s.calls UserCall.prunes)) (ha : Orderly s a) :
    Sharded.Attended id (userStep s a).watchers
      (Pending (userStep s a).calls UserCall.prunes) := by
  rw [watchers_step]
  refine setsAttended_step h ha ?_ ?_
  · rintro socket call user rfl hcall hprunes
    cases call with
    | pruning =>
      obtain rfl := Option.some.inj hprunes
      simp only [watchersMove, hcall]
      rfl
    | _ => cases hprunes
  · intro key hkey hsome
    cases a with
    | advance socket =>
      simp only [watchersMove] at hkey
      split at hkey
      next user rest after hcall =>
        obtain rfl := Option.some.inj hkey
        refine ⟨socket.2, ?_⟩
        simp [userStep, hcall, UserSys.advance, hsome, UserCall.prunes]
      all_goals cases hkey
    | _ => cases hkey

/-! ## Reports -/

/-- A user's edge is reported by the access that changes the set. -/
theorem userEdge_awards (key : Key) (ha : Orderly s a) :
    Awards (fun s => Sharded.content id s.users key ≠ ∅) s (userStep s a) (userEdge key s a) := by
  -- a step whose move leaves the user's set alone awards nothing
  have hsame : Sharded.content id ((usersMove s a).apply s.users) key =
        Sharded.content id s.users key →
      Awards (fun s => Sharded.content id s.users key ≠ ∅) s (userStep s a) none := by
    intro heq
    show _ ≠ _ ↔ _ ≠ _
    rw [users_step, heq]
  cases a with
  | signin socket user =>
    simp only [userEdge]
    by_cases hkey : (socket.1, user) = key
    · subst hkey
      simp only [true_and]
      refine Sharded.awards_insert Iff.rfl (x := socket.2) ?_
      rw [users_step, usersMove, SetMove.content_add, if_pos rfl]
    · rw [if_neg fun hboth => hkey hboth.1]
      refine hsame ?_
      rw [usersMove, SetMove.content_add, if_neg (Ne.symm hkey)]
  | signout socket user =>
    simp only [userEdge]
    by_cases hkey : (socket.1, user) = key
    · subst hkey
      have hsome := (Sharded.isSome_iff id s.users (socket.1, user)).mpr
        (.inl (Finset.ne_empty_of_mem ha.2))
      simp only [hsome, true_and]
      refine Sharded.awards_erase ha.2 Iff.rfl ?_
      rw [users_step, usersMove, SetMove.content_drop, if_pos rfl]
    · rw [if_neg fun hboth => hkey hboth.1]
      refine hsame ?_
      rw [usersMove, SetMove.content_drop, if_neg (Ne.symm hkey)]
  | watch | unwatch => exact hsame rfl
  | advance =>
    refine hsame ?_
    simp only [usersMove]
    split
    · exact SetMove.content_prune _ _ _
    · rfl

/-- A watcher report is about the entry: `watch` leaves one, `unwatch` reports the
one it removes. -/
theorem watchEdge_awards (key : Key) (h : Tracked s) (a : UserAct Sid) :
    AwardsAgain (fun s => (s.watchers.hget key).isSome = true) s (userStep s a)
      (watchEdge key s a) := by
  have hlevel : ((userStep s a).watchers.hget key).isSome = true ↔
      (((watchersMove s a).apply s.watchers).hget key).isSome = true := by
    rw [watchers_step]
  -- a call that is neither adding nor removing awards nothing and moves no entry
  have hidle : watchersMove s a = .idle → watchEdge key s a = none →
      AwardsAgain (fun s => (s.watchers.hget key).isSome = true) s (userStep s a)
        (watchEdge key s a) := by
    intro hmove hedge
    rw [hmove] at hlevel
    rw [hedge]
    exact hlevel
  cases a with
  | advance socket =>
    cases hcall : s.calls.hget socket with
    | none => exact hidle (by simp [watchersMove, hcall]) (by simp [watchEdge, hcall])
    | some call =>
      cases call with
      | signout => exact hidle (by simp [watchersMove, hcall]) (by simp [watchEdge, hcall])
      | dropping rest =>
        cases rest with
        | nil => exact hidle (by simp [watchersMove, hcall]) (by simp [watchEdge, hcall])
        | cons =>
          simp only [watchersMove, hcall, SetMove.isSome_drop] at hlevel
          simp only [watchEdge, hcall]
          exact hlevel
      | pruning =>
        -- a `watch` finds nothing to drop, so it has no report to discard
        have hin := h socket
        rw [hcall] at hin
        obtain ⟨rfl, -, -⟩ := hin
        simp only [watchersMove, hcall, SetMove.isSome_prune] at hlevel
        simp only [watchEdge, hcall]
        split
        next hgone =>
          have hentry : (s.watchers.hget key).isSome = true := by rw [hgone.2]; rfl
          exact ⟨hentry, fun hafter => (hlevel.mp hafter).2 hgone⟩
        next hkept => exact hlevel.trans (and_iff_left hkept)
      | adding rest =>
        cases rest with
        | nil => exact hidle (by simp [watchersMove, hcall]) (by simp [watchEdge, hcall])
        | cons =>
          simp only [watchersMove, hcall, SetMove.isSome_add] at hlevel
          simp only [watchEdge, hcall]
          split
          next hnew => exact hlevel.mpr (.inl hnew.1)
          next hold =>
            refine hlevel.trans (or_iff_right_of_imp fun hkey => ?_)
            -- not reported, so there was somebody in the set
            exact (Sharded.isSome_iff id s.watchers key).mpr (.inl fun hnone => hold ⟨hkey, hnone⟩)
      | asking =>
        exact hidle (by simp [watchersMove, hcall]) (by simp [watchEdge, hcall])
  | _ => exact hlevel

/-! ## Lists that are not empty -/

/-- The list a call is to record in the end. -/
def UserCall.records : UserCall → Option (List String)
  | .signout _ => none
  | .dropping _ after | .pruning _ _ after => after
  | .adding _ watched | .asking _ watched _ => some watched

/-- No empty list is recorded or about to be. -/
def Listed (s : UserSys Sid) : Prop :=
  ∀ socket, s.watching.hget socket ≠ some [] ∧
    (s.calls.hget socket).bind UserCall.records ≠ some []

/-- `watch` is called with users to watch. -/
def NamesUsers : UserAct Sid → Prop
  | .watch _ watched => watched ≠ []
  | _ => True

theorem listed_goOn {next : Option UserCall} (hwatching : s.watching.hget socket ≠ some [])
    (hnext : next.bind UserCall.records ≠ some []) :
    (s.goOn socket next).watching.hget socket ≠ some [] ∧
      ((s.goOn socket next).calls.hget socket).bind UserCall.records ≠ some [] := by
  rw [UserSys.goOn_watching, UserSys.hget_goOn, if_pos rfl]
  exact ⟨hwatching, hnext⟩

theorem listed_advance {call : UserCall} (hwatching : s.watching.hget socket ≠ some [])
    (hrecords : call.records ≠ some []) :
    (s.advance socket call).watching.hget socket ≠ some [] ∧
      ((s.advance socket call).calls.hget socket).bind UserCall.records ≠ some [] := by
  cases call with
  | signout => exact listed_goOn hwatching (by simp)
  | dropping rest after =>
    cases rest with
    | nil =>
      refine listed_goOn hwatching ?_
      cases after with
      | none => simp
      | some => exact hrecords
    | cons =>
      rw [UserSys.advance]
      split <;> exact listed_goOn hwatching hrecords
  | pruning => exact listed_goOn hwatching hrecords
  | adding rest => cases rest <;> exact listed_goOn hwatching hrecords
  | asking rest =>
    cases rest with
    | nil => exact listed_goOn (by rw [Hash.hget_hset_self]; exact hrecords) (by simp)
    | cons => exact listed_goOn hwatching hrecords

/-- No call comes to record an empty list. -/
theorem listed_step (s : UserSys Sid) (a : UserAct Sid) (h : Listed s)
    (ha : Orderly s a ∧ NamesUsers a) : Listed (userStep s a) := by
  obtain ⟨ha, hnames⟩ := ha
  intro other
  by_cases hne : other ≠ a.socket
  · rw [(spares_step s a hne).watching, (spares_step s a hne).calls]
    exact h other
  rw [not_not] at hne
  subst hne
  obtain ⟨hwatching, hrecords⟩ := h a.socket
  cases a with
  | signin => exact ⟨hwatching, hrecords⟩
  | signout =>
    rw [userStep]
    split
    · exact listed_goOn hwatching (by simp [UserCall.records])
    · exact ⟨hwatching, hrecords⟩
  | watch _ watched =>
    rw [userStep, UserSys.takeWatching, ha.2]
    exact listed_goOn hwatching (by simpa [UserCall.records] using show watched ≠ [] from hnames)
  | unwatch =>
    rw [userStep, UserSys.takeWatching]
    split
    · exact listed_goOn (by simp) (by simp [UserCall.records])
    · exact listed_goOn hwatching (by simp)
  | advance =>
    rw [userStep]
    split
    next call hcall =>
      rw [UserAct.socket, hcall] at hrecords
      exact listed_advance hwatching hrecords
    next => exact ⟨hwatching, hrecords⟩

/-- Over every interleaving in which each socket acts sequentially, signs out only
when signed in and does not watch again before unwatching: the first and last
outcomes of a user alternate; no two reports that a user lost its last watcher
come without one between them that it gained its first; and with no call in
progress, a socket is among a user's watchers exactly when the user is on its list,
no set is empty, no list is unless `watch` was called with an empty one, and a user
has watchers exactly when the last report says so. -/
theorem user_registry_edges (as : List (UserAct Sid))
    (has : Along userStep Orderly (.empty : UserSys Sid) as) :
    (∀ key, Alternates (edges userStep (userEdge key) .empty as)) ∧
    (∀ key, DownsApart (edges userStep (watchEdge key) .empty as)) ∧
    ((run userStep (.empty : UserSys Sid) as).calls = ∅ →
      (∀ app sid user,
        sid ∈ Sharded.content id (run userStep .empty as).watchers (app, user) ↔
          user ∈ ((run userStep (.empty : UserSys Sid) as).watching.hget (app, sid)).getD []) ∧
      (∀ key, (run userStep (.empty : UserSys Sid) as).users.hget key ≠ some ∅ ∧
        (run userStep (.empty : UserSys Sid) as).watchers.hget key ≠ some ∅) ∧
      ((∀ a ∈ as, NamesUsers a) → ∀ socket,
        (run userStep (.empty : UserSys Sid) as).watching.hget socket ≠ some []) ∧
      ∀ key, Sharded.content id (run userStep (.empty : UserSys Sid) as).watchers key ≠ ∅ ↔
        High (edges userStep (watchEdge key) .empty as)) := by
  have htracked : Tracked (.empty : UserSys Sid) := by
    intro socket
    simp [UserSys.empty, InStep, UserSys.Watches]
  have hwatch : ∀ key, DownsApart (edges userStep (watchEdge key) (.empty : UserSys Sid) as) ∧
      (High (edges userStep (watchEdge key) .empty as) ↔
        ((run userStep (.empty : UserSys Sid) as).watchers.hget key).isSome = true) := by
    intro key
    have hstep := fun (s : UserSys Sid) a h ha =>
      And.intro (tracked_step s a h ha) (watchEdge_awards key h a)
    exact downsApart_edges hstep htracked (by simp [UserSys.empty]) has
  refine ⟨fun key => ?_, fun key => (hwatch key).1, fun hquiet => ?_⟩
  · have hstep := fun (s : UserSys Sid) a h ha =>
      And.intro (tracked_step s a h ha) (userEdge_awards key ha)
    exact (alternates_edges hstep htracked (by simp [UserSys.empty]) has).1
  -- with no call in progress nobody is about to remove a set
  have hnobody : ∀ (point : UserCall → Option String) key,
      ¬ Pending (run userStep (.empty : UserSys Sid) as).calls point key := by
    rintro point key ⟨sid, hsid⟩
    rw [hquiet] at hsid
    exact absurd hsid (by simp)
  have husers : ∀ key, ¬ Sharded.Vacant id (run userStep (.empty : UserSys Sid) as).users key :=
    fun key hvacant => hnobody _ key
      (has.invariant usersAttended_step Sharded.Attended.empty key hvacant)
  have hwatchers : ∀ key,
      ¬ Sharded.Vacant id (run userStep (.empty : UserSys Sid) as).watchers key :=
    fun key hvacant => hnobody _ key
      (has.invariant watchersAttended_step Sharded.Attended.empty key hvacant)
  refine ⟨fun app sid user => ?_, fun key => ⟨?_, ?_⟩, fun hnames socket => ?_, fun key => ?_⟩
  · have hin := has.invariant tracked_step htracked (app, sid)
    rw [hquiet] at hin
    exact hin user
  · intro hempty
    exact husers key (by simp [Sharded.Vacant, hempty])
  · intro hempty
    exact hwatchers key (by simp [Sharded.Vacant, hempty])
  · have hlisted : Listed (.empty : UserSys Sid) := fun socket => by simp [UserSys.empty]
    exact ((has.and (Along.of_mem hnames _)).invariant listed_step hlisted socket).1
  · rw [(hwatch key).2]
    exact (Sharded.isSome_iff_of_not_vacant (hwatchers key)).symm

/-- Socket 1 has emptied the watchers of `u` and is about to remove the set when
socket 2 watches `u`: the set stays, and is reported as filled once more. -/
theorem user_registry_edges_refill :
    edges userStep (watchEdge ("a", "u")) (.empty : UserSys Nat)
        [.watch ("a", 1) ["u"], .advance ("a", 1), .advance ("a", 1), .advance ("a", 1),
          .advance ("a", 1), .unwatch ("a", 1), .advance ("a", 1), .watch ("a", 2) ["u"],
          .advance ("a", 2), .advance ("a", 1)] = [.up, .up] ∧
      DownsApart (edges userStep (watchEdge ("a", "u")) (.empty : UserSys Nat)
        [.watch ("a", 1) ["u"], .advance ("a", 1), .advance ("a", 1), .advance ("a", 1),
          .advance ("a", 1), .unwatch ("a", 1), .advance ("a", 1), .watch ("a", 2) ["u"],
          .advance ("a", 2), .advance ("a", 1)]) :=
  ⟨by decide, (user_registry_edges _ (by decide)).2.1 ("a", "u")⟩

end Pylon.Channel
