import Pylon.Lib.Roster
import Pylon.Redis.Scripts

/-!
# The presence tables hold a roster

Four hashes keep one roster redundantly: who holds each token, a counter per
user, the `user_info` shown, and the join order packed in a string that is
pruned only when somebody reads it. `Represents` says that all four agree
with one abstract `Roster`, and each script is shown to do to the tables
what the roster operation does:

* an accepted join of a token not yet seated is `Roster.join`;
* a leave of a seated token by its own user is `Roster.leave`, and so is any
  reap;
* a leave that finds neither its token nor its user changes nothing.

Tokens and `user_info` texts contain no newline; that is what makes the
packed string readable.
-/

namespace Pylon.Redis

open Pylon.Lib

variable {User : Type} [DecidableEq User]

/-- A connection's seat as the scripts see it. -/
abbrev PresSeat (User : Type) := Seat Text User Text

/-! ## The packed string -/

/-- The `presseats` value for these seats. -/
def packSeats (ss : List (PresSeat User)) : Text :=
  ss.flatMap fun s => s.conn ++ '\n' :: (s.info ++ ['\n'])

/-- Both lines of a seat are lines. -/
def Clean (s : PresSeat User) : Prop := '\n' ∉ s.conn ∧ '\n' ∉ s.info

theorem lines_cons {l : Text} (hl : '\n' ∉ l) (rest : Text) :
    lines (l ++ '\n' :: rest) = l :: lines rest := by
  unfold lines
  rw [List.splitOn_append_cons_self_of_not_mem hl, List.dropLast_cons_of_ne_nil]
  exact List.splitOn_ne_nil _ _

variable {t : Presence User} {ss : List (PresSeat User)} {r : Roster Text User Text} {user : User}
  {token : Text}

omit [DecidableEq User] in
theorem gmatchSeats_packSeats (hss : ∀ s ∈ ss, Clean s) :
    gmatchSeats (packSeats ss) = ss.map fun s => (s.conn, s.info) := by
  induction ss with
  | nil => rfl
  | cons s ss ih =>
    obtain ⟨hconn, hinfo⟩ := hss s List.mem_cons_self
    have hpack : packSeats (s :: ss) =
        s.conn ++ '\n' :: (s.info ++ '\n' :: packSeats ss) := by
      simp [packSeats]
    have ih' := ih fun s' hs' => hss s' (List.mem_cons_of_mem s hs')
    unfold gmatchSeats at ih' ⊢
    rw [hpack, lines_cons hconn, lines_cons hinfo, pairs, ih', List.map_cons]

theorem intercalate_snoc_newline {ls : List Text} (hne : ls ≠ []) :
    ['\n'].intercalate ls ++ ['\n'] = ls.flatMap fun l => l ++ ['\n'] := by
  induction ls with
  | nil => exact absurd rfl hne
  | cons _ ls ih =>
    cases ls with
    | nil => simp
    | cons => simpa [List.intercalate_cons_cons] using ih (by simp)

omit [DecidableEq User] in
theorem concatSeats_map (hne : ss ≠ []) :
    concatSeats (ss.map fun s => (s.conn, s.info)) = packSeats ss := by
  unfold concatSeats
  have hflat : (ss.map fun s => (s.conn, s.info)).flatMap (fun p => [p.1, p.2]) ≠ [] := by
    cases ss with
    | nil => exact absurd rfl hne
    | cons => simp
  rw [intercalate_snoc_newline hflat]
  simp [packSeats, List.flatMap_map, List.flatMap_assoc]

/-! ## One user's rows -/

/-- What the three per-user tables hold for `u` when `u`'s seats are `ss`. -/
structure Rows (t : Presence User) (u : User) (ss : List (PresSeat User)) : Prop where
  users : t.presusers.hget u = if ss = [] then none else some (ss.length : Int)
  info : t.presinfo.hget u = ss.head?.map Seat.info
  seats : t.presseats.hget u = if ss = [] then none else some (packSeats ss)

variable {u : User} {cap : Int}

theorem Rows.conns (h : Rows t u ss) : (t.presusers.hget u).getD 0 = ss.length := by
  rw [h.users]
  cases ss <;> simp

/-- Rows of a user the tables were not written for. -/
theorem Rows.frame {t' : Presence User} (h : Rows t u ss)
    (husers : t'.presusers.hget u = t.presusers.hget u)
    (hinfo : t'.presinfo.hget u = t.presinfo.hget u)
    (hseats : t'.presseats.hget u = t.presseats.hget u) : Rows t' u ss :=
  ⟨husers.trans h.users, hinfo.trans h.info, hseats.trans h.seats⟩

theorem Rows.join (h : Rows t user ss) (hroom : ¬ t.Refuses user cap) (userInfo token : Text) :
    Rows (presenceJoin t user userInfo token cap).1 user (ss ++ [⟨token, user, userInfo⟩]) := by
  have hconns := h.conns
  rw [presenceJoin_accepted hroom]
  refine ⟨?_, ?_, ?_⟩
  · simp [hconns]
  · -- the counter reads one exactly when the user had no seat
    cases ss with
    | nil => simp [hconns]
    | cons =>
      have hne : (t.presusers.hget user).getD 0 + 1 ≠ 1 := by
        rw [hconns, List.length_cons]; omega
      simpa [hne] using h.info
  · have hold : (t.presseats.hget user).getD [] = packSeats ss := by
      rw [h.seats]
      cases ss <;> simp [packSeats]
    simp [hold, packSeats]

/-- `reseat` drops the seats whose token is gone and shows the first that is
left. -/
theorem reseated_rows {live : List (PresSeat User)} (hclean : ∀ s ∈ ss, Clean s)
    (hseats : t.presseats.hget user = some (packSeats ss))
    (hlive : ss.filter (fun s => t.presmembers.hexists s.conn) = live) (hne : live ≠ []) :
    (t.reseated user).presinfo.hget user = live.head?.map Seat.info ∧
      (t.reseated user).presseats.hget user = some (packSeats live) := by
  have hfilter : (gmatchSeats (packSeats ss)).filter (fun p => t.presmembers.hexists p.1) =
      live.map fun s => (s.conn, s.info) := by
    rw [gmatchSeats_packSeats hclean, List.filter_map, ← hlive]
    rfl
  have hconcat := concatSeats_map hne
  unfold Presence.reseated reseat
  rw [hseats]
  dsimp only
  rw [hfilter]
  cases live with
  | nil => exact absurd rfl hne
  | cons =>
    simp only [List.map_cons] at hconcat ⊢
    simp [hconcat]

@[simp] theorem reseated_presusers (t : Presence User) (user : User) :
    (t.reseated user).presusers = t.presusers := rfl

theorem reseated_ne (t : Presence User) (hu : u ≠ user) :
    (t.reseated user).presinfo.hget u = t.presinfo.hget u ∧
      (t.reseated user).presseats.hget u = t.presseats.hget u := by
  unfold Presence.reseated reseat
  cases t.presseats.hget user with
  | none => exact ⟨rfl, rfl⟩
  | some =>
    dsimp only
    split
    · exact ⟨rfl, Hash.hget_hdel_ne _ hu⟩
    · exact ⟨Hash.hget_hset_ne _ _ hu, Hash.hget_hset_ne _ _ hu⟩

theorem Rows.leave {live : List (PresSeat User)} (h : Rows t user ss) (hclean : ∀ s ∈ ss, Clean s)
    (hlive : ss.filter (fun s => (t.presmembers.hdel token).hexists s.conn) = live)
    (hcount : live.length + 1 = ss.length) : Rows (presenceLeave t user token).1 user live := by
  have hconns : (t.presusers.hget user).getD 0 + -1 = live.length := by
    rw [h.conns]; omega
  unfold presenceLeave
  simp only [Hash.hincrby_fst, Hash.hincrby_snd, hconns]
  by_cases hnil : live = []
  · rw [if_pos (by simp [hnil])]
    refine ⟨?_, ?_, ?_⟩ <;> simp [Presence.dropUser, hnil]
  · have hpos : ¬ (live.length : Int) ≤ 0 := by
      have := List.length_pos_iff.mpr hnil
      omega
    rw [if_neg hpos]
    have hss : ss ≠ [] := by
      rintro rfl
      simp at hcount
    have hpacked : t.presseats.hget user = some (packSeats ss) := by rw [h.seats, if_neg hss]
    obtain ⟨hinfo, hseats⟩ := reseated_rows (t := { t with
        presmembers := t.presmembers.hdel token
        presusers := t.presusers.hset user live.length }) hclean hpacked hlive hnil
    refine ⟨?_, hinfo, ?_⟩
    · simp [hnil]
    · rw [hseats, if_neg hnil]

theorem presenceLeave_ne (t : Presence User) (token : Text) (hu : u ≠ user) :
    (presenceLeave t user token).1.presusers.hget u = t.presusers.hget u ∧
      (presenceLeave t user token).1.presinfo.hget u = t.presinfo.hget u ∧
        (presenceLeave t user token).1.presseats.hget u = t.presseats.hget u := by
  refine ⟨?_, ?_⟩
  · rw [presenceLeave_presusers]
    split
    · exact Hash.hget_hdel_ne _ hu
    · exact Hash.hget_hset_ne _ _ hu
  · unfold presenceLeave
    dsimp only
    split
    · exact ⟨Hash.hget_hdel_ne _ hu, Hash.hget_hdel_ne _ hu⟩
    · exact reseated_ne _ hu

/-! ## The whole roster -/

/-- The tables hold exactly the roster `r`. -/
structure Represents (t : Presence User) (r : Roster Text User Text) : Prop where
  clean : ∀ s ∈ r.seats, Clean s
  members : ∀ token, t.presmembers.hget token = r.userOf token
  rows : ∀ u, Rows t u (r.of u)

theorem Represents.empty : Represents (.empty : Presence User) .empty where
  clean := by simp [Roster.empty]
  members := fun token => by simp [Presence.empty]
  rows := fun u => ⟨by simp [Presence.empty], by simp [Presence.empty], by simp [Presence.empty]⟩

section

variable (h : Represents t r)

include h

/-- An accepted join of a token that is not seated. -/
theorem Represents.join {userInfo : Text} (hroom : ¬ t.Refuses user cap)
    (hnew : t.presmembers.hget token = none) (htoken : '\n' ∉ token) (hinfo : '\n' ∉ userInfo) :
    Represents (presenceJoin t user userInfo token cap).1 (r.join token user userInfo) := by
  have hleave : r.leave token = r := Roster.leave_of_userOf_none (h.members token ▸ hnew)
  refine ⟨?_, ?_, ?_⟩
  · intro s hs
    rcases List.mem_append.mp hs with hs | hs
    · exact h.clean s (List.mem_filter.mp hs).1
    · obtain rfl := List.mem_singleton.mp hs
      exact ⟨htoken, hinfo⟩
  · intro token'
    rw [presenceJoin_accepted hroom, Roster.userOf_join, ← h.members]
    exact Hash.hget_hset _ _ _ _
  · intro u
    rw [Roster.of_join, hleave]
    by_cases hu : u = user
    · subst hu
      rw [if_pos rfl]
      exact (h.rows u).join hroom userInfo token
    · rw [if_neg hu, List.append_nil, presenceJoin_accepted hroom]
      refine (h.rows u).frame (Hash.hget_hset_ne _ _ hu) ?_ (Hash.hget_hset_ne _ _ hu)
      split
      · exact Hash.hget_hset_ne _ _ hu
      · rfl

/-- A leave takes the token's seat, and the user's rows with the last one. -/
theorem Represents.leave (hmem : t.presmembers.hget token = some user) :
    Represents (presenceLeave t user token).1 (r.leave token) := by
  have huser : r.userOf token = some user := h.members token ▸ hmem
  refine ⟨?_, ?_, ?_⟩
  · exact fun s hs => h.clean s (List.mem_filter.mp hs).1
  · intro token'
    rw [presenceLeave_presmembers, Hash.hget_hdel, Roster.userOf_leave, h.members]
  · intro u
    by_cases hu : u = user
    · subst hu
      refine (h.rows u).leave (fun s hs => h.clean s (Roster.mem_of.mp hs).1) ?_
        (Roster.count_leave huser)
      -- every seat of the user is in `presmembers`, so only the token's goes
      rw [Roster.of_leave]
      refine List.filter_congr fun s hs => ?_
      have hs' : t.presmembers.hget s.conn = some u := by
        rw [h.members, Roster.userOf_of_mem_of hs]
      by_cases hc : s.conn = token <;> simp [Hash.hexists, Hash.hget_hdel, hc, hs']
    · have hne : r.userOf token ≠ some u := by
        rw [huser]
        exact fun h => hu (Option.some_inj.mp h).symm
      obtain ⟨husers, hinfo, hseats⟩ := presenceLeave_ne t token hu
      rw [Roster.of_leave_ne hne]
      exact (h.rows u).frame husers hinfo hseats

theorem Represents.reap (token : Text) :
    Represents (reapMember t token).1 (r.leave token) := by
  cases hmem : t.presmembers.hget token with
  | none =>
    rw [reapMember_absent hmem, Roster.leave_of_userOf_none (h.members token ▸ hmem)]
    exact h
  | some =>
    rw [reapMember_eq_leave hmem]
    exact h.leave hmem

/-- A leave whose token and user are both gone already (after a vacate, a
refused join or the reap of the user's last seat). -/
theorem Represents.leave_gone (hmem : t.presmembers.hget token = none)
    (huser : t.presusers.hget user = none) : Represents (presenceLeave t user token).1 r := by
  have hnil : r.of user = [] := by
    by_contra hne
    rw [(h.rows user).users, if_neg hne] at huser
    exact absurd huser (by simp)
  refine ⟨h.clean, ?_, ?_⟩
  · intro token'
    rw [presenceLeave_presmembers, Hash.hdel_of_hget_none hmem, h.members]
  · intro u
    by_cases hu : u = user
    · subst hu
      rw [hnil]
      refine ⟨?_, ?_, ?_⟩ <;> simp [presenceLeave, huser, Presence.dropUser]
    · obtain ⟨husers, hinfo, hseats⟩ := presenceLeave_ne t token hu
      exact (h.rows u).frame husers hinfo hseats

/-- The replies count the seats the user ends up with. -/
theorem Represents.join_reply (hroom : ¬ t.Refuses user cap)
    (userInfo token : Text) : (presenceJoin t user userInfo token cap).2 = r.count user + 1 := by
  rw [presenceJoin_accepted hroom]
  rw [(h.rows user).conns, Roster.count]

theorem Represents.leave_reply (hmem : t.presmembers.hget token = some user) :
    (presenceLeave t user token).2 = (r.leave token).count user := by
  have hcount := Roster.count_leave (h.members token ▸ hmem : r.userOf token = some user)
  rw [presenceLeave_reply, (h.rows user).conns]
  unfold Roster.count at hcount ⊢
  omega

end

end Pylon.Redis
