import Mathlib.Data.List.Basic
import Mathlib.Data.List.Nodup

/-!
# Rosters

What a presence list is for: connections come and go, each belongs to a
user, each presented some data when it came. A user is there while one of
their connections is, and shows the data their oldest surviving connection
presented.

A `Roster` is the list of seats in join order, no connection seated twice;
everything else (`count`, `userOf`) is read off that list. An
implementation that keeps counters, indexes or packed strings is compared
with it.
-/

namespace Pylon.Lib

/-- A connection, whose it is, and what it presented. -/
structure Seat (κ υ ι : Type*) where
  conn : κ
  user : υ
  info : ι
  deriving DecidableEq

/-- The seats in join order; a connection has at most one. -/
structure Roster (κ υ ι : Type*) where
  seats : List (Seat κ υ ι)
  nodup : (seats.map Seat.conn).Nodup

namespace Roster

variable {κ υ ι : Type*} {r : Roster κ υ ι} {s : Seat κ υ ι} {c : κ}

@[ext] theorem ext_seats {r' : Roster κ υ ι} (h : r.seats = r'.seats) : r = r' := by
  cases r; cases r'; cases h; rfl

/-- Nobody. -/
def empty : Roster κ υ ι := ⟨[], List.nodup_nil⟩

/-- Keep the seats `p` holds of. -/
def restrict (r : Roster κ υ ι) (p : κ → Bool) : Roster κ υ ι :=
  ⟨r.seats.filter fun s => p s.conn,
    r.nodup.sublist (List.filter_sublist.map Seat.conn)⟩

theorem eq_of_mem {s' : Seat κ υ ι} (hs : s ∈ r.seats) (hs' : s' ∈ r.seats)
    (hc : s.conn = s'.conn) :
    s = s' :=
  List.inj_on_of_nodup_map r.nodup hs hs' hc

variable [DecidableEq κ]

/-- Give up the seat of `c`, if it has one. -/
def leave (r : Roster κ υ ι) (c : κ) : Roster κ υ ι :=
  r.restrict fun c' => c' ≠ c

/-- Seat `c` last; an earlier seat of `c` is given up. -/
def join (r : Roster κ υ ι) (c : κ) (u : υ) (i : ι) : Roster κ υ ι where
  seats := (r.leave c).seats ++ [⟨c, u, i⟩]
  nodup := by
    rw [List.map_append, List.nodup_append]
    refine ⟨(r.leave c).nodup, List.nodup_singleton _, ?_⟩
    intro a ha b hb
    obtain ⟨s, hs, rfl⟩ := List.mem_map.mp ha
    obtain rfl : b = c := by simpa using hb
    simpa using (List.mem_filter.mp hs).2

/-- The seat of `c`. -/
def seatOf (r : Roster κ υ ι) (c : κ) : Option (Seat κ υ ι) :=
  r.seats.find? fun s => s.conn = c

/-- Whose seat `c` has. -/
def userOf (r : Roster κ υ ι) (c : κ) : Option υ :=
  (r.seatOf c).map Seat.user

/-! ## Connections -/

theorem seatOf_eq_some : r.seatOf c = some s ↔ s ∈ r.seats ∧ s.conn = c := by
  unfold seatOf
  constructor
  · intro hs
    exact ⟨List.mem_of_find?_eq_some hs, by simpa using List.find?_some hs⟩
  · rintro ⟨hs, hc⟩
    cases hfind : r.seats.find? (fun s => s.conn = c) with
    | none => exact absurd hc (by simpa using List.find?_eq_none.mp hfind s hs)
    | some s' =>
      have hc' : s'.conn = c := by simpa using List.find?_some hfind
      rw [eq_of_mem hs (List.mem_of_find?_eq_some hfind) (hc.trans hc'.symm)]

variable {u : υ}

theorem userOf_eq_some : r.userOf c = some u ↔ ∃ s ∈ r.seats, s.conn = c ∧ s.user = u := by
  simp only [userOf, Option.map_eq_some_iff, seatOf_eq_some, and_assoc]

theorem userOf_eq_none : r.userOf c = none ↔ ∀ s ∈ r.seats, s.conn ≠ c := by
  simp [userOf, seatOf]

@[simp] theorem userOf_empty (c : κ) : (empty : Roster κ υ ι).userOf c = none := rfl

theorem seatOf_leave (r : Roster κ υ ι) (c c' : κ) :
    (r.leave c).seatOf c' = if c' = c then none else r.seatOf c' := by
  unfold seatOf leave restrict
  rw [List.find?_filter]
  split
  next hc =>
    rw [List.find?_eq_none]
    intro s _
    by_cases hs : s.conn = c' <;> simp [hs, hc]
  next hc =>
    congr 1
    funext s
    by_cases hs : s.conn = c' <;> simp [hs, hc]

theorem seatOf_join (r : Roster κ υ ι) (c c' : κ) (u : υ) (i : ι) :
    (r.join c u i).seatOf c' = if c' = c then some ⟨c, u, i⟩ else r.seatOf c' := by
  have hleave := seatOf_leave r c c'
  unfold seatOf at hleave ⊢
  unfold join
  rw [List.find?_append, hleave]
  by_cases hc : c' = c
  · simp [hc]
  · simp [hc, Ne.symm hc]

theorem userOf_leave (r : Roster κ υ ι) (c c' : κ) :
    (r.leave c).userOf c' = if c' = c then none else r.userOf c' := by
  rw [userOf, seatOf_leave]
  split <;> rfl

theorem userOf_join (r : Roster κ υ ι) (c c' : κ) (u : υ) (i : ι) :
    (r.join c u i).userOf c' = if c' = c then some u else r.userOf c' := by
  rw [userOf, seatOf_join]
  split <;> rfl

theorem leave_of_userOf_none (h : r.userOf c = none) : r.leave c = r := by
  ext1
  refine List.filter_eq_self.mpr fun s hs => ?_
  simpa using userOf_eq_none.mp h s hs

theorem restrict_join {p p' : κ → Bool} (hc : p' c = true) (hne : ∀ c', c' ≠ c → p' c' = p c')
    (u : υ) (i : ι) : (r.join c u i).restrict p' = (r.restrict p).join c u i := by
  ext1
  simp only [restrict, join, leave, List.filter_append, List.filter_filter]
  congr 1
  · refine List.filter_congr fun s _ => ?_
    by_cases hs : s.conn = c
    · simp [hs]
    · simp [hs, hne s.conn hs]
  · simp [hc]

theorem restrict_leave {p p' : κ → Bool} (hc : p' c = false) (hne : ∀ c', c' ≠ c → p' c' = p c') :
    r.restrict p' = (r.restrict p).leave c := by
  ext1
  simp only [restrict, leave, List.filter_filter]
  refine List.filter_congr fun s _ => ?_
  by_cases hs : s.conn = c
  · simp [hs, hc]
  · simp [hs, hne s.conn hs]

/-! ## Users -/

variable [DecidableEq υ]

/-- The seats of `u`, in join order. -/
def of (r : Roster κ υ ι) (u : υ) : List (Seat κ υ ι) := r.seats.filter fun s => s.user = u

/-- How many seats `u` has. -/
def count (r : Roster κ υ ι) (u : υ) : Nat := (r.of u).length

omit [DecidableEq κ] in
theorem mem_of : s ∈ r.of u ↔ s ∈ r.seats ∧ s.user = u := by
  simp [of]

theorem seatOf_of_mem_of (h : s ∈ r.of u) : r.seatOf s.conn = some s :=
  seatOf_eq_some.mpr ⟨(mem_of.mp h).1, rfl⟩

theorem userOf_of_mem_of (h : s ∈ r.of u) : r.userOf s.conn = some u :=
  userOf_eq_some.mpr ⟨s, (mem_of.mp h).1, rfl, (mem_of.mp h).2⟩

omit [DecidableEq κ] in
@[simp] theorem of_empty (u : υ) : (empty : Roster κ υ ι).of u = [] := rfl

omit [DecidableEq κ] in
theorem of_restrict (r : Roster κ υ ι) (p : κ → Bool) (u : υ) :
    (r.restrict p).of u = (r.of u).filter fun s => p s.conn := by
  simp only [of, restrict, List.filter_filter, Bool.and_comm]

theorem of_leave (r : Roster κ υ ι) (c : κ) (u : υ) :
    (r.leave c).of u = (r.of u).filter fun s => s.conn ≠ c :=
  of_restrict r _ u

theorem of_leave_ne (h : r.userOf c ≠ some u) : (r.leave c).of u = r.of u := by
  rw [of_leave, List.filter_eq_self]
  intro s hs
  have : s.conn ≠ c := fun hc => h (hc ▸ userOf_of_mem_of hs)
  simpa using this

theorem of_join (r : Roster κ υ ι) (c : κ) (u v : υ) (i : ι) :
    (r.join c u i).of v = (r.leave c).of v ++ if v = u then [⟨c, u, i⟩] else [] := by
  by_cases h : v = u
  · simp [of, join, h]
  · simp [of, join, h, Ne.symm h]

theorem count_leave (h : r.userOf c = some u) : (r.leave c).count u + 1 = r.count u := by
  obtain ⟨s, hs, hc, hu⟩ := userOf_eq_some.mp h
  have hmem : s ∈ r.of u := mem_of.mpr ⟨hs, hu⟩
  have hnodup : ((r.of u).map Seat.conn).Nodup :=
    r.nodup.sublist (List.filter_sublist.map Seat.conn)
  -- exactly one of the user's seats is the connection's
  have hone : ((r.of u).filter fun s => s.conn = c).length = 1 := by
    have := List.count_eq_one_of_mem hnodup (List.mem_map_of_mem hmem)
    rw [List.count_eq_countP, List.countP_map, hc] at this
    rw [← List.countP_eq_length_filter, ← this]
    refine List.countP_congr fun s _ => ?_
    simp
  have hsplit := List.length_eq_length_filter_add (l := r.of u) (fun s => s.conn ≠ c)
  rw [count, count, of_leave, hsplit]
  simp only [decide_not, Bool.not_not]
  rw [hone]

/-! ## Encoded data -/

section MapInfo

variable {ι' : Type*} (f : ι → ι')

/-- The same roster with the presented data encoded. -/
def mapInfo (r : Roster κ υ ι) : Roster κ υ ι' where
  seats := r.seats.map fun s => ⟨s.conn, s.user, f s.info⟩
  nodup := by rw [List.map_map]; exact r.nodup

variable (r : Roster κ υ ι)

omit [DecidableEq υ] in
theorem userOf_mapInfo (c : κ) : (r.mapInfo f).userOf c = r.userOf c := by
  simp only [userOf, seatOf, mapInfo, List.find?_map, Option.map_map]
  rfl

omit [DecidableEq κ] in
theorem of_mapInfo (u : υ) :
    (r.mapInfo f).of u = (r.of u).map fun s => ⟨s.conn, s.user, f s.info⟩ := by
  simp only [of, mapInfo, List.filter_map]
  rfl

omit [DecidableEq υ] in
theorem mapInfo_leave (c : κ) : (r.leave c).mapInfo f = (r.mapInfo f).leave c := by
  ext1
  simp only [mapInfo, leave, restrict, List.filter_map]
  rfl

omit [DecidableEq υ] in
theorem mapInfo_join (c : κ) (u : υ) (i : ι) :
    (r.join c u i).mapInfo f = (r.mapInfo f).join c u (f i) := by
  ext1
  have hleave := congrArg Roster.seats (mapInfo_leave f r c)
  simp only [mapInfo] at hleave
  simp only [join, ← hleave, mapInfo, List.map_append, List.map_cons, List.map_nil]

end MapInfo

end Roster

end Pylon.Lib
