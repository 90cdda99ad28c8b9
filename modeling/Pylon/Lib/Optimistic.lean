import Mathlib.Logic.Relation
import Mathlib.Tactic.ByContra

/-!
# Joining before the authority agrees

A client takes a place at once, in a local store, and asks an authority
afterwards. The authority answers its requests in order. When it denies one, the
client is sent a notice and the local store is put back; the client gives the place
up when it reads the notice. Four records are involved, written by three parties
at different times: what is *wanted*, *held*, *granted* and in a *notice*.

`Sound` is what every run keeps whose moves are all `Fair`, and `Sound.settled`
says that the three views agree once nothing is under way. The moves that are
not always fair are those of the denial: a notice that is lost while the client
still wants the place, a place taken back after the client has asked again, and a
notice read after that.
-/

namespace Pylon.Lib

inductive Request where
  | join
  | leave
  deriving DecidableEq

/-- How far the handling of a denied request is. -/
inductive Denial where
  | decided
  | notified
  deriving DecidableEq

/-- One place: what the client holds for true, what the local store and the authority
have on record. `answer` is the authority's last answer to a join. -/
@[ext] structure Place where
  wanted : Bool := false
  held : Bool := false
  granted : Bool := false
  requests : List Request := []
  denial : Option Denial := none
  notice : Bool := false
  answer : Option Bool := none
  deriving DecidableEq

/-- The moves. A client may be refused without asking the authority (`refuse`), a
notice may be lost (`delivered`), another may be behind the one read (`more`), and
the client may stop reading for good (`forget`). -/
inductive Move where
  | join
  | leave
  | refuse (delivered : Bool)
  | read (more : Bool)
  | forget
  | grant
  | deny
  | depart
  | notify (delivered : Bool)
  | takeBack
  deriving DecidableEq

namespace Place

/-- A move that is not possible changes nothing. -/
def step (s : Place) : Move → Place
  | .join =>
    if s.wanted then s
    else { s with wanted := true, held := true, requests := s.requests ++ [.join] }
  | .leave =>
    if s.wanted then
      { s with
        wanted := false
        held := false
        requests := if s.held then s.requests ++ [.leave] else s.requests }
    else s
  | .refuse delivered => { s with notice := s.notice || delivered }
  | .read more => if s.notice then { s with wanted := false, notice := more } else s
  | .forget => { s with notice := false }
  | .grant =>
    match s.denial, s.requests with
    | none, .join :: rest => { s with granted := true, requests := rest, answer := some true }
    | _, _ => s
  | .deny =>
    match s.denial, s.requests with
    | none, .join :: rest =>
      { s with requests := rest, denial := some .decided, answer := some false }
    | _, _ => s
  | .depart =>
    match s.denial, s.requests with
    | none, .leave :: rest => { s with granted := false, requests := rest }
    | _, _ => s
  | .notify delivered =>
    if s.denial = some .decided then
      { s with denial := some .notified, notice := s.notice || delivered }
    else s
  | .takeBack =>
    if s.denial = some .notified then { s with denial := none, held := false } else s

/-- When a move does no harm. -/
def Fair (s : Place) : Move → Prop
  | .read _ => s.notice = true → s.held = false ∨ s.denial ≠ none
  | .forget => s.wanted = false
  | .notify delivered => delivered = true ∨ s.wanted = false
  | .takeBack => .join ∉ s.requests
  | _ => True

/-! ## Requests under way -/

/-- Granted one by one from the record `granted`, the requests end at `held`. -/
def Leads : Bool → List Request → Bool → Prop
  | granted, [], held => granted = held
  | granted, .join :: rest, held => granted = false ∧ Leads true rest held
  | _, .leave :: rest, held => Leads false rest held

variable {requests : List Request} {s : Place} {granted : Bool} {s' : Place}

theorem Leads.join (h : Leads granted requests false) :
    Leads granted (requests ++ [.join]) true := by
  induction requests generalizing granted with
  | nil => exact ⟨h, rfl⟩
  | cons r _ ih =>
    cases r with
    | join => exact ⟨h.1, ih h.2⟩
    | leave => exact @ih false h

theorem Leads.leave {held : Bool} (h : Leads granted requests held) :
    Leads granted (requests ++ [.leave]) false := by
  induction requests generalizing granted with
  | nil => rfl
  | cons r _ ih =>
    cases r with
    | join => exact ⟨h.1, ih h.2⟩
    | leave => exact @ih false h

/-- Requests without a join end at nothing held. -/
theorem leads_of_no_join (h : .join ∉ requests) : Leads false requests false := by
  induction requests with
  | nil => rfl
  | cons r _ ih =>
    cases r with
    | join => exact absurd List.mem_cons_self h
    | leave => exact ih (fun hin => h (List.mem_cons_of_mem _ hin))

theorem Leads.held_of_no_join {held : Bool} (h : Leads granted requests held) (hne : requests ≠ [])
    (hno : .join ∉ requests) : held = false := by
  induction requests generalizing granted with
  | nil => exact absurd rfl hne
  | cons r rest ih =>
    cases r with
    | join => exact absurd List.mem_cons_self hno
    | leave =>
      cases rest with
      | nil => exact Eq.symm h
      | cons =>
        exact @ih false h nofun (fun hin => hno (List.mem_cons_of_mem _ hin))

/-! ## The invariant -/

/-- Nothing is being denied: the requests lead from the record to what is held, and
what is wanted is held unless a notice says otherwise. -/
structure Quiet (s : Place) : Prop where
  leads : Leads s.granted s.requests s.held
  wanted_of_held : s.held = true → s.wanted = true
  noticed : s.wanted = true → s.held = false → s.notice = true ∧ s.requests = []

/-- A denial is under way and the client has not asked again: it has asked to
leave, or it gets to know. -/
structure Denying (s : Place) (d : Denial) : Prop where
  granted : s.granted = false
  left : s.requests ≠ [] → s.wanted = false
  noticed : d = .notified → s.wanted = true → s.notice = true

structure Sound (s : Place) : Prop where
  answer : s.answer = some false → s.granted = false
  quiet : s.denial = none → Quiet s
  denying : ∀ d, s.denial = some d → .join ∉ s.requests → Denying s d

theorem sound_new : Sound {} :=
  ⟨nofun, fun _ => ⟨rfl, nofun, nofun⟩, nofun⟩

/-- Once nothing is under way, the three views agree. -/
theorem Sound.settled (h : Sound s) (hrequests : s.requests = []) (hdenial : s.denial = none)
    (hnotice : s.notice = false) : s.wanted = s.held ∧ s.held = s.granted := by
  obtain ⟨hleads, hwanted, hnoticed⟩ := h.quiet hdenial
  rw [hrequests] at hleads
  refine ⟨?_, Eq.symm hleads⟩
  cases hw : s.wanted with
  | false =>
    cases hh : s.held with
    | false => rfl
    | true => exact absurd (hw.symm.trans (hwanted hh)) nofun
  | true =>
    cases hh : s.held with
    | false => exact absurd (hnotice.symm.trans (hnoticed hw hh).1) nofun
    | true => rfl

/-- A client that does not want the place holds nothing, and asks. -/
theorem Sound.join (h : Sound s) :
    Sound (s.step .join) := by
  simp only [Place.step]
  split
  · exact h
  next hwanted =>
    refine ⟨h.answer, fun hdenial => ?_, fun d hdenial hno => ?_⟩
    · obtain ⟨hleads, hheld, -⟩ := h.quiet hdenial
      have hfree : s.held = false := by
        cases hh : s.held with
        | false => rfl
        | true => exact absurd (hheld hh) hwanted
      rw [hfree] at hleads
      exact ⟨hleads.join, fun _ => rfl, fun _ hfalse => nomatch hfalse⟩
    · exact absurd (List.mem_append_right _ List.mem_cons_self) hno

theorem Sound.leave (h : Sound s) :
    Sound (s.step .leave) := by
  simp only [Place.step]
  split
  · refine ⟨h.answer, fun hdenial => ?_, fun d hdenial hno => ?_⟩
    · obtain ⟨hleads, -, -⟩ := h.quiet hdenial
      refine ⟨?_, nofun, nofun⟩
      cases hh : s.held with
      | true => exact hleads.leave
      | false =>
        rw [hh] at hleads
        exact hleads
    · have hno' : .join ∉ s.requests := by
        intro hin
        apply hno
        show Request.join ∈ if s.held then s.requests ++ [.leave] else s.requests
        split
        · exact List.mem_append_left _ hin
        · exact hin
      exact ⟨(h.denying d hdenial hno').granted, fun _ => rfl, fun _ hfalse => nomatch hfalse⟩
  · exact h

theorem Sound.refuse (h : Sound s) (delivered : Bool) :
    Sound (s.step (.refuse delivered)) := by
  refine ⟨h.answer, fun hdenial => ?_, fun d hdenial hno => ?_⟩
  · obtain ⟨hleads, hheld, hnoticed⟩ := h.quiet hdenial
    refine ⟨hleads, hheld, fun hwanted hfree => ?_⟩
    obtain ⟨hnotice, hrequests⟩ := hnoticed hwanted hfree
    exact ⟨Bool.or_eq_true_iff.mpr (.inl hnotice), hrequests⟩
  · obtain ⟨hgranted, hleft, hnoticed⟩ := h.denying d hdenial hno
    exact ⟨hgranted, hleft, fun hd hwanted => Bool.or_eq_true_iff.mpr (.inl (hnoticed hd hwanted))⟩

/-- A fair reader holds nothing any more, or is about to be put out. -/
theorem Sound.read (h : Sound s) {more : Bool} (hfair : Fair s (.read more)) :
    Sound (s.step (.read more)) := by
  simp only [Place.step]
  split
  next hnotice =>
    refine ⟨h.answer, fun hdenial => ?_, fun d hdenial hno => ?_⟩
    · obtain ⟨hleads, -, -⟩ := h.quiet hdenial
      have hfree : s.held = false := (hfair hnotice).resolve_right (fun hne => hne hdenial)
      exact ⟨hleads, fun hheld => absurd (hfree.symm.trans hheld) nofun, nofun⟩
    · exact ⟨(h.denying d hdenial hno).granted, fun _ => rfl, fun _ hfalse => nomatch hfalse⟩
  · exact h

theorem Sound.forget (h : Sound s) (hfair : Fair s .forget) :
    Sound (s.step .forget) := by
  have hwanted : s.wanted = false := hfair
  refine ⟨h.answer, fun hdenial => ?_, fun d hdenial hno => ?_⟩
  · obtain ⟨hleads, hheld, -⟩ := h.quiet hdenial
    exact ⟨hleads, hheld, fun hw => nomatch hwanted.symm.trans hw⟩
  · obtain ⟨hgranted, hleft, -⟩ := h.denying d hdenial hno
    exact ⟨hgranted, hleft, fun _ hw => nomatch hwanted.symm.trans hw⟩

theorem Sound.grant (h : Sound s) :
    Sound (s.step .grant) := by
  simp only [Place.step]
  split
  next rest hdenial hrequests =>
    obtain ⟨hleads, hheld, hnoticed⟩ := h.quiet hdenial
    rw [hrequests] at hleads
    refine ⟨nofun, fun _ => ⟨hleads.2, hheld, fun hw hf => ?_⟩, fun d hd => ?_⟩
    · exact nomatch hrequests.symm.trans (hnoticed hw hf).2
    · exact nomatch hdenial.symm.trans hd
  · exact h

/-- The client has asked to leave since, or it is going to be notified. -/
theorem Sound.deny (h : Sound s) :
    Sound (s.step .deny) := by
  simp only [Place.step]
  split
  next rest hdenial hrequests =>
    obtain ⟨hleads, -, hnoticed⟩ := h.quiet hdenial
    rw [hrequests] at hleads
    refine ⟨fun _ => hleads.1, nofun, fun d hd hno => ⟨hleads.1, fun hne => ?_, ?_⟩⟩
    · -- the client has asked to leave since
      have hfree : s.held = false := hleads.2.held_of_no_join hne hno
      cases hw : s.wanted with
      | false => rfl
      | true => exact nomatch hrequests.symm.trans (hnoticed hw hfree).2
    · rintro rfl
      cases hd
  · exact h

theorem Sound.depart (h : Sound s) :
    Sound (s.step .depart) := by
  simp only [Place.step]
  split
  next rest hdenial hrequests =>
    obtain ⟨hleads, hheld, hnoticed⟩ := h.quiet hdenial
    rw [hrequests] at hleads
    refine ⟨fun _ => rfl, fun _ => ⟨hleads, hheld, fun hw hf => ?_⟩, fun d hd => ?_⟩
    · exact nomatch hrequests.symm.trans (hnoticed hw hf).2
    · exact nomatch hdenial.symm.trans hd
  · exact h

theorem Sound.notify (h : Sound s) {delivered : Bool} (hfair : Fair s (.notify delivered)) :
    Sound (s.step (.notify delivered)) := by
  simp only [Place.step]
  split
  next hdenial =>
    refine ⟨h.answer, nofun, fun d hd hno => ?_⟩
    obtain ⟨hgranted, hleft, -⟩ := h.denying _ hdenial hno
    refine ⟨hgranted, hleft, fun _ hw => ?_⟩
    rcases hfair with rfl | hwanted
    · exact Bool.or_true _
    · exact nomatch hwanted.symm.trans hw
  · exact h

/-- Nothing was asked for since, so the requests lead nowhere. -/
theorem Sound.takeBack (h : Sound s) (hfair : Fair s .takeBack) :
    Sound (s.step .takeBack) := by
  simp only [Place.step]
  split
  next hdenial =>
    obtain ⟨hgranted, hleft, hnoticed⟩ := h.denying _ hdenial hfair
    refine ⟨h.answer, fun _ => ⟨?_, nofun, fun hw _ => ?_⟩, nofun⟩
    · show Leads s.granted s.requests false
      rw [hgranted]
      exact leads_of_no_join hfair
    · refine ⟨hnoticed rfl hw, ?_⟩
      by_contra hne
      exact nomatch (hleft hne).symm.trans hw
  · exact h

theorem Sound.step (h : Sound s) {m : Move} (hfair : Fair s m) : Sound (s.step m) := by
  cases m with
  | join => exact h.join
  | leave => exact h.leave
  | refuse delivered => exact h.refuse delivered
  | read => exact h.read hfair
  | forget => exact h.forget hfair
  | grant => exact h.grant
  | deny => exact h.deny
  | depart => exact h.depart
  | notify => exact h.notify hfair
  | takeBack => exact h.takeBack hfair

/-- A run of fair moves. -/
abbrev FairRun : Place → Place → Prop :=
  Relation.ReflTransGen fun s s' => ∃ m, Fair s m ∧ s' = s.step m

theorem FairRun.of_eq (h : s' = s) : FairRun s s' := by
  rw [h]

theorem FairRun.move (m : Move) (hfair : Fair s m) (h : s' = s.step m) : FairRun s s' :=
  .single ⟨m, hfair, h⟩

theorem Sound.run (h : Sound s) (hrun : FairRun s s') : Sound s' := by
  induction hrun with
  | refl => exact h
  | tail _ hmove ih =>
    obtain ⟨m, hfair, rfl⟩ := hmove
    exact ih.step hfair

end Place

end Pylon.Lib
