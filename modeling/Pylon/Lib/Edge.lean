import Pylon.Lib.Trace

/-!
# Alternating edges

A two-level signal (a user is present or not, a channel is occupied or not)
announces its changes as edges. `Alternates` says that a stream of edges is a
possible history of one such signal that starts low: `up`, `down`, `up`, ….

`alternates_edges` is the rule used for every exactly-once result: name the
level in the state, show that a step awards `up` exactly when it raises the
level and `down` exactly when it lowers it, and the whole run alternates.
-/

namespace Pylon.Lib

/-- A change of a two-level signal. -/
inductive Edge
  | up
  | down
  deriving DecidableEq, Repr

/-- The edges strictly alternate, starting with `up`. -/
def Alternates (es : List Edge) : Prop :=
  es.IsChain (· ≠ ·) ∧ es.head? ≠ some .down

instance (es : List Edge) : Decidable (Alternates es) := by
  unfold Alternates; infer_instance

/-- The level after the edges: high exactly when the last one went up. -/
def High (es : List Edge) : Prop :=
  es.getLast? = some .up

instance (es : List Edge) : Decidable (High es) := by
  unfold High; infer_instance

theorem alternates_nil : Alternates [] := by decide

theorem not_high_nil : ¬ High [] := by decide

@[simp] theorem high_snoc (es : List Edge) (e : Edge) : High (es ++ [e]) ↔ e = .up := by
  simp [High]

/-- One more edge keeps the alternation when it leaves the current level. -/
theorem Alternates.snoc {es : List Edge} (h : Alternates es) {e : Edge}
    (he : e = .up ↔ ¬ High es) : Alternates (es ++ [e]) := by
  obtain ⟨hchain, hhead⟩ := h
  refine ⟨?_, ?_⟩
  · rw [List.isChain_append]
    refine ⟨hchain, List.isChain_singleton _, ?_⟩
    intro x hx y hy
    obtain rfl : e = y := by simpa using hy
    have hlast : es.getLast? = some x := hx
    rintro rfl
    cases x with
    | up => exact he.mp rfl hlast
    | down =>
      have : ¬ High es := by rw [High, hlast]; decide
      exact absurd (he.mpr this) (by decide)
  · cases es with
    | nil =>
      have : e = .up := he.mpr not_high_nil
      rw [this]; decide
    | cons => simpa using hhead

variable {σ α : Type*}

/-- The edges a run awarded, in order. -/
def edges (step : σ → α → σ) (award : σ → α → Option Edge) : σ → List α → List Edge :=
  outputs step fun s a => (award s a).toList

/-- What a step may award when `level` is the signal it reports on. -/
def Awards (level : σ → Prop) (s s' : σ) : Option Edge → Prop
  | none => (level s' ↔ level s)
  | some .up => ¬ level s ∧ level s'
  | some .down => level s ∧ ¬ level s'

variable {award : σ → α → Option Edge} {step : σ → α → σ} {ok : σ → α → Prop} {Inv level : σ → Prop}

/-- Induction over a guarded run along which the last edge tells the level: what every step
keeps of the edges so far, all of them have. -/
theorem edges_induction {Good : List Edge → Prop} (hnil : Good [])
    (hinv : ∀ s a, Inv s → ok s a → Inv (step s a))
    (hsnoc : ∀ es s a, Inv s → ok s a → Good es → (High es ↔ level s) →
      Good (es ++ (award s a).toList) ∧
        (High (es ++ (award s a).toList) ↔ level (step s a)))
    {s : σ} (hs : Inv s) (hlow : ¬ level s) {as : List α} (has : Along step ok s as) :
    Good (edges step award s as) ∧
      (High (edges step award s as) ↔ level (run step s as)) := by
  induction as using List.reverseRecOn with
  | nil => exact ⟨hnil, iff_of_false not_high_nil hlow⟩
  | append_singleton as a ih =>
    rw [Along.append] at has
    obtain ⟨has, ha, -⟩ := has
    obtain ⟨hgood, hlev⟩ := ih has
    have hrun : run step s (as ++ [a]) = step (run step s as) a := by
      rw [run_append]; rfl
    have hout : edges step award s (as ++ [a]) =
        edges step award s as ++ (award (run step s as) a).toList := by
      simp [edges, outputs_append, outputs]
    rw [hrun, hout]
    exact hsnoc _ _ a (has.invariant hinv hs) ha hgood hlev

/-- The alternation rule: if every guarded step awards exactly the changes of
`level`, the edges of every guarded run alternate and the last of them tells
the level. -/
theorem alternates_edges
    (hstep : ∀ s a, Inv s → ok s a → Inv (step s a) ∧ Awards level s (step s a) (award s a)) {s : σ}
    (hs : Inv s) (hlow : ¬ level s) {as : List α} (has : Along step ok s as) :
    Alternates (edges step award s as) ∧
      (High (edges step award s as) ↔ level (run step s as)) := by
  refine edges_induction alternates_nil (fun s a h ho => (hstep s a h ho).1) ?_ hs hlow has
  intro es s a hinv ha halt hlev
  have haw := (hstep s a hinv ha).2
  cases hedge : award s a with
  | none =>
    rw [hedge] at haw
    simpa using ⟨halt, hlev.trans haw.symm⟩
  | some e =>
    rw [hedge] at haw
    cases e with
    | up =>
      obtain ⟨hno, hyes⟩ := haw
      refine ⟨halt.snoc (by simp [hlev, hno]), ?_⟩
      simp [hyes]
    | down =>
      obtain ⟨hyes, hno⟩ := haw
      refine ⟨halt.snoc (by simp [hlev, hyes]), ?_⟩
      simp [hno]

/-! ## Edges that may be announced again

A signal may announce `up` while it is up already, and never `down` while it is
down. -/

/-- No `down` follows a `down`. -/
def DownsApart (es : List Edge) : Prop :=
  es.IsChain fun e e' => e = .down → e' = .up

namespace DownsApart

variable {es es' : List Edge}

/-- `up` may always come, `down` only behind an `up` or as the first. -/
theorem snoc (h : DownsApart es) {e : Edge} (he : e = .down → es.getLast? ≠ some .down) :
    DownsApart (es ++ [e]) := by
  refine List.isChain_append.mpr ⟨h, List.isChain_singleton e, ?_⟩
  rintro x hx y hy rfl
  obtain rfl : e = y := by simpa using hy
  cases e with
  | up => rfl
  | down => exact absurd hx (he rfl)

theorem append_ups (h : DownsApart es) (hups : ∀ e ∈ es', e = .up) : DownsApart (es ++ es') := by
  induction es' using List.reverseRecOn with
  | nil => rwa [List.append_nil]
  | append_singleton es' e ih =>
    rw [← List.append_assoc]
    refine (ih fun e he => hups e (List.mem_append_left _ he)).snoc ?_
    rw [hups e (by simp)]
    rintro ⟨⟩

/-- What stands before a `down` does not end with one. -/
theorem getLast_of_down (h : DownsApart (es ++ .down :: es')) : es.getLast? ≠ some .down := by
  intro hlast
  have hpair := (List.isChain_append.mp h).2.2 .down hlast .down rfl rfl
  cases hpair

/-- Between two `down`s there is an `up`. -/
theorem up_mem {y : List Edge} (h : DownsApart (es ++ .down :: (y ++ .down :: es'))) :
    Edge.up ∈ y := by
  have hrest := (List.isChain_append.mp h).2.1
  cases y with
  | nil => exact absurd ((List.isChain_cons_cons.mp hrest).1 rfl) (by decide)
  | cons e =>
    rw [List.cons_append, List.isChain_cons_cons] at hrest
    rw [hrest.1 rfl]
    exact List.mem_cons_self

end DownsApart

/-- What a step may award under that weaker discipline. -/
def AwardsAgain (level : σ → Prop) (s s' : σ) : Option Edge → Prop
  | none => (level s' ↔ level s)
  | some .up => level s'
  | some .down => level s ∧ ¬ level s'

/-- The rule for it: the last edge still tells the level. -/
theorem downsApart_edges
    (hstep : ∀ s a, Inv s → ok s a → Inv (step s a) ∧ AwardsAgain level s (step s a) (award s a))
    {s : σ} (hs : Inv s) (hlow : ¬ level s) {as : List α} (has : Along step ok s as) :
    DownsApart (edges step award s as) ∧
      (High (edges step award s as) ↔ level (run step s as)) := by
  refine edges_induction List.isChain_nil (fun s a h ho => (hstep s a h ho).1) ?_ hs hlow has
  intro es s a hinv ha hapart hlev
  have haw := (hstep s a hinv ha).2
  cases hedge : award s a with
  | none =>
    rw [hedge] at haw
    simpa using ⟨hapart, hlev.trans haw.symm⟩
  | some e =>
    rw [hedge] at haw
    constructor
    · -- a `down` comes while the level is up, so behind an `up`
      refine DownsApart.snoc hapart ?_
      rintro rfl hlast
      have hhigh : High es := hlev.mpr haw.1
      rw [High, hlast] at hhigh
      cases hhigh
    · cases e with
      | up => exact iff_of_true ((high_snoc _ _).mpr rfl) haw
      | down => exact iff_of_false (by simp) haw.2

end Pylon.Lib
