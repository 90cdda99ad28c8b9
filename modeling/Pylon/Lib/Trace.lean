import Mathlib.Data.List.Basic
import Mathlib.Data.List.Chain

/-!
# Runs of a transition function

A system is a step function `σ → α → σ`; a run is a list of actions folded
over it. `Along step ok s as` is the side condition a theorem about runs carries, and
`Along.invariant` the one induction every safety theorem uses.
-/

namespace Pylon.Lib

variable {σ α β : Type*}

/-- The state reached from `s` by the actions `as`, in order. -/
def run (step : σ → α → σ) (s : σ) (as : List α) : σ :=
  as.foldl step s

@[simp] theorem run_nil (step : σ → α → σ) (s : σ) : run step s [] = s := rfl

@[simp] theorem run_cons (step : σ → α → σ) (s : σ) (a : α) (as : List α) :
    run step s (a :: as) = run step (step s a) as := rfl

theorem run_append (step : σ → α → σ) (s : σ) (as bs : List α) :
    run step s (as ++ bs) = run step (run step s as) bs :=
  List.foldl_append

/-- Every action of `as` meets `ok` in the state it is taken from. -/
def Along (step : σ → α → σ) (ok : σ → α → Prop) : σ → List α → Prop
  | _, [] => True
  | s, a :: as => ok s a ∧ Along step ok (step s a) as

instance Along.decidable (step : σ → α → σ) (ok : σ → α → Prop)
    [∀ s a, Decidable (ok s a)] : ∀ s as, Decidable (Along step ok s as)
  | _, [] => isTrue trivial
  | s, a :: as => @instDecidableAnd _ _ _ (Along.decidable step ok (step s a) as)

theorem Along.append {step : σ → α → σ} {ok : σ → α → Prop} {s : σ} {as bs : List α} :
    Along step ok s (as ++ bs) ↔
      Along step ok s as ∧ Along step ok (run step s as) bs := by
  induction as generalizing s with
  | nil => simp [Along]
  | cons _ _ ih => simp [Along, ih, and_assoc]

theorem Along.of_forall {step : σ → α → σ} {ok : σ → α → Prop} (h : ∀ s a, ok s a)
    (s : σ) (as : List α) : Along step ok s as := by
  induction as generalizing s with
  | nil => trivial
  | cons a _ ih => exact ⟨h s a, ih _⟩

theorem Along.of_mem {step : σ → α → σ} {p : α → Prop} {as : List α} (h : ∀ a ∈ as, p a)
    (s : σ) : Along step (fun _ a => p a) s as := by
  induction as generalizing s with
  | nil => trivial
  | cons a _ ih =>
    exact ⟨h a List.mem_cons_self, ih (fun b hb => h b (List.mem_cons_of_mem a hb)) _⟩

theorem Along.and {step : σ → α → σ} {ok ok' : σ → α → Prop} {s : σ} {as : List α}
    (h : Along step ok s as) (h' : Along step ok' s as) :
    Along step (fun s a => ok s a ∧ ok' s a) s as := by
  induction as generalizing s with
  | nil => trivial
  | cons _ _ ih => exact ⟨⟨h.1, h'.1⟩, ih h.2 h'.2⟩

/-- Two conditions that agree wherever a guarded run passes. -/
theorem Along.congr {step : σ → α → σ} {ok P Q : σ → α → Prop} {s : σ} {as : List α}
    (has : Along step ok s as) (h : ∀ s a, ok s a → (P s a ↔ Q s a)) :
    Along step P s as ↔ Along step Q s as := by
  induction as generalizing s with
  | nil => exact Iff.rfl
  | cons a _ ih => exact and_congr (h s a has.1) (ih has.2)

/-- The invariant rule: what every guarded step preserves, every guarded run
preserves. -/
theorem Along.invariant {step : σ → α → σ} {ok : σ → α → Prop} {s : σ} {as : List α}
    (has : Along step ok s as) {Inv : σ → Prop}
    (hstep : ∀ s a, Inv s → ok s a → Inv (step s a)) (hs : Inv s) :
    Inv (run step s as) := by
  induction as generalizing s with
  | nil => exact hs
  | cons a _ ih => exact ih has.2 (hstep s a hs has.1)

/-- One step of a guarded run leads from `P` to `Q`, when no step before it ends `P`
and none after it ends `Q`. -/
theorem Along.leads {step : σ → α → σ} {ok : σ → α → Prop} {s : σ} {a : α} {as : List α}
    (has : Along step ok s as) (ha : a ∈ as) {P Q : σ → Prop}
    (hbefore : ∀ s b, P s → ok s b → P (step s b)) (hleads : ∀ s, P s → ok s a → Q (step s a))
    (hafter : ∀ s b, Q s → ok s b → Q (step s b)) (hs : P s) : Q (run step s as) := by
  induction as generalizing s with
  | nil => exact absurd ha List.not_mem_nil
  | cons b _ ih =>
    rcases List.mem_cons.mp ha with rfl | hlater
    · exact has.2.invariant hafter (hleads s hs has.1)
    · exact ih has.2 hlater (hbefore s b hs has.1)

/-- What an invariant gives at one guarded step holds at every step of the run. -/
theorem Along.of_invariant {step : σ → α → σ} {ok ok' : σ → α → Prop} {s : σ} {as : List α}
    (has : Along step ok s as) {Inv : σ → Prop}
    (hstep : ∀ s a, Inv s → ok s a → Inv (step s a) ∧ ok' s a) (hs : Inv s) :
    Along step ok' s as := by
  induction as generalizing s with
  | nil => trivial
  | cons a _ ih =>
    obtain ⟨hnext, hok⟩ := hstep s a hs has.1
    exact ⟨hok, ih has.2 hnext⟩

/-- When `ok` tells exactly whether a step keeps the invariant, the guarded runs
are those with the invariant in every state. `Base` is what every step keeps. -/
theorem Along.iff_forall_prefix {step : σ → α → σ} {ok : σ → α → Prop} {Base Inv : σ → Prop}
    (hbase : ∀ s a, Base s → Base (step s a))
    (hstep : ∀ s a, Base s → Inv s → (Inv (step s a) ↔ ok s a)) {s : σ} (hs : Base s)
    (hinv : Inv s) (as : List α) :
    (∀ k, Inv (run step s (as.take k))) ↔ Along step ok s as := by
  induction as generalizing s with
  | nil => exact ⟨fun _ => trivial, fun _ k => by rwa [List.take_nil]⟩
  | cons a _ ih =>
    constructor
    · intro hall
      have hnext : Inv (step s a) := hall 1
      refine ⟨(hstep s a hs hinv).mp hnext, (ih (hbase s a hs) hnext).mp ?_⟩
      intro k
      exact hall (k + 1)
    · rintro ⟨hok, hrest⟩ k
      have hnext : Inv (step s a) := (hstep s a hs hinv).mpr hok
      cases k with
      | zero => exact hinv
      | succ k => exact (ih (hbase s a hs) hnext).mpr hrest k

/-- The invariant rule for a run with no side condition. -/
theorem run_invariant {step : σ → α → σ} {Inv : σ → Prop}
    (hstep : ∀ s a, Inv s → Inv (step s a)) {s : σ} (hs : Inv s) (as : List α) :
    Inv (run step s as) := by
  have has : Along step (fun _ _ => True) s as := Along.of_forall (fun _ _ => trivial) s as
  exact has.invariant (fun s a h _ => hstep s a h) hs

/-- What one step of a run establishes and no step undoes holds at its end. -/
theorem run_establishes {step : σ → α → σ} {P : σ → Prop} {a : α} {as : List α} (ha : a ∈ as)
    (hest : ∀ s, P (step s a)) (hkeep : ∀ s a', P s → P (step s a')) (s : σ) :
    P (run step s as) := by
  induction as generalizing s with
  | nil => exact absurd ha List.not_mem_nil
  | cons b bs ih =>
    rcases List.mem_cons.mp ha with rfl | hlater
    · exact run_invariant hkeep (hest s) bs
    · exact ih hlater (step s b)

/-- What the steps of a run emitted, in order. -/
def outputs (step : σ → α → σ) (out : σ → α → List β) : σ → List α → List β
  | _, [] => []
  | s, a :: as => out s a ++ outputs step out (step s a) as

theorem outputs_append (step : σ → α → σ) (out : σ → α → List β) (s : σ) (as bs : List α) :
    outputs step out s (as ++ bs) =
      outputs step out s as ++ outputs step out (run step s as) bs := by
  induction as generalizing s with
  | nil => rfl
  | cons _ _ ih => simp [outputs, ih]

/-- Two systems emit the same along a run exactly as long as every step meets
`ok`, when `ok` tells whether one step emits the same and keeps them related. -/
theorem outputs_eq_iff {τ : Type*} {stepA : σ → α → σ} {stepB : τ → α → τ}
    {outA : σ → α → List β} {outB : τ → α → List β} {ok : τ → α → Prop} (R : σ → τ → Prop)
    (hlen : ∀ s t a, (outA s a).length = (outB t a).length)
    (hout : ∀ s t a, R s t → (outA s a = outB t a ↔ ok t a))
    (hstep : ∀ s t a, R s t → ok t a → R (stepA s a) (stepB t a))
    {s : σ} {t : τ} (h : R s t) (as : List α) :
    outputs stepA outA s as = outputs stepB outB t as ↔ Along stepB ok t as := by
  induction as generalizing s t with
  | nil => exact ⟨fun _ => trivial, fun _ => rfl⟩
  | cons a as ih =>
    constructor
    · intro heq
      obtain ⟨hhead, htail⟩ := List.append_inj heq (hlen s t a)
      have hok := (hout s t a h).mp hhead
      exact ⟨hok, (ih (hstep s t a h hok)).mp htail⟩
    · rintro ⟨hok, hrest⟩
      show outA s a ++ outputs stepA outA (stepA s a) as =
        outB t a ++ outputs stepB outB (stepB t a) as
      rw [(hout s t a h).mpr hok, (ih (hstep s t a h hok)).mpr hrest]

end Pylon.Lib
