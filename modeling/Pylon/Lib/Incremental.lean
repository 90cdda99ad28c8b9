import Mathlib.Data.List.Basic

/-!
# Incremental parsers

A stream arrives in pieces; a parser looks at what has arrived so far and takes
an item off the front, waits for more, or finds the stream malformed. An
`Incremental` parser is one whose answers stand when more arrives.

`Cuts p buf items error rest` is the loop that takes items until the parser waits
or faults. It gives every buffer one answer (`Cuts.total`, `Cuts.unique`), and a
buffer that grows keeps what was cut off it: `Cuts.append` behind a wait,
`Cuts.append_fault` behind a fault.
-/

namespace Pylon.Lib

variable {β φ ε : Type*}

/-- What a parser says of a buffer. -/
inductive Answer (β φ ε : Type*) where
  | item (x : φ) (rest : List β)
  | wait
  | fault (e : ε)

/-- A parser whose answers stand when more arrives. -/
structure Incremental (β φ ε : Type*) where
  parse : List β → Answer β φ ε
  consumes : ∀ {buf x rest}, parse buf = .item x rest → rest.length < buf.length
  item_append : ∀ {buf x rest} (ext : List β), parse buf = .item x rest →
    parse (buf ++ ext) = .item x (rest ++ ext)
  fault_append : ∀ {buf e} (ext : List β), parse buf = .fault e →
    parse (buf ++ ext) = .fault e

/-- The items on a buffer, the fault behind them if there is one, and the rest. -/
inductive Cuts (p : Incremental β φ ε) : List β → List φ → Option ε → List β → Prop
  | wait {buf} : p.parse buf = .wait → Cuts p buf [] none buf
  | fault {buf e} : p.parse buf = .fault e → Cuts p buf [] (some e) buf
  | item {buf x rest items error tail} : p.parse buf = .item x rest →
      Cuts p rest items error tail → Cuts p buf (x :: items) error tail

namespace Cuts

variable {p : Incremental β φ ε} {buf tail : List β} {items : List φ} {error : Option ε}

theorem total (p : Incremental β φ ε) (buf : List β) :
    ∃ items error tail, Cuts p buf items error tail := by
  induction hn : buf.length using Nat.strongRecOn generalizing buf with
  | ind _ ih =>
    cases hparse : p.parse buf with
    | wait => exact ⟨[], none, buf, .wait hparse⟩
    | fault e => exact ⟨[], some e, buf, .fault hparse⟩
    | item x rest =>
      have hless := p.consumes hparse
      obtain ⟨items, error, tail, hrest⟩ := ih rest.length (hn ▸ hless) rest rfl
      exact ⟨x :: items, error, tail, .item hparse hrest⟩

/-- A buffer is cut in one way. -/
theorem unique (h : Cuts p buf items error tail) {items' : List φ} {error' : Option ε}
    {tail' : List β} (h' : Cuts p buf items' error' tail') :
    items = items' ∧ error = error' ∧ tail = tail' := by
  induction h generalizing items' error' tail' with
  | wait hparse =>
    cases h' with
    | wait => exact ⟨rfl, rfl, rfl⟩
    | fault hparse' | item hparse' => rw [hparse] at hparse'; cases hparse'
  | fault hparse =>
    cases h' with
    | wait hparse' | item hparse' => rw [hparse] at hparse'; cases hparse'
    | fault hparse' =>
      rw [hparse] at hparse'
      cases hparse'
      exact ⟨rfl, rfl, rfl⟩
  | item hparse _ ih =>
    cases h' with
    | wait hparse' | fault hparse' => rw [hparse] at hparse'; cases hparse'
    | item hparse' hrest' =>
      rw [hparse] at hparse'
      cases hparse'
      obtain ⟨rfl, rfl, rfl⟩ := ih hrest'
      exact ⟨rfl, rfl, rfl⟩

/-- The parser waits on what a cut without a fault leaves. -/
theorem tail_waits (h : Cuts p buf items none tail) : p.parse tail = .wait := by
  generalize hnone : (none : Option ε) = error at h
  induction h with
  | wait hparse => exact hparse
  | fault => cases hnone
  | item _ _ ih => exact ih hnone

/-- What arrives behind a wait continues it. -/
theorem append (h : Cuts p buf items none tail) {ext tail' : List β} {items' : List φ}
    {error' : Option ε} (h' : Cuts p (tail ++ ext) items' error' tail') :
    Cuts p (buf ++ ext) (items ++ items') error' tail' := by
  generalize hnone : (none : Option ε) = error at h
  induction h with
  | wait => exact h'
  | fault => cases hnone
  | item hparse _ ih => exact .item (p.item_append ext hparse) (ih h' hnone)

end Cuts

end Pylon.Lib
