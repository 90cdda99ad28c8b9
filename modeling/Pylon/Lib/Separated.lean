import Mathlib.Data.List.Basic

/-!
# Texts built with separators

A record of fields is often written as one text, the fields joined by separator
characters and nothing escaped. Reading the text back finds the fields again only
as long as none of them contains a separator.

* **one separator** — `cut` splits at the first one; two texts `a ++ sep :: b`
  whose first parts hold as many separators agree only when their parts do
  (`append_sep_inj_of_count`), and never with a text that meets another separator
  first (`append_sep_ne`);
* **a mark of two characters** — `a ++ x :: y :: b` may be cut at another mark as
  well, and then one first part is the other one, a mark and more
  (`append_mark_eq_iff`);
* **key-value lists** — `join` writes `k=v&k=v…`, `entries` reads it back: pair by
  pair in any case (`entries_join`), and as the pairs themselves when they are clean.
-/

namespace Pylon.Lib.Separated

variable {α : Type*} [DecidableEq α]

/-! ## One separator -/

/-- Split at the first separator; a text without one is all key. -/
def cut (sep : α) (l : List α) : List α × List α :=
  (l.takeWhile (· ≠ sep), (l.dropWhile (· ≠ sep)).drop 1)

variable {a b b' : List α}

theorem cut_append {sep : α} (ha : sep ∉ a) (b : List α) : cut sep (a ++ sep :: b) = (a, b) := by
  induction a with
  | nil => simp [cut]
  | cons x _ ih =>
    simp only [List.mem_cons, not_or] at ha
    have hx : x ≠ sep := fun h => ha.1 h.symm
    simpa [cut, hx] using ih ha.2

variable {a' : List α} {x y : α}

/-- Two equal texts are both cut at the separator that as many others stand before. -/
theorem append_sep_inj_of_count {sep : α} (hcount : a.count sep = a'.count sep)
    (heq : a ++ sep :: b = a' ++ sep :: b') : a = a' ∧ b = b' := by
  induction a generalizing a' with
  | nil =>
    cases a' with
    | nil => exact ⟨rfl, (List.cons.inj heq).2⟩
    | cons =>
      obtain rfl := (List.cons.inj heq).1
      simp at hcount
  | cons x _ ih =>
    cases a' with
    | nil =>
      obtain rfl := (List.cons.inj heq).1
      simp at hcount
    | cons y a' =>
      obtain ⟨rfl, htail⟩ := List.cons.inj heq
      rw [List.count_cons, List.count_cons, Nat.add_right_cancel_iff] at hcount
      obtain ⟨rfl, rfl⟩ := ih hcount htail
      exact ⟨rfl, rfl⟩

/-- The first separator is where two equal texts are both cut. -/
theorem append_sep_inj {sep : α} (ha : sep ∉ a) (ha' : sep ∉ a')
    (heq : a ++ sep :: b = a' ++ sep :: b') : a = a' ∧ b = b' := by
  refine append_sep_inj_of_count ?_ heq
  rw [List.count_eq_zero.mpr ha, List.count_eq_zero.mpr ha']

section

omit [DecidableEq α]

/-- Two texts whose first separators differ are different. -/
theorem append_sep_ne {c : List α} (b d : List α) (hxy : x ≠ y) (ha : y ∉ a) (hc : x ∉ c) :
    a ++ x :: b ≠ c ++ y :: d := by
  induction a generalizing c with
  | nil =>
    cases c with
    | nil => simp [hxy]
    | cons =>
      intro heq
      exact hc (List.mem_cons.mpr (.inl (List.cons.inj heq).1))
  | cons _ _ ih =>
    simp only [List.mem_cons, not_or] at ha
    cases c with
    | nil =>
      intro heq
      exact ha.1 (List.cons.inj heq).1.symm
    | cons =>
      simp only [List.mem_cons, not_or] at hc
      intro heq
      exact ih ha.2 hc.2 (List.cons.inj heq).2

/-! ## A mark of two characters -/

/-- The second text is cut at a later mark of the first. -/
theorem mark_later (hxy : x ≠ y) {c : List α} (heq : x :: y :: b = c ++ x :: y :: b') :
    (c = [] ∧ b = b') ∨ ∃ d, c = x :: y :: d ∧ b = d ++ x :: y :: b' := by
  match c, heq with
  | [], heq => exact .inl ⟨rfl, by simpa using heq⟩
  | [z], heq =>
    obtain ⟨-, hyx, -⟩ : x = z ∧ y = x ∧ b = y :: b' := by simpa using heq
    exact absurd hyx.symm hxy
  | z :: w :: d, heq =>
    obtain ⟨rfl, rfl, hb⟩ : x = z ∧ y = w ∧ b = d ++ x :: y :: b' := by simpa using heq
    exact .inr ⟨d, rfl, hb⟩

/-- Equal texts are cut at the same mark, or one of them at a later mark of the
other. -/
theorem append_mark_eq_iff (hxy : x ≠ y) :
    a ++ x :: y :: b = a' ++ x :: y :: b' ↔
      (a = a' ∧ b = b') ∨
      (∃ d, a' = a ++ x :: y :: d ∧ b = d ++ x :: y :: b') ∨
      ∃ d, a = a' ++ x :: y :: d ∧ b' = d ++ x :: y :: b := by
  constructor
  · intro heq
    rcases List.append_eq_append_iff.mp heq with ⟨c, rfl, hc⟩ | ⟨c, rfl, hc⟩
    · rcases mark_later hxy hc with ⟨rfl, rfl⟩ | ⟨d, rfl, hb⟩
      · exact .inl ⟨by simp, rfl⟩
      · exact .inr (.inl ⟨d, rfl, hb⟩)
    · rcases mark_later hxy hc with ⟨rfl, rfl⟩ | ⟨d, rfl, hb⟩
      · exact .inl ⟨by simp, rfl⟩
      · exact .inr (.inr ⟨d, rfl, hb⟩)
  · rintro (⟨rfl, rfl⟩ | ⟨d, rfl, rfl⟩ | ⟨d, rfl, rfl⟩) <;> simp

/-- Where the second parts have no mark, the first parts are found again. -/
theorem append_mark_inj (hxy : x ≠ y) (hb : y ∉ b) (hb' : y ∉ b')
    (heq : a ++ x :: y :: b = a' ++ x :: y :: b') : a = a' ∧ b = b' := by
  rcases (append_mark_eq_iff hxy).mp heq with h | ⟨d, -, rfl⟩ | ⟨d, -, rfl⟩
  · exact h
  · simp at hb
  · simp at hb'

end

/-! ## Key-value lists -/

variable (amp eq : α)

/-- `key=value`. -/
def pair (p : List α × List α) : List α := p.1 ++ eq :: p.2

/-- The pairs, joined. -/
def join (ps : List (List α × List α)) : List α := [amp].intercalate (ps.map (pair eq))

/-- The pairs a text reads as. -/
def entries (text : List α) : List (List α × List α) :=
  if text = [] then [] else (text.splitOn amp).map (cut eq)

/-- No separator stands where it would be taken for one. -/
structure Clean (p : List α × List α) : Prop where
  key_eq : eq ∉ p.1
  key_amp : amp ∉ p.1
  value_amp : amp ∉ p.2

variable {amp eq}

omit [DecidableEq α] in
theorem pair_ne_nil (p : List α × List α) : pair eq p ≠ [] := by
  simp [pair]

omit [DecidableEq α] in
theorem join_cons_cons (p q : List α × List α) (ps : List (List α × List α)) :
    join amp eq (p :: q :: ps) = pair eq p ++ amp :: join amp eq (q :: ps) := by
  simp [join, List.intercalate]

omit [DecidableEq α] in
theorem join_singleton (p : List α × List α) : join amp eq [p] = pair eq p := by
  simp [join, List.intercalate]

theorem splitOn_append_cons (l l' : List α) :
    (l ++ amp :: l').splitOn amp = l.splitOn amp ++ l'.splitOn amp :=
  List.splitOnP_append_cons l l' (beq_self_eq_true amp)

/-- A joined text reads as its pairs do, one after the other. -/
theorem entries_join (ps : List (List α × List α)) :
    entries amp eq (join amp eq ps) = ps.flatMap fun p => entries amp eq (pair eq p) := by
  induction ps with
  | nil => simp [join, entries]
  | cons p ps ih =>
    cases ps with
    | nil => simp [join_singleton]
    | cons q ps =>
      have hrest : join amp eq (q :: ps) ≠ [] := by
        cases ps with
        | nil =>
          rw [join_singleton]
          exact pair_ne_nil q
        | cons => simp [join_cons_cons]
      rw [List.flatMap_cons, ← ih, join_cons_cons, entries, if_neg (by simp), entries,
        if_neg (pair_ne_nil p), entries, if_neg hrest, ← List.map_append, splitOn_append_cons]

/-- A clean pair reads as itself. -/
theorem entries_pair (hne : amp ≠ eq) {p : List α × List α} (hp : Clean amp eq p) :
    entries amp eq (pair eq p) = [p] := by
  have hamp : amp ∉ pair eq p := by
    simp [pair, hp.key_amp, hp.value_amp, hne]
  have hsplit : (pair eq p).splitOn amp = [pair eq p] := by
    simpa using List.splitOn_intercalate amp
      (fun l (hl : l ∈ [pair eq p]) => List.mem_singleton.mp hl ▸ hamp) (by simp)
  rw [entries, if_neg (pair_ne_nil p), hsplit, List.map_singleton, pair, cut_append hp.key_eq]

/-- Whatever its value holds, a pair with a clean key reads as one with that key first. -/
theorem exists_mem_entries_pair (hne : amp ≠ eq) {k : List α} (heq : eq ∉ k) (hamp : amp ∉ k)
    (v : List α) : ∃ v', (k, v') ∈ entries amp eq (pair eq (k, v)) := by
  by_cases hv : amp ∈ v
  · obtain ⟨v', rest, rfl, hv'⟩ := List.eq_append_cons_of_mem hv
    have hclean : Clean amp eq (k, v') := ⟨heq, hamp, hv'⟩
    have hfirst := entries_pair hne hclean
    rw [entries, if_neg (pair_ne_nil _)] at hfirst
    have htext : pair eq (k, v' ++ amp :: rest) = pair eq (k, v') ++ amp :: rest := by
      simp [pair]
    refine ⟨v', ?_⟩
    rw [htext, entries, if_neg (by simp), splitOn_append_cons, List.map_append, hfirst]
    exact List.mem_append_left _ (List.mem_singleton_self _)
  · have hclean : Clean amp eq (k, v) := ⟨heq, hamp, hv⟩
    rw [entries_pair hne hclean]
    exact ⟨v, List.mem_singleton_self _⟩

/-- Two texts of clean pairs agree only when the pairs do. -/
theorem join_inj (hne : amp ≠ eq) {ps qs : List (List α × List α)}
    (hps : ∀ p ∈ ps, Clean amp eq p) (hqs : ∀ q ∈ qs, Clean amp eq q)
    (heq : join amp eq ps = join amp eq qs) : ps = qs := by
  have hread : ∀ rs : List (List α × List α), (∀ r ∈ rs, Clean amp eq r) →
      entries amp eq (join amp eq rs) = rs := by
    intro rs hrs
    rw [entries_join, List.flatMap_congr fun r hr => entries_pair hne (hrs r hr)]
    exact List.flatMap_singleton' rs
  rw [← hread ps hps, heq, hread qs hqs]

/-- So do two texts whose pairs have the same keys, and values with as many separators. -/
theorem join_inj_of_count {ps qs : List (List α × List α)}
    (hshape : ps.map (fun p => (p.1, p.2.count amp)) = qs.map fun q => (q.1, q.2.count amp))
    (heq : join amp eq ps = join amp eq qs) : ps = qs := by
  have hpair : ∀ {p q : List α × List α}, p.1 = q.1 → pair eq p = pair eq q → p = q := by
    rintro ⟨k, v⟩ ⟨_, v'⟩ rfl hpq
    have hv : v = v' := by simpa [pair] using hpq
    rw [hv]
  induction ps generalizing qs with
  | nil => simpa using hshape.symm
  | cons p ps ih =>
    cases qs with
    | nil => simp at hshape
    | cons q qs =>
      obtain ⟨hhead, hshape⟩ := List.cons.inj hshape
      obtain ⟨hkey, hcount⟩ := Prod.mk.inj hhead
      cases ps with
      | nil =>
        obtain rfl : qs = [] := by simpa using hshape.symm
        rw [join_singleton, join_singleton] at heq
        rw [hpair hkey heq]
      | cons p' ps =>
        cases qs with
        | nil => simp at hshape
        | cons q' qs =>
          rw [join_cons_cons, join_cons_cons] at heq
          have hamps : (pair eq p).count amp = (pair eq q).count amp := by
            rw [pair, pair, List.count_append, List.count_append, List.count_cons, List.count_cons,
              hkey, hcount]
          obtain ⟨hfirst, hrest⟩ := append_sep_inj_of_count hamps heq
          rw [hpair hkey hfirst, ih hshape hrest]

end Pylon.Lib.Separated
