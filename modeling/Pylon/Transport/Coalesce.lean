import Mathlib.Data.Set.Finite.Lattice
import Pylon.Transport.Billing
import Pylon.Transport.Drained

/-!
# A coalesced flush writes what a plain loop would

`flush_coalesced` of `transport/conn.rs` against `flushEach`, a loop that vets the
front, writes the whole of it and takes it off the queue, one frame at a time. The
coalesced flush vets frames long before the ones in front of them are written, and vets
them again after every short write.

Both come to `drained`. A batch holds frames that will be written whatever is dropped
behind them (`Batched`), so vetting, gathering and a write of any length each leave the
same to come.
-/

namespace Pylon.Transport

open Lib Lib.KeepLast

namespace Connection

/-! ## Gathering -/

/-- The frames of the batch have been sampled and will be written whatever is dropped
behind them. -/
structure Batched (c : Connection) (now : Nat) : Prop where
  calm : c.Calm now
  batch : c.writevBatch ≠ []
  firm : Firm (c.stale now) (c.writevBatch.drop c.lock) c.out
  seen : ∀ f ∈ c.writevBatch, c.sampled now [f] = c.codelState
  frames : ∀ f ∈ c.writevBatch ++ c.out, f.1 ≠ []
  cursor : ∀ f ∈ c.writevBatch.head?, c.outCursor < f.1.length

/-- A batch is being gathered: the front of the queue is the next to join. -/
structure Gathering (c : Connection) (now : Nat) : Prop extends c.Batched now where
  front : ∀ f rest, c.out = f :: rest → (c.stale now f && !rest.isEmpty) = false
  next : ∀ f ∈ c.out.take 1, c.sampled now [f] = c.codelState

theorem lock_le_one (c : Connection) : c.lock ≤ 1 := by
  rw [lock]
  split <;> omega

variable {c : Connection} {rest : List OutFrame} {front : OutFrame} {now : Nat}

/-- A frame has joined the batch, and the next one is vetted. -/
theorem Batched.vet (hc : c.Batched now) :
    (c.vet now).Gathering now ∧ (c.vet now).outCursor = c.outCursor ∧
      c.restoreBatch.drained now = ((c.vet now).restoreBatch.drained now).after []
        (codelVictims (c.vetLog now)) := by
  obtain ⟨dropped, left, h⟩ := hc.calm.vetted
  refine ⟨⟨⟨h.calm hc.calm, ?_, ?_, ?_, ?_, ?_⟩, ?_, ?_⟩, h.cursor, ?_⟩
  · rw [h.batch]
    exact hc.batch
  · have hfirm := hc.firm
    rw [h.split] at hfirm
    rw [h.stale_eq, h.batch, h.lock_eq, h.out]
    exact hfirm.round h.behind
  · intro f hf
    rw [h.batch] at hf
    exact h.seen (Or.inl (hc.seen f hf))
  · intro f hf
    apply hc.frames f
    rw [h.batch, h.out] at hf
    rw [h.split]
    simp only [List.mem_append] at hf ⊢
    tauto
  · rw [h.batch, h.cursor]
    exact hc.cursor
  · rw [h.out, h.stale_eq]
    exact h.front fun _ => hc.batch
  · intro f hf
    rw [h.out] at hf
    exact h.seen (Or.inr (List.mem_append_right dropped hf))
  · rw [h.victims]
    exact h.drained hc.firm

theorem restoreBatch_join (hout : c.out = front :: rest) :
    (c.join front rest).restoreBatch = c.restoreBatch := by
  simp [join, restoreBatch, hout]

theorem restoreBatch_of_nil (h : c.writevBatch = []) : c.restoreBatch = c := by
  simp only [restoreBatch, h, List.nil_append]
  rw [← h]

theorem Gathering.join (h : c.Gathering now) (hout : c.out = front :: rest) :
    (c.join front rest).Batched now := by
  have hlock : c.lock ≤ c.writevBatch.length :=
    Nat.le_trans c.lock_le_one (List.length_pos_of_ne_nil h.batch)
  have hfirm := h.firm
  have hnext := h.next
  have hframes := h.frames
  rw [hout] at hfirm hnext hframes
  refine ⟨h.calm, by simp [Connection.join], ?_, ?_, ?_, ?_⟩
  · show Firm (c.stale now) ((c.writevBatch ++ [front]).drop c.lock) rest
    rw [List.drop_append_of_le_length hlock]
    exact hfirm.concat (h.front front rest hout)
  · intro f hf
    rcases List.mem_append.mp hf with hf | hf
    · exact h.seen f hf
    · exact hnext f hf
  · show ∀ f ∈ c.writevBatch ++ [front] ++ rest, f.1 ≠ []
    simpa using hframes
  · show ∀ f ∈ (c.writevBatch ++ [front]).head?, c.outCursor < f.1.length
    rw [List.head?_append_of_ne_nil _ h.batch]
    exact h.cursor

theorem Gathering.gatherLoop (h : c.Gathering now) (maxBytes startCursor fuel batchBytes : Nat) :
    let r := Connection.gatherLoop maxBytes startCursor now fuel batchBytes c
    r.1.Gathering now ∧ r.1.outCursor = c.outCursor ∧
      c.restoreBatch.drained now = (r.1.restoreBatch.drained now).after [] (codelVictims r.2) := by
  revert h
  refine gatherLoop_rule (motive := fun c r => c.Gathering now → r.1.Gathering now ∧
    r.1.outCursor = c.outCursor ∧
    c.restoreBatch.drained now = (r.1.restoreBatch.drained now).after [] (codelVictims r.2))
    ?_ ?_ fuel batchBytes c
  · intro c h
    exact ⟨h, rfl, rfl⟩
  · intro c front rest r hout ih h
    obtain ⟨hnext, hcursor, hdrained⟩ := (h.join hout).vet
    obtain ⟨hdone, hcursor', hrest⟩ := ih hnext
    refine ⟨hdone, hcursor'.trans hcursor, ?_⟩
    rw [← restoreBatch_join hout, hdrained, hrest, Drained.after_after, codelVictims_append]
    rfl

/-- The first frame joins whatever the limits are. -/
theorem gathering_cons (hbatch : c.writevBatch = []) (hout : c.out = front :: rest)
    (maxBytes now : Nat) :
    let r := Connection.gatherLoop maxBytes c.outCursor now rest.length
      (0 + (front.1.length - c.outCursor)) ((c.join front rest).vet now)
    c.gathering maxBytes now = (r.1, (c.join front rest).vetLog now ++ r.2) := by
  have hclear : ({ c with writevBatch := [] } : Connection) = c := by rw [← hbatch]
  rw [gathering, hclear, hout, List.length_cons, Connection.gatherLoop, hout]
  simp [hbatch, join]

/-- Every queued frame has bytes, and the cursor is inside the front. -/
structure Framed (c : Connection) : Prop where
  frames : ∀ f ∈ c.out, f.1 ≠ []
  cursor : 0 < c.outCursor → ∃ f rest, c.out = f :: rest ∧ c.outCursor < f.1.length

/-- Between two calls of the sink: nothing is gathered, and no sample closes an interval. -/
structure Primed (c : Connection) (now : Nat) : Prop extends c.Framed where
  calm : c.Calm now
  batch : c.writevBatch = []

/-- The front that is left after vetting opens the batch. -/
theorem Primed.first (hc : c.Primed now) (hout : (c.vet now).out = front :: rest) :
    ((c.vet now).join front rest).Batched now ∧
      c.drained now = (((c.vet now).join front rest).restoreBatch.drained now).after []
        (codelVictims (c.vetLog now)) := by
  obtain ⟨dropped, left, h⟩ := hc.calm.vetted
  have hleft : left = front :: rest := h.out.symm.trans hout
  have hbatch' : (c.vet now).writevBatch = [] := h.batch.trans hc.batch
  refine ⟨⟨h.calm hc.calm, by simp [join], ?_, ?_, ?_, ?_⟩, ?_⟩
  · show Firm ((c.vet now).stale now)
      (((c.vet now).writevBatch ++ [front]).drop (c.vet now).lock) rest
    rw [hbatch', h.stale_eq, h.lock_eq, lock]
    split
    · trivial
    · next hnot => exact ⟨h.front (fun hbegun => absurd hbegun hnot) front rest hleft, trivial⟩
  · show ∀ f ∈ (c.vet now).writevBatch ++ [front], _
    rw [hbatch']
    intro f hf
    refine h.seen (Or.inr ?_)
    rw [hleft]
    exact List.mem_append_right dropped hf
  · show ∀ f ∈ (c.vet now).writevBatch ++ [front] ++ rest, f.1 ≠ []
    rw [hbatch']
    intro f hf
    refine hc.frames f ?_
    rw [h.split, hleft]
    exact List.mem_append_right dropped hf
  · show ∀ f ∈ ((c.vet now).writevBatch ++ [front]).head?, (c.vet now).outCursor < f.1.length
    rw [hbatch', h.cursor]
    rintro f ⟨⟩
    by_cases hbegun : 0 < c.outCursor
    · obtain ⟨f, r, hf, hlt⟩ := hc.cursor hbegun
      have hkept := h.split
      rw [h.locked hbegun hc.batch, hf, hleft] at hkept
      cases hkept
      exact hlt
    · have hne : front.1 ≠ [] := hc.frames front (by rw [h.split, hleft]; simp)
      have hpos := List.length_pos_of_ne_nil hne
      omega
  · have hvet := h.drained (by rw [hc.batch, List.drop_nil]; trivial)
    rw [restoreBatch_of_nil hc.batch] at hvet
    rw [hvet, restoreBatch_join hout, h.victims]

/-- The batch a flush offers the sink. -/
theorem Primed.offer (hc : c.Primed now) (hsome : (c.vet now).out ≠ []) (maxBytes : Nat) :
    ((c.vet now).gatherBatch maxBytes now).Batched now ∧
      ((c.vet now).gatherBatch maxBytes now).outCursor = (c.vet now).outCursor ∧
      c.drained now = (((c.vet now).gatherBatch maxBytes now).restoreBatch.drained now).after []
        (codelVictims (c.vetLog now ++ (c.vet now).gatherLog maxBytes now)) := by
  obtain ⟨dropped, left, h⟩ := hc.calm.vetted
  obtain ⟨front, rest, hout⟩ := List.exists_cons_of_ne_nil hsome
  obtain ⟨hfirst, hdrained⟩ := hc.first hout
  obtain ⟨hnext, hcursor, hvet⟩ := hfirst.vet
  obtain ⟨hdone, hcursor', hrest⟩ := hnext.gatherLoop maxBytes (c.vet now).outCursor rest.length
    (0 + (front.1.length - (c.vet now).outCursor))
  rw [gatherBatch, gatherLog, gathering_cons (h.batch.trans hc.batch) hout]
  refine ⟨hdone.toBatched, hcursor'.trans hcursor, ?_⟩
  rw [hdrained, hvet, hrest, Drained.after_after, Drained.after_after]
  simp only [codelVictims_append, List.append_assoc, List.append_nil]

end Connection

/-! ## Writing -/

theorem flatten_slices_append {cursor : Nat} {fs : List OutFrame} (h : fs = [] → cursor = 0)
    (gs : List OutFrame) :
    (slices cursor (fs ++ gs)).flatten = (slices cursor fs).flatten ++ (gs.map (·.1)).flatten := by
  cases fs with
  | nil =>
    rw [h rfl, List.nil_append, slices_zero]
    rfl
  | cons => simp [slices]

namespace Connection

variable {c : Connection}

/-- What a write leaves of the batch is what it left of the bytes. -/
theorem applyWritten_eq {n : Nat} (hpos : 0 < n) (hbatch : c.writevBatch ≠ []) :
    ∃ j cursor, j ≤ c.writevBatch.length ∧ (j = 0 → 0 < cursor) ∧
      (j = c.writevBatch.length → cursor = 0) ∧
      (∀ f ∈ (c.writevBatch.drop j).head?, cursor < f.1.length) ∧
      (slices c.outCursor c.writevBatch).flatten.drop n =
        (slices cursor (c.writevBatch.drop j)).flatten ∧
      c.applyWritten c.outCursor n = { c.unbill (totalBytes (c.writevBatch.take j)) with
        out := c.writevBatch.drop j ++ c.out
        outCursor := cursor
        writevBatch := [] } := by
  obtain ⟨j, left, cursor, heq, hj, hlen, hend, hnext⟩ := c.applyWritten_spec c.outCursor n
  refine ⟨j, cursor, hj, ?_, hend, fun f hf => (hnext f hf).2, ?_, heq⟩
  · -- no frame was passed, so all the bytes went into the front
    rintro rfl
    obtain ⟨f, rest, hfront⟩ := List.exists_cons_of_ne_nil hbatch
    obtain ⟨rfl, -⟩ := hnext f (by rw [List.drop_zero, hfront]; rfl)
    rw [List.take_zero, List.flatten_nil, List.length_nil] at hlen
    omega
  · rw [(slices_split hlen).2]
    cases hrest : c.writevBatch.drop j with
    | nil => rw [slices, slices, List.flatten_nil, List.drop_nil]
    | cons f rest =>
      obtain ⟨rfl, hinside⟩ := hnext f (by rw [hrest]; rfl)
      rw [slices, slices, List.flatten_cons, List.flatten_cons, ← List.drop_drop,
        List.drop_append_of_le_length]
      rw [List.length_drop]
      omega

variable {now : Nat}

theorem sampled_append_of_seen {fs : List OutFrame} (h : ∀ f ∈ fs, c.sampled now [f] = c.codelState)
    (gs : List OutFrame) : c.sampled now (fs ++ gs) = c.sampled now gs := by
  induction fs with
  | nil => rfl
  | cons f _ ih =>
    rw [← ih fun g hg => h g (List.mem_cons_of_mem _ hg)]
    exact (sampled_sampled c c rfl (h f List.mem_cons_self).symm _).symm

namespace Batched

variable {c : Connection} {now : Nat}

/-- What is to come when the first `j` frames of the batch have been written, and `cursor`
bytes of the next. -/
theorem leaves (h : c.Batched now) {j cursor : Nat} (hj : j ≤ c.writevBatch.length)
    (hbegun : j = 0 → 0 < c.outCursor → 0 < cursor)
    (hwhole : j = c.writevBatch.length → cursor = 0) :
    Connection.drained { c.unbill (totalBytes (c.writevBatch.take j)) with
        out := c.writevBatch.drop j ++ c.out
        outCursor := cursor
        writevBatch := [] } now =
      { conn := c.emptied (totalBytes (c.writevBatch ++ c.out)) (c.sampled now c.out)
          (victims (c.stale now) c.out).length
        written := (slices cursor (c.writevBatch.drop j)).flatten ++
          ((survivors (c.stale now) c.out).map (·.1)).flatten
        dropped := victims (c.stale now) c.out } := by
  generalize hw : ({ c.unbill (totalBytes (c.writevBatch.take j)) with
        out := c.writevBatch.drop j ++ c.out
        outCursor := cursor
        writevBatch := [] } : Connection) = w
  have hlock : w.lock ≤ (c.writevBatch.drop j).length := by
    rw [← hw, List.length_drop, lock]
    split
    · next hcursor =>
      have hne : j ≠ c.writevBatch.length := fun hend => by
        rw [hwhole hend] at hcursor
        exact Nat.lt_irrefl 0 hcursor
      omega
    · exact Nat.zero_le _
  have hpast : c.lock ≤ j + w.lock := by
    rw [← hw, lock, lock]
    split
    · next hcursor =>
      by_cases hzero : j = 0
      · rw [if_pos (hbegun hzero hcursor)]
        omega
      · omega
    · exact Nat.zero_le _
  have hfirm : Firm (c.stale now) ((c.writevBatch.drop j).drop w.lock) c.out := by
    have hdrop := h.firm.drop (j + w.lock - c.lock)
    rw [List.drop_drop] at hdrop ⊢
    rw [show j + w.lock = c.lock + (j + w.lock - c.lock) by omega]
    exact hdrop
  obtain ⟨hkept, hvictims⟩ := kept_behind hlock hfirm
  have hout : w.out = c.writevBatch.drop j ++ c.out := by rw [← hw]
  have hstale : w.stale now = c.stale now := by
    rw [← hw]
    rfl
  have hsampled : w.sampled now w.out = c.sampled now c.out := by
    rw [hout, ← sampled_append_of_seen (fun f hf => h.seen f (List.mem_of_mem_drop hf)), ← hw]
    rfl
  have hbytes : totalBytes (c.writevBatch.take j) + totalBytes w.out =
      totalBytes (c.writevBatch ++ c.out) := by
    rw [hout, totalBytes_append, ← Nat.add_assoc, ← totalBytes_append, List.take_append_drop,
      totalBytes_append]
  have hleft : w = { c.unbill (totalBytes (c.writevBatch.take j)) with
      out := c.writevBatch.drop j ++ c.out, outCursor := cursor, writevBatch := []
      codelState := c.codelState, codelDropped := c.codelDropped + 0 } := hw.symm
  have hdroppable : w.droppable = (c.writevBatch.drop j ++ c.out).drop w.lock := by
    rw [droppable, hout, lock]
  have hlocked : w.locked = (c.writevBatch.drop j ++ c.out).take w.lock := by
    rw [locked, hout, lock]
  have hcursor : w.outCursor = cursor := by rw [← hw]
  have hnone : c.writevBatch.drop j = [] → cursor = 0 := fun hnil =>
    hwhole (Nat.le_antisymm hj (List.drop_eq_nil_iff.mp hnil))
  rw [Connection.drained, hstale, hdroppable, hlocked, hkept, hvictims, hcursor, hsampled,
    emptied_emptied hleft, hbytes, Nat.zero_add, flatten_slices_append hnone]

theorem restored (h : c.Batched now) :
    c.restoreBatch.drained now =
      { conn := c.emptied (totalBytes (c.writevBatch ++ c.out)) (c.sampled now c.out)
          (victims (c.stale now) c.out).length
        written := (slices c.outCursor c.writevBatch).flatten ++
          ((survivors (c.stale now) c.out).map (·.1)).flatten
        dropped := victims (c.stale now) c.out } := by
  have hleaves := h.leaves (j := 0) (Nat.zero_le _) (fun _ hcursor => hcursor)
    (fun hend => absurd hend.symm (List.length_pos_of_ne_nil h.batch).ne')
  have hnone : totalBytes (c.writevBatch.take 0) = 0 := rfl
  rw [List.drop_zero, hnone, unbill_zero] at hleaves
  exact hleaves

theorem offered (h : c.Batched now) : 0 < (slices c.outCursor c.writevBatch).flatten.length := by
  obtain ⟨front, rest, hbatch⟩ := List.exists_cons_of_ne_nil h.batch
  have hcursor := h.cursor front (by rw [hbatch]; rfl)
  rw [hbatch, slices, List.flatten_cons, List.length_append, List.length_drop]
  omega

/-- A write of some bytes takes them off what is to come. -/
theorem write (h : c.Batched now) {n : Nat} (hpos : 0 < n) :
    (c.applyWritten c.outCursor n).Primed now ∧
      c.restoreBatch.drained now = ((c.applyWritten c.outCursor n).drained now).after
        ((slices c.outCursor c.writevBatch).flatten.take n) [] := by
  obtain ⟨j, cursor, hj, hpart, hwhole, hinside, hdrop, heq⟩ := applyWritten_eq hpos h.batch
  rw [heq]
  refine ⟨⟨⟨?_, ?_⟩, h.calm, rfl⟩, ?_⟩
  · intro f hf
    refine h.frames f (List.mem_append.mpr ((List.mem_append.mp hf).imp_left List.mem_of_mem_drop))
  · intro hcursor
    have hne : c.writevBatch.drop j ≠ [] := fun hnil =>
      hcursor.ne' (hwhole (Nat.le_antisymm hj (List.drop_eq_nil_iff.mp hnil)))
    obtain ⟨f, rest, hrest⟩ := List.exists_cons_of_ne_nil hne
    refine ⟨f, rest ++ c.out, ?_, hinside f (by rw [hrest]; rfl)⟩
    show c.writevBatch.drop j ++ c.out = f :: (rest ++ c.out)
    rw [hrest]
    rfl
  · rw [h.leaves hj (fun hzero _ => hpart hzero) hwhole, h.restored, ← hdrop]
    simp only [Drained.after, ← List.append_assoc, List.take_append_drop, List.nil_append]

theorem restore (h : c.Batched now) : c.restoreBatch.Primed now := by
  obtain ⟨front, rest, hbatch⟩ := List.exists_cons_of_ne_nil h.batch
  have hcursor : c.outCursor < front.1.length := h.cursor front (by rw [hbatch]; rfl)
  refine ⟨⟨h.frames, fun _ => ⟨front, rest ++ c.out, ?_, hcursor⟩⟩, h.calm, rfl⟩
  show c.writevBatch ++ c.out = front :: (rest ++ c.out)
  rw [hbatch]
  rfl

end Batched

theorem Primed.done (hc : c.Primed now) (hempty : (c.vet now).out = []) :
    c.drained now =
      { conn := { c.vet now with writevBatch := [] }, written := []
        dropped := codelVictims (c.vetLog now) } := by
  obtain ⟨dropped, left, h⟩ := hc.calm.vetted
  have hleft : left = [] := h.out.symm.trans hempty
  have hdropped : dropped = [] := by
    by_contra hne
    exact h.behind hne hleft
  have hout : c.out = [] := by rw [h.split, hdropped, hleft, List.append_nil]
  have hcursor : c.outCursor = 0 := by
    by_contra hne
    obtain ⟨f, rest, hf, -⟩ := hc.cursor (Nat.pos_of_ne_zero hne)
    rw [hout] at hf
    cases hf
  rw [h.victims, h.conn, hleft, hdropped]
  simp [drained, droppable, locked, hout, hcursor, emptied, victims, survivors, slices]

theorem Primed.owes (hc : c.Primed now) (hsome : (c.vet now).out ≠ []) :
    0 < (c.drained now).written.length := by
  obtain ⟨front, rest, hout⟩ := List.exists_cons_of_ne_nil hsome
  obtain ⟨hfirst, hdrained⟩ := hc.first hout
  rw [hdrained, Drained.after_written, List.nil_append, hfirst.restored, List.length_append]
  exact Nat.add_pos_left hfirst.offered _

end Connection

/-! ## The coalesced flush -/

/-- What a flush came to. -/
def Flushed.drain (r : Flushed) : Drained where
  conn := r.conn
  written := r.accepted
  dropped := codelVictims r.log

theorem Flushed.after_drain (r : Flushed) (bytes : Bytes) (log : List CodelEvent) :
    (r.after bytes log).drain = r.drain.after bytes (codelVictims log) := by
  rw [drain, after, codelVictims_append]
  rfl

def flushDrain (maxBytes now : Nat) (script : List WriteOutcome) (c : Connection) : Drained :=
  (flushCoalesced maxBytes now script c).drain

/-- Enough calls that write something drain a calm connection, however the sink cuts the
bytes. -/
theorem flushCoalesced_drains (maxBytes now : Nat) (script : List WriteOutcome) (c : Connection)
    (hc : c.Primed now)
    (hscript : ∀ o ∈ script, o ≠ .interrupted → ∃ n, 0 < n ∧ o = .wrote n)
    (hcalls : (c.drained now).written.length ≤ script.countP (· ≠ .interrupted)) :
    (flushCoalesced maxBytes now script c).status = .drained ∧
      flushDrain maxBytes now script c = c.drained now := by
  rw [flushDrain]
  fun_induction flushCoalesced maxBytes now script c with
  | case1 _ _ _ _ hempty => exact ⟨rfl, (hc.done hempty).symm⟩
  | case2 _ _ _ hfull => exact absurd (hc.owes hfull) (Nat.not_lt.mpr hcalls)
  | case3 =>
    obtain ⟨n, -, hn⟩ := hscript .wouldBlock List.mem_cons_self (by simp)
    cases hn
  | case4 _ _ _ hfull _ _ _ ih =>
    obtain ⟨hg, -, hdrained⟩ := hc.offer hfull maxBytes
    rw [hdrained] at hcalls
    obtain ⟨hstatus, heq⟩ := ih hg.restore
      (fun o ho => hscript o (List.mem_cons_of_mem _ ho)) (by simpa using hcalls)
    refine ⟨hstatus, ?_⟩
    rw [Flushed.after_drain, heq, hdrained]
  | case5 =>
    obtain ⟨n, -, hn⟩ := hscript .error List.mem_cons_self (by simp)
    cases hn
  | case6 _ _ _ hfull _ _ _ n _ _ hzero =>
    obtain ⟨hg, hcursor, -⟩ := hc.offer hfull maxBytes
    obtain ⟨n, hpos, ⟨⟩⟩ := hscript _ List.mem_cons_self (by simp)
    have hoffered := hg.offered
    rw [hcursor] at hoffered
    rw [List.length_take] at hzero
    exact absurd hzero (Nat.lt_min.mpr ⟨hpos, hoffered⟩).ne'
  | case7 c _ v hfull start log g _ _ bytes hsome ih =>
    obtain ⟨hg, hcursor, hdrained⟩ := hc.offer hfull maxBytes
    obtain ⟨hprimed, hwrite⟩ := hg.write (Nat.pos_of_ne_zero hsome)
    rw [hcursor] at hprimed hwrite
    have htake : (slices start g.writevBatch).flatten.take bytes.length = bytes := by
      rw [List.length_take, ← List.take_eq_take_min]
    have hwritten : c.drained now = ((g.applyWritten start bytes.length).drained now).after bytes
        (codelVictims log) := by
      rw [hdrained, hwrite, htake, Drained.after_after, List.nil_append, List.append_nil]
    rw [hwritten, Drained.after_written, List.length_append,
      List.countP_cons_of_pos (by simp)] at hcalls
    obtain ⟨hstatus, heq⟩ := ih hprimed
      (fun o ho => hscript o (List.mem_cons_of_mem _ ho)) (by omega)
    refine ⟨hstatus, ?_⟩
    rw [Flushed.after_drain, heq, hwritten]

/-! ## One write per frame -/

/-- The reference loop: vet, write the front to its end, take it off the queue. The first
argument bounds the iterations; each takes a frame. -/
def writeEach (now : Nat) : Nat → Connection → Drained
  | 0, c => ⟨c.vet now, [], codelVictims (c.vetLog now)⟩
  | fuel + 1, c =>
    let v := c.vet now
    let dropped := codelVictims (c.vetLog now)
    match v.out with
    | [] => ⟨v, [], dropped⟩
    | front :: rest =>
      (writeEach now fuel { v.unbill front.1.length with out := rest, outCursor := 0 }).after
        (front.1.drop v.outCursor) dropped

def flushEach (now : Nat) (c : Connection) : Drained := writeEach now c.out.length c

namespace Connection

/-- A batch of one frame, written to its end. -/
theorem applyWritten_join {c : Connection} (hbatch : c.writevBatch = []) (front : OutFrame)
    (rest : List OutFrame) :
    (c.join front rest).applyWritten c.outCursor (front.1.length - c.outCursor) =
      { c.unbill front.1.length with out := rest, outCursor := 0 } := by
  simp [join, hbatch, applyWritten, creditWritten, unbill]

theorem Primed.pop {c : Connection} {now : Nat} (hc : c.Primed now) {front : OutFrame}
    {rest : List OutFrame} (hout : (c.vet now).out = front :: rest) {popped : Connection}
    (hpopped : popped = { (c.vet now).unbill front.1.length with out := rest, outCursor := 0 }) :
    popped.Primed now ∧ c.drained now =
      (popped.drained now).after (front.1.drop (c.vet now).outCursor)
      (codelVictims (c.vetLog now)) := by
  obtain ⟨dropped, left, h⟩ := hc.calm.vetted
  have hbatch' : (c.vet now).writevBatch = [] := h.batch.trans hc.batch
  obtain ⟨hfirst, hdrained⟩ := hc.first hout
  have hbytes : (slices ((c.vet now).join front rest).outCursor
      ((c.vet now).join front rest).writevBatch).flatten = front.1.drop (c.vet now).outCursor := by
    simp [join, hbatch', slices]
  have hoffered := hfirst.offered
  rw [hbytes] at hoffered
  have hwrite := hfirst.write hoffered
  rw [hbytes, List.take_length, List.length_drop] at hwrite
  have hcursor : ((c.vet now).join front rest).outCursor = (c.vet now).outCursor := rfl
  rw [hcursor, applyWritten_join hbatch', ← hpopped] at hwrite
  refine ⟨hwrite.1, ?_⟩
  rw [hdrained, hwrite.2, Drained.after_after, List.nil_append, List.append_nil]

end Connection

/-- The reference loop drains a calm connection. -/
theorem writeEach_drains {now : Nat} (fuel : Nat) (c : Connection) (hc : c.Primed now)
    (hfuel : c.out.length ≤ fuel) :
    writeEach now fuel c = c.drained now := by
  obtain ⟨dropped, left, h⟩ := hc.calm.vetted
  have hclear : ({ c.vet now with writevBatch := [] } : Connection) = c.vet now := by
    rw [← h.batch.trans hc.batch]
  induction fuel generalizing c dropped left with
  | zero =>
    have hout : c.out = [] := List.eq_nil_of_length_eq_zero (Nat.le_zero.mp hfuel)
    have hempty : (c.vet now).out = [] := by
      rw [h.out]
      exact (List.append_eq_nil_iff.mp (h.split.symm.trans hout)).2
    rw [hc.done hempty, hclear]
    rfl
  | succ fuel ih =>
    rw [writeEach]
    cases hout : (c.vet now).out with
    | nil => rw [hc.done hout, hclear]
    | cons _ rest =>
      obtain ⟨hprimed, hpop⟩ := hc.pop hout rfl
      obtain ⟨dropped', left', h'⟩ := hprimed.calm.vetted
      have hlen : rest.length ≤ fuel := by
        rw [h.split, ← h.out, hout, List.length_append, List.length_cons] at hfuel
        omega
      dsimp only
      rw [hpop, ih _ hprimed hlen dropped' left' h' (by rw [← h'.batch.trans hprimed.batch])]

/-! ## The first sample -/

namespace Connection

/-- Sampling the front beforehand changes nothing for the vetting, and no sample after it
closes an interval. -/
theorem settles {c : Connection} {now : Nat} (hsome : c.out ≠ [])
    (hinterval : 0 < c.codel.intervalNs) (hclock : now + c.codel.intervalNs < 2 ^ 64) :
    ∃ st, Calm { c with codelState := st } now ∧
      vet { c with codelState := st } now = c.vet now ∧
      codelVictims (vetLog { c with codelState := st } now) = codelVictims (c.vetLog now) := by
  by_cases hon : c.codel.enabled = true
  · obtain ⟨front, rest, hout⟩ := List.exists_cons_of_ne_nil hsome
    have hagain := c.codelState.noteInterval_noteInterval (now - front.2) hinterval hclock
    refine ⟨c.codelState.noteInterval c.codel now (now - front.2), fun _ => ?_, ?_, ?_⟩
    · exact c.codelState.noteInterval_open _ hinterval hclock
    · simp only [vet, vetting, codelDequeue, hon, if_true, hout, codelLoop, hagain]
      split_ifs <;> rfl
    · simp only [vetLog, vetting, codelDequeue, hon, if_true, hout, codelLoop, hagain]
      split_ifs <;> rfl
  · exact ⟨c.codelState, fun hon' => absurd hon' hon, rfl, rfl⟩

end Connection

section

variable {c c' : Connection} {now : Nat} (hvet : c'.vet now = c.vet now)
  (hlog : codelVictims (c'.vetLog now) = codelVictims (c.vetLog now))

include hvet hlog

/-- Both loops look at the connection through the vetting of its front only. -/
theorem flushDrain_congr (maxBytes : Nat) (script : List WriteOutcome) :
    (flushCoalesced maxBytes now script c').status = (flushCoalesced maxBytes now script c).status ∧
      flushDrain maxBytes now script c' = flushDrain maxBytes now script c := by
  rw [flushDrain, flushDrain]
  unfold flushCoalesced
  simp only [hvet]
  by_cases hempty : (c.vet now).out = []
  · simp only [if_pos hempty, Flushed.drain, hlog, and_self]
  · simp only [if_neg hempty]
    rcases script with _ | ⟨n | _ | _ | _, script⟩
    case cons.wrote =>
      dsimp only
      split <;> simp only [Flushed.drain, Flushed.after, codelVictims_append, hlog, and_self]
    all_goals simp only [Flushed.drain, Flushed.after, codelVictims_append, hlog, and_self]

theorem writeEach_congr (fuel : Nat) : writeEach now fuel c' = writeEach now fuel c := by
  cases fuel with
  | zero | succ => rw [writeEach, writeEach, hvet, hlog]

end

/-! ## The two loops -/

/-- A sink that is interrupted before its call `k` only answers the rest. -/
theorem le_countP_calls {sink : Nat → WriteOutcome} {k : Nat}
    (h : ∀ i, k ≤ i → sink i ≠ .interrupted) (m : Nat) :
    m ≤ ((List.range m).map sink).countP (· ≠ .interrupted) + k := by
  induction m with
  | zero => exact Nat.zero_le _
  | succ m ih =>
    rw [List.range_succ, List.map_append, List.countP_append, List.map_singleton]
    by_cases hm : k ≤ m
    · rw [List.countP_cons_of_pos (by simpa using h m hm)]
      omega
    · omega

/-- A coalesced flush to a sink that neither blocks nor fails, and asks for another try
only finitely often, ends with an empty queue. It writes the bytes, drops the frames and
leaves the connection, its CoDel state included, of the loop that writes one frame at a
time. -/
theorem coalesced_eq_each (maxBytes now : Nat) (c : Connection) (sink : Nat → WriteOutcome)
    (hbatch : c.writevBatch = []) (hframes : ∀ f ∈ c.out, f.1 ≠ [])
    (hcursor : ∀ f ∈ c.out.head?, c.outCursor < f.1.length) (hinterval : 0 < c.codel.intervalNs)
    (hclock : now + c.codel.intervalNs < 2 ^ 64)
    (hsink : ∀ i, sink i ≠ .interrupted → ∃ n, 0 < n ∧ sink i = .wrote n)
    (hinterrupts : {i | sink i = .interrupted}.Finite) :
    ∃ calls, ∀ m, calls ≤ m →
      (flushCoalesced maxBytes now ((List.range m).map sink) c).status = .drained ∧
      (flushCoalesced maxBytes now ((List.range m).map sink) c).conn.out = [] ∧
      flushDrain maxBytes now ((List.range m).map sink) c = flushEach now c := by
  by_cases hout : c.out = []
  · obtain ⟨dropped, kept, st, hsplit, -, -, hvet, -⟩ := c.vet_spec now
    have hempty : (c.vet now).out = [] := by
      rw [hvet]
      exact (List.append_eq_nil_iff.mp (hsplit.symm.trans hout)).2
    have hclear : ({ c.vet now with writevBatch := [] } : Connection) = c.vet now := by
      have hvetBatch : (c.vet now).writevBatch = [] := by
        rw [hvet]
        exact hbatch
      rw [← hvetBatch]
    refine ⟨0, fun m _ => ?_⟩
    have hflush : flushCoalesced maxBytes now ((List.range m).map sink) c =
        ⟨.drained, c.vet now, [], c.vetLog now⟩ := by
      unfold flushCoalesced
      dsimp only
      rw [if_pos hempty, hclear]
    rw [flushDrain, hflush, flushEach, hout]
    exact ⟨rfl, hempty, rfl⟩
  · obtain ⟨st, hcalm, hvet, hlog⟩ := Connection.settles hout hinterval hclock
    have hprimed : Connection.Primed { c with codelState := st } now := by
      refine ⟨⟨hframes, fun _ => ?_⟩, hcalm, hbatch⟩
      obtain ⟨front, rest, hfront⟩ := List.exists_cons_of_ne_nil hout
      exact ⟨front, rest, hfront, hcursor front (by rw [hfront]; rfl)⟩
    obtain ⟨k, hk⟩ := hinterrupts.bddAbove
    have hlater : ∀ i, k + 1 ≤ i → sink i ≠ .interrupted := fun i hi hinterrupted =>
      Nat.not_le.mpr hi (hk hinterrupted)
    have hscript (m : Nat) : ∀ o ∈ (List.range m).map sink, o ≠ .interrupted →
        ∃ n, 0 < n ∧ o = .wrote n := by
      intro o ho
      obtain ⟨i, -, rfl⟩ := List.mem_map.mp ho
      exact hsink i
    refine ⟨(Connection.drained { c with codelState := st } now).written.length + (k + 1),
      fun m hm => ?_⟩
    have hcalls := le_countP_calls hlater m
    obtain ⟨hstatus, hdrain⟩ := flushCoalesced_drains maxBytes now ((List.range m).map sink) _
      hprimed (hscript m) (by omega)
    obtain ⟨hstatus', hdrain'⟩ := flushDrain_congr hvet hlog maxBytes ((List.range m).map sink)
    have heach := writeEach_drains c.out.length _ hprimed (Nat.le_refl _)
    rw [writeEach_congr hvet hlog] at heach
    refine ⟨hstatus'.symm.trans hstatus, ?_, ?_⟩
    · have hconn := congrArg Drained.conn (hdrain'.symm.trans hdrain)
      exact congrArg Connection.out hconn
    · rw [← hdrain', hdrain, flushEach, heach]

/-- The front is partly written and its sample closes an interval: the stale frame behind
it goes, the last one does not. -/
theorem coalesced_eq_each_midway :
    let c : Connection :=
      { out := [([1, 2, 3], 0), ([4], 0), ([5, 6], 190)], outCursor := 1, outBytes := 6
        highWater := 64, codel := ⟨10, 100⟩
        codelState := { intervalMin := some 60, intervalEnd := 150 } }
    let sink : Nat → WriteOutcome := fun i => if i = 0 then .interrupted else .wrote 1
    (flushEach 200 c).written = [2, 3, 5, 6] ∧ (flushEach 200 c).dropped = [([4], 0)] ∧
      ∃ calls, ∀ m, calls ≤ m →
        (flushCoalesced 64 200 ((List.range m).map sink) c).status = .drained ∧
        (flushCoalesced 64 200 ((List.range m).map sink) c).conn.out = [] ∧
        flushDrain 64 200 ((List.range m).map sink) c = flushEach 200 c := by
  refine ⟨by decide, by decide,
    coalesced_eq_each 64 200 _ _ rfl (by decide) ?_ (by decide) (by decide) ?_ ?_⟩
  · rintro f ⟨⟩
    decide
  · intro i hi
    by_cases hzero : i = 0
    · exact absurd (if_pos hzero) hi
    · exact ⟨1, Nat.one_pos, if_neg hzero⟩
  · refine (Set.finite_singleton 0).subset fun i hi => ?_
    by_contra hne
    exact absurd ((if_neg hne).symm.trans hi) (by simp)

end Pylon.Transport
