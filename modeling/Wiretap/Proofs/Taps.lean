/-
  Wiretap.Proofs.Taps
  ───────────────────
  **A CHUNK AT A TAP.**

  A tap that is closed, or through which a chunk could not be written, leaves everything as it
  is.  Any other gives its chunk to the repository once, and keeps in mind whether that failed:

    • `Tap.write_cases`         — what a chunk does to a tap and to the store,
    • `Traffic.writeTap_cases`  — the same of a tap among others.
-/
import Wiretap.Exchange.Guard

namespace Wiretap

/-! ## §1. One tap. -/

/-- What the repository answers to a chunk that comes to a tap, where it is asked to write
it. -/
def Tap.attempt? (tap : Tap) (s : Store) (chunk : Bytes) : Option (Except CaptureFailure Unit) :=
  if tap.closed || tap.failed then none else some (s.write tap.direction tap.id chunk).1

/-- How many taps of a direction have failed. -/
def Store.writeFailures (s : Store) (d : Direction) : Int := s.metrics.writeFailures.of d

theorem Store.write_writeFailures (s : Store) (d d' : Direction) (id : ExchangeId)
    (chunk : Bytes) : (s.write d id chunk).2.writeFailures d' = s.writeFailures d' := by
  unfold Store.write
  dsimp only
  split
  next => rfl
  next =>
    split
    next => rfl
    next =>
      split
      next spilled hw => cases spilled <;> rfl
      next => rfl

/-- Nothing is written through a tap that is closed or has failed; otherwise the chunk is
written once, and the tap and the count of failures tell whether that failed. -/
theorem Tap.write_cases (tap : Tap) (s : Store) (chunk : Bytes) :
    ((tap.closed || tap.failed) = true ∧ tap.attempt? s chunk = none
        ∧ tap.write s chunk = (tap, s))
    ∨ ∃ outcome, tap.closed = false ∧ tap.failed = false
        ∧ (s.write tap.direction tap.id chunk).1 = outcome
        ∧ tap.attempt? s chunk = some outcome
        ∧ (tap.write s chunk).1 = { tap with failed := !outcome.isOk }
        ∧ (∃ metrics, (tap.write s chunk).2
            = { (s.write tap.direction tap.id chunk).2 with metrics })
        ∧ (tap.write s chunk).2.writeFailures tap.direction
            = s.writeFailures tap.direction + if outcome.isOk then 0 else 1 := by
  unfold Tap.attempt? Tap.write
  by_cases hshut : (tap.closed || tap.failed) = true
  · exact Or.inl ⟨hshut, if_pos hshut, if_pos hshut⟩
  · have hopen : tap.closed = false ∧ tap.failed = false := by simpa using hshut
    have hcount := s.write_writeFailures tap.direction tap.direction tap.id chunk
    simp only [if_neg hshut]
    refine Or.inr ⟨_, hopen.1, hopen.2, rfl, rfl, ?_⟩
    split
    next s' hw =>
      rw [hw] at hcount ⊢
      refine ⟨?_, ⟨s'.metrics, rfl⟩, by simpa [Except.isOk, Except.toBool] using hcount⟩
      show tap = { tap with failed := false }
      rw [← hopen.2]
    next failure s' hw =>
      rw [hw] at hcount ⊢
      refine ⟨rfl, ⟨_, rfl⟩, ?_⟩
      rw [← hcount]
      show (((s'.metrics.writeFailures.modify tap.direction (· + 1)).of tap.direction : Nat) : Int)
        = _
      rw [PerDirection.of_modify, if_pos rfl]
      rfl

/-! ## §2. A tap among others. -/

/-- What the repository answers to a chunk that comes to a tap, by the number of the tap. -/
def Traffic.attempt? (t : Traffic) (number : Nat) (chunk : Bytes) :
    Option (Except CaptureFailure Unit) :=
  t.taps[number]?.bind fun tap => tap.attempt? t.site.journal.store chunk

/-- Nothing happens to a chunk at a tap that is closed or has failed; otherwise it is written
once, and the tap and the count of failures tell whether that failed. -/
theorem Traffic.writeTap_cases {t : Traffic} {number : Nat} {tap : Tap}
    (htap : t.taps[number]? = some tap) (chunk : Bytes) :
    ((tap.closed || tap.failed) = true ∧ t.attempt? number chunk = none
        ∧ t.writeTap number chunk = t)
    ∨ ∃ outcome, tap.closed = false ∧ tap.failed = false
        ∧ (t.site.journal.store.write tap.direction tap.id chunk).1 = outcome
        ∧ t.attempt? number chunk = some outcome
        ∧ (t.writeTap number chunk).taps[number]? = some { tap with failed := !outcome.isOk }
        ∧ (∃ metrics, (t.writeTap number chunk).site.journal.store
            = { (t.site.journal.store.write tap.direction tap.id chunk).2 with metrics })
        ∧ (t.writeTap number chunk).site.journal.store.writeFailures tap.direction
            = t.site.journal.store.writeFailures tap.direction
              + if outcome.isOk then 0 else 1 := by
  unfold Traffic.attempt? Traffic.writeTap
  simp only [htap, Option.bind_some]
  rcases tap.write_cases t.site.journal.store chunk with
    ⟨hshut, hnone, hw⟩ | ⟨outcome, hopen, hsound, hout, hsome, htap', hstore, hcount⟩
  · refine Or.inl ⟨hshut, hnone, ?_⟩
    rw [hw]
    -- the tap is put back where it was
    obtain ⟨hlt, hget⟩ := List.getElem?_eq_some_iff.mp htap
    have hset : t.taps.set number tap = t.taps := by
      rw [← hget]
      exact List.set_getElem_self hlt
    show Traffic.withStore { t with taps := t.taps.set number tap } t.site.journal.store = t
    rw [hset]
    rfl
  · refine Or.inr ⟨outcome, hopen, hsound, hout, hsome, ?_, hstore, hcount⟩
    have hlt := (List.getElem?_eq_some_iff.mp htap).1
    rw [← htap']
    exact List.getElem?_set_self hlt

end Wiretap
