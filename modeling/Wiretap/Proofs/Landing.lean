/-
  Wiretap.Proofs.Landing
  ──────────────────────
  **WHAT LANDS.**

  Whatever a file answers, the attempts of a landing stand one behind the other, what landed
  is a prefix of the data, and the offset moves on by exactly that much.  So a landing at the
  end of a content extends it, also one that breaks off:

    • `land_offset`, `land_prefix`, `land_complete` — what the end of a landing tells,
    • `contentAfter_land` — the content behind it.
-/
import Wiretap.Disk.Basic

namespace Wiretap

/-! ## §1. Attempts one behind the other. -/

/-- The attempts start at an offset, each where the one before it ended. -/
def Contiguous : (offset : Nat) → List Attempt → Prop
  | _, [] => True
  | offset, a :: rest => a.offset = offset ∧ Contiguous (offset + a.landed.length) rest

theorem land_contiguous (limit : Nat) (responses : List Response) (idle offset : Nat)
    (data : Bytes) : Contiguous offset (land limit responses idle offset data).attempts := by
  fun_induction land limit responses idle offset data with
  | case6 idle n rest offset b data ih =>
      refine ⟨rfl, ?_⟩
      -- the attempt takes one byte and at most `n` more, as many as there are
      have hlen : (b :: data.take n).length = min (n + 1) (data.length + 1) := by
        simp only [List.length_cons, List.length_take]
        omega
      show Contiguous (offset + (b :: data.take n).length) _
      rw [hlen]
      exact ih
  | _ => simp_all [Contiguous, Landing.after]

/-- Attempts that stand one behind the other at the end of a content extend it. -/
theorem contentAfter_of_contiguous (content : Bytes) (attempts : List Attempt)
    (h : Contiguous content.length attempts) :
    Disk.contentAfter content attempts = content ++ attempts.flatMap (·.landed) := by
  induction attempts generalizing content with
  | nil => simp [Disk.contentAfter]
  | cons a rest ih =>
      obtain ⟨ha, hrest⟩ := h
      show Disk.contentAfter (content.overwrite a.offset a.landed) rest = _
      -- the first attempt is at the end, and the rest is at the end behind it
      rw [ha, Bytes.overwrite_length, ih _ (by simpa using hrest)]
      simp

/-! ## §2. The end of a landing. -/

theorem land_offset (limit : Nat) (responses : List Response) (idle offset : Nat)
    (data : Bytes) :
    (land limit responses idle offset data).offset
      = offset + (land limit responses idle offset data).landed.length := by
  fun_induction land limit responses idle offset data with
  | case6 idle n rest offset b data ih =>
      simp only [Landing.after, Landing.landed, List.flatMap_cons, List.length_append,
        List.length_cons, List.length_take] at ih ⊢
      omega
  | _ => simp_all [Landing.after, Landing.landed]

/-- What landed is a prefix of the data. -/
theorem land_prefix (limit : Nat) (responses : List Response) (idle offset : Nat)
    (data : Bytes) : (land limit responses idle offset data).landed <+: data := by
  fun_induction land limit responses idle offset data with
  | case6 idle n rest offset b data ih =>
      obtain ⟨left, hleft⟩ := ih
      refine ⟨left, ?_⟩
      simp only [Landing.after, Landing.landed, List.flatMap_cons, List.cons_append,
        List.append_assoc] at hleft ⊢
      rw [hleft, List.take_append_drop]
  | _ => simp_all [Landing.after, Landing.landed]

/-- A complete landing leaves nothing out. -/
theorem land_complete (limit : Nat) (responses : List Response) (idle offset : Nat)
    (data : Bytes) (h : (land limit responses idle offset data).outcome = .complete) :
    (land limit responses idle offset data).landed = data := by
  fun_induction land limit responses idle offset data with
  | case6 idle n rest offset b data ih =>
      have hrest := ih h
      simp only [Landing.after, Landing.landed, List.flatMap_cons, List.cons_append] at hrest ⊢
      rw [hrest, List.take_append_drop]
  | _ => simp_all [Landing.after, Landing.landed]

/-- Where all landed, the landing is complete. -/
theorem land_complete_of_landed (limit : Nat) (responses : List Response) (idle offset : Nat)
    (data : Bytes) (h : (land limit responses idle offset data).landed = data) :
    (land limit responses idle offset data).outcome = .complete := by
  fun_induction land limit responses idle offset data with
  | case6 idle n rest offset b data ih =>
      simp only [Landing.after, Landing.landed, List.flatMap_cons, List.cons_append,
        List.cons.injEq, true_and] at h ih ⊢
      -- what comes behind the first bytes is just what they leave
      exact ih (List.append_cancel_left (h.trans (List.take_append_drop n data).symm))
  | _ => simp_all [Landing.after, Landing.landed]

/-- A disk that does what it is asked takes all at once. -/
theorem land_nil_responses (limit idle offset : Nat) (data : Bytes) :
    (land limit [] idle offset data).outcome = .complete
      ∧ (land limit [] idle offset data).rest = [] := by
  cases data <;> exact ⟨by simp [land], by simp [land]⟩

/-- A landing at the end of a content extends it by what landed. -/
theorem contentAfter_land (limit : Nat) (responses : List Response) (idle : Nat)
    (content data : Bytes) :
    Disk.contentAfter content (land limit responses idle content.length data).attempts
      = content ++ (land limit responses idle content.length data).landed :=
  contentAfter_of_contiguous content _ (land_contiguous limit responses idle _ data)

end Wiretap
