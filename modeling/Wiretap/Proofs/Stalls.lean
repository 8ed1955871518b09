/-
  Wiretap.Proofs.Stalls
  ─────────────────────
  **WHEN A LANDING GIVES UP.**

  A landing is told by the answers that the file gave to its attempts: they fix what was
  attempted (`attemptsOf`), and how it ended.  Interruptions do not count, neither as progress
  nor against it, so the end is read off the answers without them:

    • `land_attempts`        — each attempt offers what is left, and lands what was taken of it,
    • `land_stalled_iff`     — a landing stalls when nothing was taken so often in a row,
    • `land_refused_iff`     — it is refused with the first fault,
    • `land_attempts_length` — it makes so many attempts for each byte, and one for each
      interruption,
    • `land_append`          — and looks at no answer behind those,
    • `land_reports`         — all that the end of a landing tells.
-/
import Wiretap.Capture.Buffer
import Wiretap.Proofs.Landing

namespace Wiretap

/-! ## §1. Answers. -/

namespace Response

/-- How much is taken of so many bytes that are offered. -/
def taken (offered : Nat) : Response → Nat
  | .comply => offered
  | .short most => min most offered
  | .refuse _ => 0

/-- The fault that an answer reports. -/
def fault? : Response → Option Fault
  | .refuse fault => some fault
  | _ => none

/-- Whether an answer counts: an interrupted attempt is as if it had not been made. -/
def counts (answer : Response) : Bool := answer != .refuse .interrupted

end Response

/-- The attempts that some answers lead to: each offers what is left of the data where the next
byte goes, and what is taken of it lands. -/
def attemptsOf : (answers : List Response) → (offset : Nat) → Bytes → List Attempt
  | [], _, _ => []
  | answer :: answers, offset, data =>
    ⟨offset, data.take (answer.taken data.length)⟩
      :: attemptsOf answers (offset + answer.taken data.length)
        (data.drop (answer.taken data.length))

/-- The answers that were given to the attempts of a landing; a file that has no more responses
does what it is asked. -/
def Landing.answers (l : Landing) (responses : List Response) : List Response :=
  (responses ++ [Response.comply]).take l.attempts.length

/-- Nothing was taken so many times in a row, interruptions left out. -/
def Stalls (limit : Nat) (answers : List Response) : Prop :=
  List.replicate limit (.short 0) <:+: answers.filter Response.counts

theorem attempts_after (attempt : Attempt) (l : Landing) :
    (l.after attempt).attempts = attempt :: l.attempts := rfl

theorem answers_after (attempt : Attempt) (l : Landing) (answer : Response)
    (responses : List Response) :
    (l.after attempt).answers (answer :: responses) = answer :: l.answers responses := rfl

variable (limit : Nat) (responses : List Response) (idle offset : Nat) (data : Bytes)

/-- The attempts of a landing are those that the answers lead to. -/
theorem land_attempts : (land limit responses idle offset data).attempts
    = attemptsOf ((land limit responses idle offset data).answers responses) offset data := by
  fun_induction land limit responses idle offset data with
  | case1 responses idle offset => rfl
  | case2 idle offset b data => simp [Landing.answers, attemptsOf, Response.taken]
  | case3 idle rest offset b data => simp [Landing.answers, attemptsOf, Response.taken]
  | case4 rest idle offset b data hlimit => simp [Landing.answers, attemptsOf, Response.taken]
  | case5 rest idle offset b data hlimit ih =>
      rw [answers_after, attempts_after, attemptsOf, ih]
      simp [Response.taken]
  | case6 idle n rest offset b data ih =>
      have htake : (b :: data).take (min (n + 1) (data.length + 1)) = b :: data.take n := by
        rw [Nat.add_min_add_right, List.take_succ_cons, ← List.take_eq_take_min]
      have hdrop : (b :: data).drop (min (n + 1) (data.length + 1)) = data.drop n := by
        rw [Nat.add_min_add_right, List.drop_succ_cons, ← List.drop_eq_drop_min]
      rw [answers_after, attempts_after, attemptsOf, ih]
      simp only [Response.taken, List.length_cons, htake, hdrop]
  | case7 rest idle offset b data ih =>
      rw [answers_after, attempts_after, attemptsOf, ih]
      simp [Response.taken]
  | case8 fault rest idle offset b data hfault =>
      simp [Landing.answers, attemptsOf, Response.taken]

/-! ## §2. How a landing ends. -/

/-- What was taken of nothing so far does not make a stall with what follows a different
answer. -/
theorem stall_behind_iff {answer : Response} {answers : List Response}
    (hanswer : answer ≠ .short 0) {limit idle : Nat} (hidle : idle < limit) :
    List.replicate limit (.short 0) <:+: List.replicate idle (.short 0) ++ answer :: answers
      ↔ List.replicate limit (.short 0) <:+: answers := by
  -- at its place the answer ends every row that begins before it
  have hbegin : ∀ n < limit, ¬ List.replicate limit (Response.short 0)
      <+: List.replicate n (.short 0) ++ answer :: answers := by
    intro n hn hfront
    have hat := hfront.getElem (i := n) (by simpa using hn)
    simp at hat
    exact hanswer hat.symm
  induction idle with
  | zero =>
      rw [List.replicate_zero, List.nil_append, List.infix_cons_iff]
      exact or_iff_right (hbegin 0 hidle)
  | succ n ih =>
      rw [List.replicate_succ, List.cons_append, List.infix_cons_iff]
      exact (or_iff_right (hbegin (n + 1) hidle)).trans (ih (by omega))

theorem not_stall_of_length {limit idle : Nat} (hidle : idle < limit) :
    ¬ List.replicate limit (Response.short 0) <:+: List.replicate idle (.short 0) := by
  intro h
  have hlength := h.length_le
  simp only [List.length_replicate] at hlength
  omega

theorem not_stall_before {answer : Response} (hanswer : answer ≠ .short 0) {limit idle : Nat}
    (hidle : idle < limit) : ¬ List.replicate limit (Response.short 0)
      <:+: List.replicate idle (.short 0) ++ [answer] := by
  rw [stall_behind_iff hanswer hidle]
  have hnone : ¬ List.replicate limit (Response.short 0) <:+: List.replicate 0 (.short 0) :=
    not_stall_of_length (by omega)
  exact hnone

/-- **A landing stalls when nothing was taken so often in a row**, those times included that it
began with. -/
theorem land_stalled_iff (hidle : idle < limit) (n : Nat) :
    (land limit responses idle offset data).outcome = .stalled n
      ↔ n = limit ∧ List.replicate limit (.short 0) <:+: List.replicate idle (.short 0)
          ++ ((land limit responses idle offset data).answers responses).filter
            Response.counts := by
  fun_induction land limit responses idle offset data with
  | case1 responses idle offset =>
      simpa [Landing.answers] using fun _ => not_stall_of_length hidle
  | case2 idle offset b data =>
      have hanswer : Response.comply ≠ .short 0 := by simp
      exact iff_of_false (by simp) fun h => not_stall_before hanswer hidle h.2
  | case3 idle rest offset b data =>
      have hanswer : Response.comply ≠ .short 0 := by simp
      exact iff_of_false (by simp) fun h => not_stall_before hanswer hidle h.2
  | case4 rest idle offset b data hlimit =>
      -- this was the last time
      obtain rfl : limit = idle + 1 := by omega
      have hall : List.replicate (idle + 1) (Response.short 0)
          = List.replicate idle (.short 0) ++ [.short 0] := List.replicate_succ'
      show LandingEnd.stalled (idle + 1) = .stalled n ↔ n = idle + 1 ∧ _ <:+: _ ++ [_]
      rw [← hall, LandingEnd.stalled.injEq]
      exact ⟨fun h => ⟨h.symm, List.infix_rfl⟩, fun h => h.1.symm⟩
  | case5 rest idle offset b data hlimit ih =>
      -- one more time that counts
      rw [answers_after, List.filter_cons_of_pos rfl, List.append_cons, ← List.replicate_succ']
      exact ih (by omega)
  | case6 idle n' rest offset b data ih =>
      have hanswer : Response.short (n' + 1) ≠ .short 0 := by simp
      rw [answers_after, List.filter_cons_of_pos rfl, stall_behind_iff hanswer hidle]
      exact ih (by omega)
  | case7 rest idle offset b data ih =>
      rw [answers_after, List.filter_cons_of_neg (by decide)]
      exact ih hidle
  | case8 fault rest idle offset b data hfault =>
      have hcounts : Response.counts (.refuse fault) = true := by
        simpa [Response.counts] using hfault
      have hanswers : (Landing.mk [⟨offset, []⟩] offset rest (.refused fault)).answers
          (.refuse fault :: rest) = [.refuse fault] := rfl
      rw [hanswers, List.filter_cons_of_pos hcounts]
      have hanswer : Response.refuse fault ≠ .short 0 := by simp
      exact iff_of_false (by simp) fun h => not_stall_before hanswer hidle h.2

/-- **A landing is refused with the first fault** that counts. -/
theorem land_refused_iff (fault : Fault) :
    (land limit responses idle offset data).outcome = .refused fault
      ↔ (((land limit responses idle offset data).answers responses).filter
          Response.counts).findSome? Response.fault? = some fault := by
  have hcomply : ([Response.comply].filter Response.counts).findSome? Response.fault? = none := rfl
  have hshort : ([Response.short 0].filter Response.counts).findSome? Response.fault? = none := rfl
  fun_induction land limit responses idle offset data with
  | case1 responses idle offset => simp [Landing.answers]
  | case2 idle offset b data => simp [Landing.answers, hcomply]
  | case3 idle rest offset b data => simp [Landing.answers, hcomply]
  | case4 rest idle offset b data hlimit => simp [Landing.answers, hshort]
  | case5 rest idle offset b data hlimit ih => exact ih
  | case6 idle n rest offset b data ih => exact ih
  | case7 rest idle offset b data ih => exact ih
  | case8 fault' rest idle offset b data hfault =>
      have hcounts : Response.counts (.refuse fault') = true := by
        simpa [Response.counts] using hfault
      have hanswers : (Landing.mk [⟨offset, []⟩] offset rest (.refused fault')).answers
          (.refuse fault' :: rest) = [.refuse fault'] := rfl
      rw [hanswers, List.filter_cons_of_pos hcounts]
      simp [Response.fault?]

/-! ## §3. How long it takes. -/

/-- A landing makes at most `limit` attempts for each byte, less those without progress that it
began with, and one for each interruption. -/
theorem land_attempts_length (hidle : idle < limit) :
    (land limit responses idle offset data).attempts.length
      ≤ limit * data.length - idle
        + ((land limit responses idle offset data).answers responses).count
          (.refuse .interrupted) := by
  -- while a byte is left, there are attempts left
  have hroom (n : Nat) : limit ≤ limit * (n + 1) := Nat.le_mul_of_pos_right limit (by omega)
  fun_induction land limit responses idle offset data with
  | case1 responses idle offset => exact Nat.zero_le _
  | case2 idle offset b data =>
      have hleft := hroom data.length
      simp only [List.length_cons, List.length_nil]
      omega
  | case3 idle rest offset b data =>
      have hleft := hroom data.length
      simp only [List.length_cons, List.length_nil]
      omega
  | case4 rest idle offset b data hlimit =>
      have hleft := hroom data.length
      simp only [List.length_cons, List.length_nil]
      omega
  | case5 rest idle offset b data hlimit ih =>
      have hleft := hroom data.length
      have hrest := ih (by omega)
      rw [answers_after, attempts_after, List.count_cons_of_ne (by simp)]
      simp only [List.length_cons] at hrest ⊢
      omega
  | case6 idle n rest offset b data ih =>
      -- the attempts for a byte that landed pay for this one
      have hshort : limit * (data.drop n).length + limit ≤ limit * (data.length + 1) := by
        rw [← Nat.mul_succ, List.length_drop]
        exact Nat.mul_le_mul_left limit (by omega)
      have hrest := ih (by omega)
      rw [answers_after, attempts_after, List.count_cons_of_ne (by simp)]
      simp only [List.length_cons] at hrest ⊢
      omega
  | case7 rest idle offset b data ih =>
      have hrest := ih hidle
      rw [answers_after, attempts_after, List.count_cons_self]
      simp only [List.length_cons] at hrest ⊢
      omega
  | case8 fault rest idle offset b data hfault =>
      have hleft := hroom data.length
      simp only [List.length_cons, List.length_nil]
      omega

/-- Some answers settle a landing: whatever the file would answer behind them is left over. -/
def Settle (limit idle offset : Nat) (data : Bytes) (answers : List Response) : Prop :=
  ∀ later, land limit (answers ++ later) idle offset data
    = { land limit answers idle offset data with
        rest := (land limit answers idle offset data).rest ++ later }

/-- A landing is settled by the answers that it was given. -/
theorem settle_of_attempts_length
    (h : (land limit responses idle offset data).attempts.length ≤ responses.length) :
    Settle limit idle offset data responses := by
  intro later
  fun_induction land limit responses idle offset data with
  | case1 responses idle offset => rw [land]
  | case2 idle offset b data => exact absurd h (by simp)
  | case3 idle rest offset b data => rw [List.cons_append, land]
  | case4 rest idle offset b data hlimit => rw [List.cons_append, land, if_pos hlimit]
  | case5 rest idle offset b data hlimit ih =>
      rw [List.cons_append, land, if_neg hlimit, ih (by simpa [attempts_after] using h)]
      rfl
  | case6 idle n rest offset b data ih =>
      rw [List.cons_append, land, ih (by simpa [attempts_after] using h)]
      rfl
  | case7 rest idle offset b data ih =>
      rw [List.cons_append, land, if_pos rfl, ih (by simpa [attempts_after] using h)]
      rfl
  | case8 fault rest idle offset b data hfault => rw [List.cons_append, land, if_neg hfault]

/-- So many answers settle a landing as there may be attempts, when no more of them are
interruptions than were allowed for. -/
theorem settle_of_interruptions {interruptions : Nat} (hlimit : 0 < limit)
    (hfew : responses.count (.refuse .interrupted) ≤ interruptions)
    (hmany : limit * data.length + interruptions ≤ responses.length) :
    Settle limit 0 offset data responses := by
  refine settle_of_attempts_length limit responses 0 offset data ?_
  have hlength := land_attempts_length limit responses 0 offset data hlimit
  -- the answer of a file without responses is no interruption
  have hcount : ((land limit responses 0 offset data).answers responses).count
      (.refuse .interrupted) ≤ responses.count (.refuse .interrupted) := by
    calc _ ≤ (responses ++ [Response.comply]).count (.refuse .interrupted) :=
          (List.take_sublist _ _).count_le _
      _ = responses.count (.refuse .interrupted) := by simp
  omega

/-! ## §4. What the end of a landing tells. -/

/-- No attempt of some that stand one behind the other ends behind the last of them. -/
theorem Contiguous.end_le {offset : Nat} {attempts : List Attempt}
    (h : Contiguous offset attempts) {a : Attempt} (ha : a ∈ attempts) :
    a.offset + a.landed.length ≤ offset + (attempts.flatMap (·.landed)).length := by
  induction attempts generalizing offset with
  | nil => cases ha
  | cons first rest ih =>
      obtain ⟨hoffset, hrest⟩ := h
      rw [List.flatMap_cons, List.length_append]
      rcases List.mem_cons.mp ha with rfl | ha
      · omega
      · have hle := ih hrest ha
        omega

namespace LandingEnd

variable {ending : LandingEnd} {path : Path} {offset : Nat}

theorem check_eq_ok_iff : ending.check path offset = .ok () ↔ ending = .complete := by
  cases ending <;> simp [check]

theorem check_eq_stalled_iff {place attempts : Nat} :
    ending.check path offset = .error (.stalled path place attempts)
      ↔ place = offset ∧ ending = .stalled attempts := by
  cases ending <;> simp [check, eq_comm]

theorem check_eq_disk_iff {fault : Fault} :
    ending.check path offset = .error (.disk path fault) ↔ ending = .refused fault := by
  cases ending <;> simp [check]

theorem check_error {failure : CaptureFailure} (h : ending.check path offset = .error failure) :
    (∃ attempts, ending = .stalled attempts ∧ failure = .stalled path offset attempts)
      ∨ ∃ fault, failure = .disk path fault := by
  cases ending with
  | complete => cases h
  | stalled attempts =>
      cases h
      exact Or.inl ⟨attempts, rfl, rfl⟩
  | refused fault =>
      cases h
      exact Or.inr ⟨fault, rfl⟩

end LandingEnd

/-- **What a landing in a capture file reports.**  Each of its attempts offers what is left of the
data, right behind what landed before, and what landed of them all is a beginning of the data; the
offset is behind that, and no sum on the way to it is too large for a word.  It succeeds when all
landed; it fails as stalled, at that offset and with ten attempts, when ten attempts took nothing
and none between them took anything; and else with the first fault that is no interruption.  It
makes ten attempts for each byte at most, and one for each interruption; and so many answers settle
the landing in a file that goes on to answer, with so many interruptions at most. -/
theorem land_reports {offset : Nat} {data : Bytes} (hsize : offset + data.length < UInt64.size)
    (responses : List Response) (path : Path) :
    let l := land maxIdleAttempts responses 0 offset data
    let answers := l.answers responses
    let report := l.outcome.check path l.offset
    (l.attempts = attemptsOf answers offset data ∧ Contiguous offset l.attempts)
      ∧ (l.landed <+: data ∧ l.offset = offset + l.landed.length)
      ∧ (∀ a ∈ l.attempts, a.offset + a.landed.length < UInt64.size)
      ∧ (report = .ok () ↔ l.landed = data)
      ∧ (∀ place attempts, report = .error (.stalled path place attempts)
          ↔ (place = l.offset ∧ attempts = 10) ∧ Stalls 10 answers)
      ∧ (∀ fault, report = .error (.disk path fault)
          ↔ (answers.filter Response.counts).findSome? Response.fault? = some fault)
      ∧ (∀ failure, report = .error failure →
          failure = .stalled path l.offset 10 ∨ ∃ fault, failure = .disk path fault)
      ∧ l.attempts.length ≤ 10 * data.length + answers.count (.refuse .interrupted)
      ∧ ∀ (file : Nat → Response) (interruptions : Nat),
          (∀ n, ((List.range n).map file).count (.refuse .interrupted) ≤ interruptions) →
          Settle maxIdleAttempts 0 offset data
            ((List.range (10 * data.length + interruptions)).map file) := by
  intro l answers report
  have hcontiguous := land_contiguous maxIdleAttempts responses 0 offset data
  have hfront := land_prefix maxIdleAttempts responses 0 offset data
  have hoffset := land_offset maxIdleAttempts responses 0 offset data
  have hstalled := land_stalled_iff maxIdleAttempts responses 0 offset data (by decide)
  have hrefused := land_refused_iff maxIdleAttempts responses 0 offset data
  have hlength := land_attempts_length maxIdleAttempts responses 0 offset data (by decide)
  refine ⟨⟨land_attempts maxIdleAttempts responses 0 offset data, hcontiguous⟩,
    ⟨hfront, hoffset⟩, fun a ha => ?_, ?_, fun place attempts => ?_, fun fault => ?_,
    fun failure h => ?_, hlength, fun file interruptions hfew => ?_⟩
  · have hend := hcontiguous.end_le ha
    have hlanded := hfront.length_le
    simp only [Landing.landed] at hlanded
    omega
  · exact LandingEnd.check_eq_ok_iff.trans
      ⟨land_complete maxIdleAttempts responses 0 offset data,
        land_complete_of_landed maxIdleAttempts responses 0 offset data⟩
  · exact LandingEnd.check_eq_stalled_iff.trans
      ((and_congr_right fun _ => hstalled attempts).trans and_assoc.symm)
  · exact LandingEnd.check_eq_disk_iff.trans (hrefused fault)
  · rcases LandingEnd.check_error h with ⟨attempts, hending, rfl⟩ | hdisk
    · obtain ⟨rfl, -⟩ := (hstalled attempts).mp hending
      exact Or.inl rfl
    · exact Or.inr hdisk
  · refine settle_of_interruptions maxIdleAttempts _ offset data (by decide) (hfew _) ?_
    simp [maxIdleAttempts]

/-- The same of three bytes that a file takes in pieces: interruptions, and nine times in a row
nothing, do not end it, but ten do. -/
theorem land_reports_of_interruptions :
    let idle := List.replicate 9 (Response.short 0)
    let responses := Response.short 1 :: idle ++ [.refuse .interrupted, .short 1]
      ++ idle ++ [.refuse .interrupted, .short 0, .comply]
    let l := land maxIdleAttempts responses 0 4 [97, 98, 99]
    4 + ([97, 98, 99] : Bytes).length < UInt64.size ∧ l.landed = [97, 98]
      ∧ l.outcome.check (.ofText "/b/x_request.raw") l.offset
        = .error (.stalled (.ofText "/b/x_request.raw") 6 10)
      ∧ l.attempts.length ≤ 30 + 2 := by
  intro idle responses l
  have hsize : 4 + ([97, 98, 99] : Bytes).length < UInt64.size := by decide
  obtain ⟨-, -, -, -, hstalled, -, -, hlength, -⟩ :=
    land_reports hsize responses (.ofText "/b/x_request.raw")
  have hoffset : l.offset = 6 := by decide +kernel
  have hstalls : Stalls 10 (l.answers responses) := by
    unfold Stalls
    decide +kernel
  have hcount : (l.answers responses).count (.refuse .interrupted) = 2 := by decide +kernel
  refine ⟨hsize, by decide +kernel, ?_, ?_⟩
  · exact (hstalled 6 10).mpr ⟨⟨hoffset.symm, rfl⟩, hstalls⟩
  · rwa [hcount] at hlength

end Wiretap
