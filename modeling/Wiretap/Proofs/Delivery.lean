/-
  Wiretap.Proofs.Delivery
  ───────────────────────
  **A RESPONSE BODY ENDS ITS EXCHANGE ONCE.**

  A response body passes on what its stream answers, and at one moment of its life it hands its
  exchange to the log.  That life is compared with the one of the bare stream in the same
  traffic (`Flow`); they differ in that one moment, and which one it is follows from the answers
  alone (`Decides`).  At that moment the log is seen to take one record, and at no other:

    • `ResponseBody.observe_cases` — what an answer means for an exchange that is not over,
    • `Flow.run_log`               — a bare stream tells the log nothing,
    • `Flow.exists_answers`        — answers of any kind come in any order,
    • `Delivery.run_over`          — a body whose exchange is over only passes on,
    • `Delivery.Waiting.run`       — any other waits for the first answer that decides,
    • `Delivery.completes_once`    — the whole life of a body.
-/
import Wiretap.Exchange.Stream
import Wiretap.Proofs.Receipts

namespace Wiretap

/-! ## §1. What decides. -/

/-- The bytes that an answer yields. -/
def Polled.bytes : Polled → Bytes
  | .item (.chunk bytes) => bytes
  | _ => []

/-- How many bytes some answers yield. -/
def amountOf (answers : List Polled) : Nat := (answers.flatMap Polled.bytes).length

theorem amountOf_concat (answers : List Polled) (answer : Polled) :
    amountOf (answers ++ [answer]) = amountOf answers + answer.bytes.length := by
  simp [amountOf]

/-- An answer that comes behind others means that the exchange is over, with an exception or
none: the stream ends, or fails, or has yielded all bytes that were declared. -/
inductive Decides (expected : Option Nat) (earlier : List Polled) :
    Polled → Option String → Prop
  | ends : Decides expected earlier .finished none
  | fails {message : String} : Decides expected earlier (.item (.failed message))
      (some (ResponseBody.failureMessage message))
  | suffices {bytes : Bytes} {declared : Nat} (hexpected : expected = some declared)
      (hall : declared ≤ amountOf earlier + bytes.length) :
      Decides expected earlier (.item (.chunk bytes)) none

/-- No answer has decided, each seen behind those before it. -/
def Undecided (expected : Option Nat) (answers : List Polled) : Prop :=
  ∀ k answer, answers[k]? = some answer
    → ∀ exception, ¬ Decides expected (answers.take k) answer exception

theorem undecided_nil (expected : Option Nat) : Undecided expected [] := fun k _ hk => by simp at hk

theorem Undecided.concat {expected : Option Nat} {answers : List Polled} {answer : Polled}
    (h : Undecided expected answers)
    (hnot : ∀ exception, ¬ Decides expected answers answer exception) :
    Undecided expected (answers ++ [answer]) := by
  intro k last hk
  by_cases hlt : k < answers.length
  · rw [List.getElem?_append_left hlt] at hk
    rw [List.take_append_of_le_length (Nat.le_of_lt hlt)]
    exact h k last hk
  · -- the last of them
    have hlast : k = answers.length ∧ answer = last := by
      rw [List.getElem?_append_right (Nat.not_lt.mp hlt), List.getElem?_singleton] at hk
      split at hk
      next hzero => exact ⟨by omega, Option.some.inj hk⟩
      next => cases hk
    obtain ⟨rfl, rfl⟩ := hlast
    rwa [List.take_left]

/-! ## §2. One answer. -/

namespace Guard

variable {g : Guard} {e : CompletedExchange} {taps : List Nat}

theorem complete_of_over (hover : g.pending = none) (t : Traffic) (exception : Option String)
    (elapsed : Time.Span) : g.complete t exception elapsed = (g, t) := by
  simp only [complete, hover]

theorem complete_of_pending (hpending : g.pending = some (e, taps)) (t : Traffic)
    (exception : Option String) (elapsed : Time.Span) :
    g.complete t exception elapsed = (⟨none⟩, t.conclude (e.over elapsed exception) taps) := by
  simp only [complete, hpending]
  rfl

end Guard

namespace ResponseBody

variable {b : ResponseBody} {expected : Option Nat} {earlier : List Polled}
variable {e : CompletedExchange} {taps : List Nat}

/-- The exchange of a body is not over, and the countdown tells what has come through: fewer
bytes than were declared. -/
structure Waits (expected : Option Nat) (earlier : List Polled) (e : CompletedExchange)
    (taps : List Nat) (b : ResponseBody) : Prop where
  pending : b.guard.pending = some (e, taps)
  remaining : b.remaining = expected.map (· - amountOf earlier)
  short : ∀ declared, expected = some declared → amountOf earlier < declared

/-- Once the exchange is over, no answer means anything. -/
theorem observe_of_over (hover : b.guard.pending = none) (answer : Polled) (t : Traffic)
    (elapsed : Time.Span) :
    (b.observe answer t elapsed).2 = t
      ∧ (b.observe answer t elapsed).1.stream = b.stream
      ∧ (b.observe answer t elapsed).1.guard.pending = none := by
  have hnothing (exception : Option String) :
      b.guard.complete t exception elapsed = (b.guard, t) := Guard.complete_of_over hover t _ _
  unfold observe
  cases answer with
  | pending => exact ⟨rfl, rfl, hover⟩
  | finished =>
      simp only [hnothing]
      exact ⟨trivial, trivial, hover⟩
  | item i =>
      cases i with
      | failed message =>
          simp only [hnothing]
          exact ⟨trivial, trivial, hover⟩
      | chunk bytes =>
          cases b.remaining with
          | none => exact ⟨rfl, rfl, hover⟩
          | some remaining =>
              simp only [hnothing]
              split
              next => exact ⟨rfl, rfl, hover⟩
              next => exact ⟨rfl, rfl, hover⟩

/-- **What an answer means** for an exchange that is not over: it decides, and the exchange is
handed to the log with the exception that this means; or it does not, and the body waits on. -/
theorem observe_cases (h : b.Waits expected earlier e taps) (answer : Polled) (t : Traffic)
    (elapsed : Time.Span) :
    (b.observe answer t elapsed).1.stream = b.stream
      ∧ ((∃ exception, Decides expected earlier answer exception
          ∧ (b.observe answer t elapsed).2 = t.conclude (e.over elapsed exception) taps
          ∧ (b.observe answer t elapsed).1.guard.pending = none)
        ∨ ((∀ exception, ¬ Decides expected earlier answer exception)
          ∧ (b.observe answer t elapsed).2 = t
          ∧ (b.observe answer t elapsed).1.Waits expected (earlier ++ [answer]) e taps)) := by
  obtain ⟨hpending, hremaining, hshort⟩ := h
  have hends (exception : Option String) : b.guard.complete t exception elapsed
      = (⟨none⟩, t.conclude (e.over elapsed exception) taps) :=
    Guard.complete_of_pending hpending t _ _
  -- an answer without bytes leaves the countdown where it is
  have hwaits (hempty : answer.bytes = []) : b.Waits expected (earlier ++ [answer]) e taps := by
    refine ⟨hpending, ?_, ?_⟩
    · rw [amountOf_concat, hempty, hremaining]
      rfl
    · rw [amountOf_concat, hempty]
      exact hshort
  unfold observe
  cases answer with
  | pending => exact ⟨rfl, Or.inr ⟨nofun, rfl, hwaits rfl⟩⟩
  | finished =>
      simp only [hends]
      exact ⟨trivial, Or.inl ⟨none, .ends, rfl, trivial⟩⟩
  | item i =>
      cases i with
      | failed message =>
          simp only [hends]
          exact ⟨trivial, Or.inl ⟨_, .fails, rfl, trivial⟩⟩
      | chunk bytes =>
          cases expected with
          | none =>
              rw [Option.map_none] at hremaining
              simp only [hremaining]
              refine ⟨trivial, Or.inr ⟨?_, trivial, hpending, hremaining, nofun⟩⟩
              rintro exception (_ | _ | ⟨hexpected, -⟩)
              cases hexpected
          | some declared =>
              rw [Option.map_some] at hremaining
              simp only [hremaining, hends]
              -- the countdown is at zero when as many bytes have come through as were declared
              by_cases hall : declared ≤ amountOf earlier + bytes.length
              · rw [if_pos (by omega)]
                exact ⟨rfl, Or.inl ⟨none, .suffices rfl hall, rfl, rfl⟩⟩
              · rw [if_neg (by omega)]
                refine ⟨rfl, Or.inr ⟨?_, rfl, hpending, ?_, ?_⟩⟩
                · rintro exception (_ | _ | ⟨hexpected, hall'⟩)
                  cases hexpected
                  exact hall hall'
                · rw [amountOf_concat]
                  exact congrArg some (Nat.sub_sub ..)
                · intro declared' hexpected
                  cases hexpected
                  rw [amountOf_concat]
                  exact Nat.not_le.mp hall

end ResponseBody

/-! ## §3. Lives. -/

/-- One thing that happens while a body is on its way. -/
inductive Happening
  /-- The body is asked, so long after its exchange began. -/
  | asked (elapsed : Time.Span)
  /-- Something else goes on, in the traffic or in the stream: what that answers next may be
  anything. -/
  | beside (change : BodyStream × Traffic → BodyStream × Traffic)

/-- What can be seen of the log is as it was. -/
def Happening.LeavesLog : Happening → Prop
  | .asked _ => True
  | .beside change => ∀ p, (change p).2.site.log = p.2.site.log

/-- A stream in the midst of traffic, and what it answered so far. -/
structure Flow where
  stream : BodyStream
  traffic : Traffic
  answers : List Polled

namespace Flow

def step (f : Flow) : Happening → Flow
  | .asked _ =>
    let (answer, stream, traffic) := f.stream.poll f.traffic
    ⟨stream, traffic, f.answers ++ [answer]⟩
  | .beside change =>
    let (stream, traffic) := change (f.stream, f.traffic)
    { f with stream, traffic }

def run (f : Flow) (happenings : List Happening) : Flow := happenings.foldl step f

/-- Asking the stream of a body tells the log nothing. -/
theorem poll_log (s : BodyStream) (t : Traffic) : (s.poll t).2.2.site.log = t.site.log := by
  unfold BodyStream.poll
  split
  next => rfl
  next =>
    split
    next => rfl
    next =>
      dsimp only
      split
      next number bytes _ =>
        split
        next =>
          unfold Traffic.writeTap
          split <;> rfl
        next => rfl
      next => rfl

theorem run_log (f : Flow) {happenings : List Happening}
    (h : ∀ happening ∈ happenings, happening.LeavesLog) :
    (f.run happenings).traffic.site.log = f.traffic.site.log := by
  induction happenings generalizing f with
  | nil => rfl
  | cons happening rest ih =>
      obtain ⟨hfirst, hrest⟩ := List.forall_mem_cons.mp h
      refine (ih (f.step happening) hrest).trans ?_
      cases happening with
      | asked elapsed => exact poll_log f.stream f.traffic
      | beside change => exact hfirst (f.stream, f.traffic)

/-- An exchange is handed to the log. -/
def conclude (f : Flow) (e : CompletedExchange) (taps : List Nat) : Flow :=
  { f with traffic := f.traffic.conclude e taps }

/-- Answers of any kind can follow one another, also behind a failure or the end. -/
theorem exists_answers (f : Flow) (answers : List Polled) :
    ∃ happenings, (f.run happenings).answers = f.answers ++ answers
      ∧ (f.run happenings).traffic = f.traffic := by
  induction answers generalizing f with
  | nil => exact ⟨[], (List.append_nil _).symm, rfl⟩
  | cons answer rest ih =>
      -- a stream that gives this answer next takes the place of the one that is there
      obtain ⟨stream, stream', hpoll⟩ : ∃ stream stream' : BodyStream,
          stream.poll f.traffic = (answer, stream', f.traffic) := by
        cases answer with
        | pending => exact ⟨.plain [] true, _, rfl⟩
        | finished => exact ⟨.plain [] false, _, rfl⟩
        | item i => exact ⟨.plain [i] false, _, rfl⟩
      obtain ⟨happenings, hanswers, htraffic⟩ :=
        ih ⟨stream', f.traffic, f.answers ++ [answer]⟩
      have hstep : f.run (.beside (fun _ => (stream, f.traffic)) :: .asked .zero :: happenings)
          = Flow.run ⟨stream', f.traffic, f.answers ++ [answer]⟩ happenings := by
        show ((f.step (.beside fun _ => (stream, f.traffic))).step (.asked .zero)).run happenings
          = _
        simp only [step, hpoll]
      refine ⟨.beside (fun _ => (stream, f.traffic)) :: .asked .zero :: happenings, ?_, ?_⟩
      · rw [hstep, hanswers, List.append_assoc]
        rfl
      · rw [hstep, htraffic]

end Flow

/-- A response body in the midst of traffic, and what it passed on so far. -/
structure Delivery where
  body : ResponseBody
  traffic : Traffic
  passed : List Polled

namespace Delivery

variable {d : Delivery} {expected : Option Nat} {e : CompletedExchange} {taps : List Nat}

/-- A body begins its life. -/
def start (stream : BodyStream) (guard : Guard) (expected : Option Nat) (t : Traffic)
    (elapsed : Time.Span) : Delivery :=
  let (body, traffic) := ResponseBody.start stream guard expected t elapsed
  ⟨body, traffic, []⟩

def step (d : Delivery) : Happening → Delivery
  | .asked elapsed =>
    let (answer, body, traffic) := d.body.poll d.traffic elapsed
    ⟨body, traffic, d.passed ++ [answer]⟩
  | .beside change =>
    let (stream, traffic) := change (d.body.stream, d.traffic)
    { d with body := { d.body with stream }, traffic }

def run (d : Delivery) (happenings : List Happening) : Delivery := happenings.foldl step d

/-- The body is let go of. -/
def drop (d : Delivery) (elapsed : Time.Span) : Traffic := d.body.drop d.traffic elapsed

/-- The stream of a body, and what was passed on of it. -/
def flow (d : Delivery) : Flow := ⟨d.body.stream, d.traffic, d.passed⟩

/-- The exchange is not over, and no answer has decided. -/
structure Waiting (expected : Option Nat) (e : CompletedExchange) (taps : List Nat)
    (d : Delivery) : Prop where
  waits : d.body.Waits expected d.passed e taps
  undecided : Undecided expected d.passed

/-- Asking a body is asking its stream, and seeing what the answer means. -/
theorem step_asked (d : Delivery) (elapsed : Time.Span) :
    ∃ answer stream t, d.flow.step (.asked elapsed) = ⟨stream, t, d.passed ++ [answer]⟩
      ∧ d.step (.asked elapsed)
        = ⟨({ d.body with stream }.observe answer t elapsed).1,
          ({ d.body with stream }.observe answer t elapsed).2, d.passed ++ [answer]⟩ :=
  ⟨_, _, _, rfl, rfl⟩

/-- A body whose exchange is over does with each thing that happens what its stream does. -/
theorem step_over (hover : d.body.guard.pending = none) (happening : Happening) :
    (d.step happening).flow = d.flow.step happening
      ∧ (d.step happening).body.guard.pending = none := by
  cases happening with
  | asked elapsed =>
      obtain ⟨answer, stream, t, hflow, hstep⟩ := d.step_asked elapsed
      obtain ⟨htraffic, hstream, hover'⟩ :=
        ResponseBody.observe_of_over (b := { d.body with stream }) hover answer t elapsed
      rw [hstep, hflow]
      refine ⟨?_, hover'⟩
      unfold flow
      dsimp only
      rw [htraffic, hstream]
  | beside change => exact ⟨rfl, hover⟩

theorem run_over (hover : d.body.guard.pending = none) (happenings : List Happening) :
    (d.run happenings).flow = d.flow.run happenings
      ∧ (d.run happenings).body.guard.pending = none := by
  induction happenings generalizing d with
  | nil => exact ⟨rfl, hover⟩
  | cons happening rest ih =>
      obtain ⟨hflow, hover'⟩ := step_over hover happening
      obtain ⟨hrun, hend⟩ := ih hover'
      refine ⟨?_, hend⟩
      show ((d.step happening).run rest).flow = (d.flow.step happening).run rest
      rw [hrun, hflow]

/-- A body that waits does with each thing that happens what its stream does; and unless it
waits on, it was asked, and the answer decided. -/
theorem Waiting.step (h : d.Waiting expected e taps) (happening : Happening) :
    ((d.step happening).Waiting expected e taps
        ∧ (d.step happening).flow = d.flow.step happening)
      ∨ ∃ elapsed answer exception, happening = .asked elapsed
        ∧ (d.flow.step happening).answers = d.passed ++ [answer]
        ∧ Decides expected d.passed answer exception
        ∧ (d.step happening).flow
          = (d.flow.step happening).conclude (e.over elapsed exception) taps
        ∧ (d.step happening).body.guard.pending = none := by
  cases happening with
  | asked elapsed =>
      obtain ⟨answer, stream, t, hflow, hstep⟩ := d.step_asked elapsed
      have hwaits : ({ d.body with stream } : ResponseBody).Waits expected d.passed e taps :=
        ⟨h.waits.pending, h.waits.remaining, h.waits.short⟩
      rw [hstep, hflow]
      unfold flow Flow.conclude
      dsimp only
      obtain ⟨hstream, ⟨exception, hdecides, htraffic, hover⟩ | ⟨hnot, htraffic, hwaits'⟩⟩ :=
        ResponseBody.observe_cases hwaits answer t elapsed
      · refine Or.inr ⟨elapsed, answer, exception, rfl, rfl, hdecides, ?_, hover⟩
        rw [htraffic, hstream]
      · refine Or.inl ⟨⟨hwaits', h.undecided.concat hnot⟩, ?_⟩
        rw [htraffic, hstream]
  | beside change =>
      exact Or.inl ⟨⟨⟨h.waits.pending, h.waits.remaining, h.waits.short⟩, h.undecided⟩, rfl⟩

/-- **A body that waits** does what its stream does, until the first answer comes that decides;
then its exchange is handed to the log, and it goes on. -/
theorem Waiting.run (h : d.Waiting expected e taps) (happenings : List Happening) :
    ((d.run happenings).Waiting expected e taps
        ∧ (d.run happenings).flow = d.flow.run happenings)
      ∨ ∃ earlier rest answers answer elapsed exception,
        happenings = earlier ++ .asked elapsed :: rest
        ∧ (d.flow.run (earlier ++ [.asked elapsed])).answers = answers ++ [answer]
        ∧ Undecided expected answers ∧ Decides expected answers answer exception
        ∧ (d.run happenings).flow = ((d.flow.run (earlier ++ [.asked elapsed])).conclude
          (e.over elapsed exception) taps).run rest
        ∧ (d.run happenings).body.guard.pending = none := by
  induction happenings generalizing d with
  | nil => exact Or.inl ⟨h, rfl⟩
  | cons happening rest ih =>
      rcases h.step happening with
        ⟨hwaiting, hflow⟩ | ⟨elapsed, answer, exception, rfl, hanswers, hdecides, hflow, hover⟩
      · -- it waits on, and what was split off the rest is split off the whole
        rcases ih hwaiting with ⟨hend, hrun⟩
          | ⟨earlier, later, answers, answer, elapsed, exception, rfl, hanswers, hfirst, hdecides,
              hrun, hover⟩
        · refine Or.inl ⟨hend, ?_⟩
          rw [hflow] at hrun
          exact hrun
        · rw [hflow] at hanswers hrun
          exact Or.inr ⟨happening :: earlier, later, answers, answer, elapsed, exception, rfl,
            hanswers, hfirst, hdecides, hrun, hover⟩
      · obtain ⟨hrun, hend⟩ := run_over hover rest
        rw [hflow] at hrun
        exact Or.inr ⟨[], rest, d.passed, answer, elapsed, exception, rfl, hanswers, h.undecided,
          hdecides, hrun, hend⟩

/-! ## §4. The whole life. -/

/-- The moment in the life of a body at which its exchange is over: the answers of its stream up
to then, how long the exchange lasted, and the exception. -/
inductive Moment (expected : Option Nat) (begun gone : Time.Span) :
    (upto rest : List Happening) → List Polled → Time.Span → Option String → Prop
  /-- At once, since there is nothing to yield. -/
  | atOnce {rest : List Happening} (hnothing : expected = some 0) :
      Moment expected begun gone [] rest [] begun none
  /-- When it is asked and the first answer comes that decides. -/
  | asked {earlier rest : List Happening} {answers : List Polled} {answer : Polled}
      {elapsed : Time.Span} {exception : Option String} (hsomething : expected ≠ some 0)
      (hfirst : Undecided expected answers) (hdecides : Decides expected answers answer exception) :
      Moment expected begun gone (earlier ++ [.asked elapsed]) rest (answers ++ [answer]) elapsed
        exception
  /-- When it is let go of, where none did. -/
  | dropped {all : List Happening} {answers : List Polled} (hsomething : expected ≠ some 0)
      (hnever : Undecided expected answers) :
      Moment expected begun gone all [] answers gone (some Guard.abortedMessage)

theorem drop_of_over (hover : d.body.guard.pending = none) (elapsed : Time.Span) :
    d.drop elapsed = d.traffic := by
  unfold drop ResponseBody.drop Guard.drop
  rw [Guard.complete_of_over hover]

/-- A body that is let go of while it waits hands its exchange to the log as aborted. -/
theorem Waiting.drop (h : d.Waiting expected e taps) (elapsed : Time.Span) :
    d.drop elapsed
      = d.traffic.conclude (e.over elapsed (some Guard.abortedMessage)) taps := by
  unfold Delivery.drop ResponseBody.drop Guard.drop
  rw [Guard.complete_of_pending h.waits.pending]

/-- An exchange whose response has no bytes is over at once, and any other waits. -/
theorem start_cases (stream : BodyStream) (e : CompletedExchange) (taps : List Nat)
    (expected : Option Nat) (t : Traffic) (elapsed : Time.Span) :
    (expected = some 0
        ∧ (start stream ⟨some (e, taps)⟩ expected t elapsed).flow
          = Flow.conclude ⟨stream, t, []⟩ (e.over elapsed none) taps
        ∧ (start stream ⟨some (e, taps)⟩ expected t elapsed).body.guard.pending = none)
      ∨ (expected ≠ some 0
        ∧ (start stream ⟨some (e, taps)⟩ expected t elapsed).flow = ⟨stream, t, []⟩
        ∧ (start stream ⟨some (e, taps)⟩ expected t elapsed).Waiting expected e taps) := by
  unfold start ResponseBody.start
  by_cases hnothing : expected = some 0
  · rw [if_pos hnothing, Guard.complete_of_pending rfl]
    exact Or.inl ⟨hnothing, rfl, rfl⟩
  · rw [if_neg hnothing]
    refine Or.inr ⟨hnothing, rfl, ⟨rfl, ?_, ?_⟩, undecided_nil expected⟩
    · cases expected <;> rfl
    · rintro declared rfl
      exact Nat.pos_of_ne_zero fun hzero => hnothing (congrArg some hzero)

/-- A body passes on what the bare stream answers in the same traffic, but that at one moment its
exchange is over. -/
theorem concludes_once (stream : BodyStream) (e : CompletedExchange) (taps : List Nat)
    (expected : Option Nat) (t : Traffic) (begun gone : Time.Span)
    (happenings : List Happening) :
    let d := (start stream ⟨some (e, taps)⟩ expected t begun).run happenings
    ∃ upto rest elapsed exception,
      let before := Flow.run ⟨stream, t, []⟩ upto
      let after := (before.conclude (e.over elapsed exception) taps).run rest
      happenings = upto ++ rest
        ∧ Moment expected begun gone upto rest before.answers elapsed exception
        ∧ d.passed = after.answers ∧ d.drop gone = after.traffic := by
  intro d
  rcases start_cases stream e taps expected t begun with
    ⟨hnothing, hflow, hover⟩ | ⟨hsomething, hflow, hwaiting⟩
  · obtain ⟨hrun, hend⟩ := run_over hover happenings
    rw [hflow] at hrun
    refine ⟨[], happenings, begun, none, rfl, .atOnce hnothing, congrArg Flow.answers hrun, ?_⟩
    exact (drop_of_over hend gone).trans (congrArg Flow.traffic hrun)
  · rcases hwaiting.run happenings with ⟨hend, hrun⟩
      | ⟨earlier, rest, answers, answer, elapsed, exception, hsplit, hanswers, hfirst, hdecides,
          hrun, hend⟩
    · rw [hflow] at hrun
      refine ⟨happenings, [], gone, some Guard.abortedMessage, (List.append_nil _).symm, ?_,
        congrArg Flow.answers hrun, ?_⟩
      · rw [← hrun]
        exact .dropped hsomething hend.undecided
      · rw [← hrun]
        exact hend.drop gone
    · rw [hflow] at hanswers hrun
      refine ⟨earlier ++ [Happening.asked elapsed], rest, elapsed, exception, ?_, ?_,
        congrArg Flow.answers hrun, ?_⟩
      · rw [hsplit, List.append_assoc]
        rfl
      · rw [hanswers]
        exact .asked hsomething hfirst hdecides
      · exact (drop_of_over hend gone).trans (congrArg Flow.traffic hrun)

/-- **Each exchange is handed to the log once, and for the right reason.**  Whatever its stream
answers, and whatever else goes on, a body passes on just what the bare stream answers in the
same traffic; and its exchange is handed to the log at one moment of its life: when there is
nothing to yield, else when the first answer comes that decides, else when the body is let go of.
Then the log takes one record, which tells of the exchange and why it is over.  Where nothing else
touches the log, it is up to then as it was in the beginning, and in the end as it is then. -/
theorem completes_once (stream : BodyStream) (e : CompletedExchange) (taps : List Nat)
    (expected : Option Nat) (t : Traffic) (begun gone : Time.Span)
    (happenings : List Happening) :
    let d := (start stream ⟨some (e, taps)⟩ expected t begun).run happenings
    ∃ upto rest elapsed exception record handed,
      let before := Flow.run ⟨stream, t, []⟩ upto
      let after := Flow.run { before with traffic := handed } rest
      happenings = upto ++ rest
        ∧ Moment expected begun gone upto rest before.answers elapsed exception
        ∧ before.traffic.Concludes handed taps record ∧ record.TellsOf e elapsed exception
        ∧ d.passed = after.answers ∧ d.drop gone = after.traffic
        ∧ ((∀ happening ∈ happenings, happening.LeavesLog) →
          before.traffic.site.log = t.site.log ∧ (d.drop gone).site.log = handed.site.log) := by
  intro d
  obtain ⟨upto, rest, elapsed, exception, hsplit, hmoment, hpassed, hdrop⟩ :=
    concludes_once stream e taps expected t begun gone happenings
  obtain ⟨record, hconcludes, htells⟩ := (Flow.run ⟨stream, t, []⟩ upto).traffic.conclude_concludes
    e taps elapsed exception
  refine ⟨upto, rest, elapsed, exception, record, _, hsplit, hmoment, hconcludes, htells, hpassed,
    hdrop, fun hleaves => ?_⟩
  rw [hsplit] at hleaves
  rw [hdrop]
  exact ⟨Flow.run_log _ fun h hmem => hleaves h (List.mem_append_left _ hmem),
    Flow.run_log _ fun h hmem => hleaves h (List.mem_append_right _ hmem)⟩

/-- Traffic without taps, and a log with one sink. -/
def observed : Traffic :=
  ⟨⟨⟨⟨.ofDirectories [["b"]] [], ⟨true, .ofText "/b", 16, .both ∅⟩, .zero⟩,
    ⟨[.events], [], .idle, 0⟩, []⟩, none⟩, ⟨.empty, none⟩, []⟩

/-- An exchange that has got a response. -/
def answered : CompletedExchange :=
  ⟨⟨"x"⟩, "GET", "/", "all", none, some 200, .empty, .empty, ⟨0, 0⟩, .zero, none, none, none⟩

/-- A stream that yields two bytes, fails, and goes on all the same. -/
def unsteady : BodyStream := .plain [.chunk [1, 2], .failed "late", .chunk [3]] false

/-- Of this stream the two bytes come first, and it leaves the traffic alone. -/
theorem unsteady_run {upto rest : List Happening}
    (h : [.asked .zero, .asked .zero, .asked .zero, .asked .zero] = upto ++ rest) :
    (Flow.run ⟨unsteady, observed, []⟩ upto).traffic = observed
      ∧ (upto ≠ [] → (Flow.run ⟨unsteady, observed, []⟩ upto).answers[0]?
        = some (.item (.chunk [1, 2]))) := by
  have hupto : upto = List.take upto.length
      [.asked .zero, .asked .zero, .asked .zero, .asked .zero] := by
    rw [h, List.take_left]
  generalize upto.length = k at hupto
  subst hupto
  rcases k with _ | _ | _ | _ | k
  · exact ⟨rfl, fun hne => absurd rfl hne⟩
  · exact ⟨rfl, fun _ => rfl⟩
  · exact ⟨rfl, fun _ => rfl⟩
  · exact ⟨rfl, fun _ => rfl⟩
  · rw [List.take_of_length_le (by simp)]
    exact ⟨rfl, fun _ => rfl⟩

/-- The same of two declared bytes: the exchange is over with them, and what comes behind them is
passed on and means nothing. -/
theorem completes_once_of_unsteady :
    let d := (start unsteady ⟨some (answered, [])⟩ (some 2) observed .zero).run
      [.asked .zero, .asked .zero, .asked .zero, .asked .zero]
    d.passed = [.item (.chunk [1, 2]), .item (.failed "late"), .item (.chunk [3]), .finished]
      ∧ ∃ record finalizer, record.id = ⟨"x"⟩ ∧ record.exception = none
        ∧ (d.drop .zero).site.log
          = ([.handed 0 record observed.site.journal.store.disk,
            .event (.completed (.ofRecord record)),
            .finished record.id finalizer (.delivered .ok)], none) := by
  intro d
  refine ⟨by decide, ?_⟩
  obtain ⟨upto, rest, elapsed, exception, record, handed, hsplit, hmoment, hconcludes, htells, -, -,
    hlog⟩ := completes_once unsteady answered [] (some 2) observed .zero .zero
      [.asked .zero, .asked .zero, .asked .zero, .asked .zero]
  obtain ⟨htraffic, hfirst⟩ := unsteady_run hsplit
  -- the two bytes decide, and nothing came before them
  have hbytes : Decides (some 2) [] (.item (.chunk [1, 2])) none := .suffices rfl (by decide)
  have hexception : exception = none := by
    generalize (Flow.run ⟨unsteady, observed, []⟩ upto).answers = seen at hmoment hfirst
    cases hmoment with
    | atOnce hnothing => rfl
    | dropped hsomething hnever =>
        have hseen := hfirst (by rw [List.append_nil] at hsplit; rw [← hsplit]; simp)
        exact absurd hbytes (hnever 0 _ hseen none)
    | @asked earlier rest answers answer elapsed exception hsomething hundecided hdecides =>
        have hseen := hfirst (List.append_ne_nil_of_right_ne_nil _ (List.cons_ne_nil _ _))
        cases answers with
        | nil =>
            cases hseen
            cases hdecides
            rfl
        | cons first more =>
            cases hseen
            exact absurd hbytes (hundecided 0 _ rfl none)
  have hreason : record.exception = none := by
    rw [htells.exception, hexception]
    rfl
  have hend := (hlog (by simp [Happening.LeavesLog])).2
  have hreceives := hconcludes.site
  rw [htraffic] at hreceives
  cases hreceives with
  | refuses hqueue hstopped hfinalizer htook => cases hstopped
  | queues hqueue hopen hroom htook => cases hqueue
  | drops hqueue hshut hfinalizer hwarned htook => cases hqueue
  | @logs finalizer result hqueue hrunning hfinalizer hresult htook =>
      obtain ⟨errors⟩ := result
      cases hresult
      exact ⟨record, finalizer, htells.id, hreason, hend.trans htook⟩

end Delivery

end Wiretap
