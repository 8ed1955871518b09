/-
  Wiretap.Proofs.Tee
  ──────────────────
  **A BODY THAT IS CAPTURED ON ITS WAY THROUGH.**

  A stream behind a tap passes on what it was given, whatever becomes of its capture.  What
  can be read of the capture is always the beginning of what has come through: the first
  write that fails may land in part, and it is the last one.

    • `Passage.ask_cases`   — what asking the stream once does,
    • `Passage.Threaded`    — the items go through in order, and are all passed on,
    • `Passage.Captured`    — the repository keeps the beginning of what came through,
    • `tee_captures_prefix` — both, along every passage.
-/
import Mathlib.Logic.Relation
import Wiretap.Exchange.Stream
import Wiretap.Proofs.Ledger
import Wiretap.Proofs.Taps

namespace Wiretap

/-! ## §1. Chunks. -/

/-- The bytes of an item. -/
def BodyItem.bytes : BodyItem → Bytes
  | .chunk bytes => bytes
  | .failed _ => []

/-- The bytes of some items, one after the other. -/
def bytesOf (items : List BodyItem) : Bytes := items.flatMap BodyItem.bytes

theorem bytesOf_append (items later : List BodyItem) :
    bytesOf (items ++ later) = bytesOf items ++ bytesOf later := List.flatMap_append

theorem bytesOf_singleton (i : BodyItem) : bytesOf [i] = i.bytes := List.flatMap_singleton _ _

/-- The item in an answer. -/
def Polled.item? : Polled → Option BodyItem
  | .item i => some i
  | _ => none

/-- What can be read of a body, without undoing any coding; no body has no bytes. -/
def Store.readable (s : Store) (d : Direction) (id : ExchangeId) : Except BodyFault Bytes :=
  match s.get d id none with
  | none => .ok []
  | some body => body.content s.disk

/-- What is kept can be read. -/
theorem Store.Keeps.readable {s : Store} {d : Direction} {id : ExchangeId} {bytes : Bytes}
    (h : s.Keeps d id bytes) (he : s.repository.enabled = true) :
    s.readable d id = .ok bytes := by
  unfold Store.readable
  split
  next hnone =>
    -- where there is no body there is no buffer, and then there are no bytes
    have hb : s.repository.buffer? d id = none := by simpa [Store.get, he] using hnone
    by_contra hne
    have hsome := h.isSome_iff.mpr fun hnil => hne (by rw [hnil])
    rw [hb] at hsome
    cases hsome
  next body hbody => exact (h.content hbody).1

/-! ## §2. Passages. -/

/-- The chunk that is written when a stream is asked next, if there is one, and the number of
the tap that it is written through. -/
def BodyStream.due (s : BodyStream) : Option (Nat × Bytes) :=
  match s.held, s.items, s.tap with
  | none, .chunk bytes :: _, some number => if bytes.isEmpty then none else some (number, bytes)
  | _, _, _ => none

/-- A stream behind a tap, in the midst of other traffic, and what was seen of it so far. -/
structure Passage where
  traffic : Traffic
  stream : BodyStream
  /-- What the stream answered, in order. -/
  answers : List Polled
  /-- What the repository answered where it was asked to write a chunk, in order. -/
  writes : List (Except CaptureFailure Unit)
  /-- By how much asking the stream changed the count of failures. -/
  raised : Int

namespace Passage

variable {σ σ' : Passage} {items : List BodyItem} {hangs : Bool} {number : Nat}
variable {d : Direction} {id : ExchangeId} {bytes : Bytes}

/-- A stream that was not asked yet. -/
def start (t : Traffic) (items : List BodyItem) (hangs : Bool) (number : Nat) : Passage :=
  ⟨t, .through items hangs number, [], [], 0⟩

def store (σ : Passage) : Store := σ.traffic.site.journal.store

/-- The items that were passed on. -/
def yielded (σ : Passage) : List BodyItem := σ.answers.filterMap Polled.item?

/-- The items that came through: those that were passed on, and the one that is passed on next
since it has been written. -/
def taken (σ : Passage) : List BodyItem := σ.yielded ++ σ.stream.held.toList

/-- Whether a write failed. -/
def failed (σ : Passage) : Bool := σ.writes.any fun outcome => !outcome.isOk

/-- The tap is there and was not closed. -/
def Open (number : Nat) (σ : Passage) : Prop :=
  ∃ tap, σ.traffic.taps[number]? = some tap ∧ tap.closed = false

/-- Asks the stream once. -/
def ask (σ : Passage) (d : Direction) : Passage :=
  let (answer, stream, traffic) := σ.stream.poll σ.traffic
  { traffic, stream
    answers := σ.answers ++ [answer]
    writes := σ.writes ++ (σ.stream.due.bind fun due => σ.traffic.attempt? due.1 due.2).toList
    raised := σ.raised
      + (traffic.site.journal.store.writeFailures d - σ.store.writeFailures d) }

/-- A step of a passage: the stream is asked, or its tap is closed, or something else happens.
That may be anything in the traffic, a change of what the disk will answer included, but no
other writer comes to the key of the tap or to the file of its spill. -/
inductive Step (number : Nat) (d : Direction) (id : ExchangeId) (σ : Passage) : Passage → Prop
  | asks : Step number d id σ (σ.ask d)
  | closes : Step number d id σ { σ with traffic := σ.traffic.closeTap number }
  | beside {t : Traffic} (htap : t.taps[number]? = σ.traffic.taps[number]?)
      (hstore : Store.ChangesOnly (fun d' id' => ¬ Store.Key d id d' id')
        (fun p => ¬ EndsIn (Repository.spillName d id) p) σ.store t.site.journal.store) :
      Step number d id σ { σ with traffic := t }

/-- A call on the store that is about another key is such a step. -/
theorem Step.call (h : σ.store.Sound) (call : Store.Call) (hkey : ¬ call.Touches d id) :
    Step number d id σ
      { σ with traffic := σ.traffic.withStore (σ.store.perform call).2 } := by
  refine .beside rfl ((Store.perform_changesOnly h call).mono ?_ ?_)
  · rintro d' id' htouch ⟨rfl, rfl⟩
    exact hkey htouch
  · -- a call on a spill is about its key
    intro p hf hp
    exact hkey (call.spillsOf d id p hp hf)

/-- A run of steps. -/
abbrev Run (number : Nat) (d : Direction) (id : ExchangeId) : Passage → Passage → Prop :=
  Relation.ReflTransGen (Step number d id)

/-- A stream can be asked any number of times. -/
theorem run_asks (σ : Passage) (n : Nat) :
    Run number d id σ ((fun σ : Passage => σ.ask d)^[n] σ) := by
  induction n with
  | zero => exact .refl
  | succ n ih =>
      rw [Function.iterate_succ_apply']
      exact ih.tail .asks

/-- Asked once, a stream passes on what it holds, or has nothing more, or passes on an item
without bytes, or gives the next chunk to its tap. -/
theorem ask_cases (htap : σ.stream.tap = some number) (d : Direction) :
    (∃ i, σ.stream.held = some i
      ∧ σ.ask d = { σ with
          stream := { σ.stream with held := none }, answers := σ.answers ++ [.item i] })
    ∨ (σ.stream.held = none ∧ σ.stream.items = []
      ∧ σ.ask d = { σ with
          answers := σ.answers ++ [if σ.stream.hangs then .pending else .finished] })
    ∨ (∃ i rest, σ.stream.held = none ∧ σ.stream.items = i :: rest ∧ i.bytes = []
      ∧ σ.ask d = { σ with
          stream := { σ.stream with items := rest }, answers := σ.answers ++ [.item i] })
    ∨ (∃ bytes rest, σ.stream.held = none ∧ σ.stream.items = .chunk bytes :: rest ∧ bytes ≠ []
      ∧ σ.ask d = ⟨σ.traffic.writeTap number bytes,
          { σ.stream with items := rest, held := some (.chunk bytes) }, σ.answers ++ [.pending],
          σ.writes ++ (σ.traffic.attempt? number bytes).toList,
          σ.raised + ((σ.traffic.writeTap number bytes).site.journal.store.writeFailures d
            - σ.store.writeFailures d)⟩) := by
  obtain ⟨t, ⟨left, hangs, tap, held⟩, answers, writes, raised⟩ := σ
  obtain rfl : tap = some number := htap
  cases held with
  | some i => exact Or.inl ⟨i, rfl, by simp [ask, BodyStream.poll, BodyStream.due, store]⟩
  | none =>
      refine Or.inr ?_
      cases left with
      | nil => exact Or.inl ⟨rfl, rfl, by simp [ask, BodyStream.poll, BodyStream.due, store]⟩
      | cons i rest =>
          refine Or.inr ?_
          cases i with
          | failed message =>
              exact Or.inl ⟨_, rest, rfl, rfl, rfl,
                by simp [ask, BodyStream.poll, BodyStream.due, store]⟩
          | chunk bytes =>
              by_cases hempty : bytes = []
              · subst hempty
                exact Or.inl ⟨_, rest, rfl, rfl, rfl,
                  by simp [ask, BodyStream.poll, BodyStream.due, store, BodyItem.isWritten]⟩
              · exact Or.inr ⟨bytes, rest, rfl, rfl, hempty,
                  by simp [ask, BodyStream.poll, BodyStream.due, store, BodyItem.isWritten,
                    hempty]⟩

/-! ## §3. What is passed on. -/

/-- How many answers it takes at most until nothing is left; an item may have to be written
before it is passed on. -/
def distance (σ : Passage) : Nat := 2 * σ.stream.items.length + σ.stream.held.toList.length

/-- Asking leaves the items as they are, each either through or still to come, and brings the
stream nearer to its end. -/
theorem ask_advances (htap : σ.stream.tap = some number) (d : Direction) :
    (σ.ask d).taken ++ (σ.ask d).stream.items = σ.taken ++ σ.stream.items
      ∧ (σ.ask d).distance ≤ σ.distance - 1
      ∧ ∃ answer, (σ.ask d).answers = σ.answers ++ [answer]
        ∧ (answer = .finished → (σ.ask d).distance = 0) := by
  unfold taken distance yielded
  rcases ask_cases htap d with
    ⟨i, hheld, hask⟩ | ⟨hheld, hitems, hask⟩ | ⟨i, rest, hheld, hitems, -, hask⟩
      | ⟨bytes, rest, hheld, hitems, -, hask⟩
  · rw [hask, hheld]
    refine ⟨?_, ?_, _, rfl, fun heq => by cases heq⟩
    · simp [Polled.item?]
    · simp
  · rw [hask]
    refine ⟨?_, ?_, _, rfl, fun _ => by simp [hheld, hitems]⟩
    · -- neither answer has an item in it
      cases σ.stream.hangs <;> simp [Polled.item?]
    · simp [hheld, hitems]
  · rw [hask, hitems]
    refine ⟨?_, ?_, _, rfl, fun heq => by cases heq⟩
    · simp [Polled.item?, hheld]
    · simp only [hheld, List.length_cons]
      omega
  · rw [hask, hitems]
    refine ⟨?_, ?_, _, rfl, fun heq => by cases heq⟩
    · simp [Polled.item?, hheld]
    · simp only [hheld, List.length_cons, Option.toList_some, Option.toList_none,
        List.length_nil]
      omega

/-- The first item to come comes through. -/
theorem taken_of_items {i : BodyItem} {rest : List BodyItem}
    (hthrough : σ'.taken ++ σ'.stream.items = σ.taken ++ σ.stream.items)
    (hitems : σ.stream.items = i :: rest) (hrest : σ'.stream.items = rest) :
    σ'.taken = σ.taken ++ [i] := by
  rw [hitems, hrest, List.append_cons] at hthrough
  exact List.append_cancel_right hthrough

theorem ask_stream (htap : σ.stream.tap = some number) (d : Direction) :
    (σ.ask d).stream.tap = some number ∧ (σ.ask d).stream.hangs = σ.stream.hangs := by
  rcases ask_cases htap d with
    ⟨_, -, hask⟩ | ⟨-, -, hask⟩ | ⟨_, _, -, -, -, hask⟩ | ⟨_, _, -, -, -, hask⟩
      <;> rw [hask] <;> exact ⟨htap, rfl⟩

/-- The stream carries the items it was given, in order, whatever becomes of its tap. -/
structure Threaded (items : List BodyItem) (hangs : Bool) (number : Nat) (σ : Passage) :
    Prop where
  order : σ.taken ++ σ.stream.items = items
  tap : σ.stream.tap = some number
  hangs : σ.stream.hangs = hangs
  finished : .finished ∈ σ.answers → σ.distance = 0
  near : σ.distance ≤ 2 * items.length - σ.answers.length

theorem start_threaded (t : Traffic) (items : List BodyItem) (hangs : Bool) (number : Nat) :
    (start t items hangs number).Threaded items hangs number :=
  ⟨rfl, rfl, rfl, fun hmem => absurd hmem List.not_mem_nil, Nat.le_refl _⟩

theorem Threaded.ask (h : σ.Threaded items hangs number) (d : Direction) :
    (σ.ask d).Threaded items hangs number := by
  obtain ⟨htaken, hnear, answer, hanswers, hend⟩ := ask_advances h.tap d
  obtain ⟨htap, hhangs⟩ := ask_stream h.tap d
  have hbefore := h.near
  refine ⟨htaken.trans h.order, htap, hhangs.trans h.hangs, fun hmem => ?_, ?_⟩
  · rw [hanswers] at hmem
    rcases List.mem_append.mp hmem with hearlier | hnow
    · have hzero := h.finished hearlier
      omega
    · exact hend (List.mem_singleton.mp hnow).symm
  · rw [hanswers, List.length_append, List.length_singleton]
    omega

theorem Threaded.step (h : σ.Threaded items hangs number) (hstep : Step number d id σ σ') :
    σ'.Threaded items hangs number := by
  cases hstep with
  | asks => exact h.ask d
  -- beside the asking nothing comes to the stream
  | closes => exact ⟨h.order, h.tap, h.hangs, h.finished, h.near⟩
  | beside => exact ⟨h.order, h.tap, h.hangs, h.finished, h.near⟩

theorem Threaded.run (h : σ.Threaded items hangs number) (hrun : Run number d id σ σ') :
    σ'.Threaded items hangs number := by
  induction hrun with
  | refl => exact h
  | tail _ hstep ih => exact ih.step hstep

/-- At the end all items were passed on. -/
theorem Threaded.yielded_of_distance (h : σ.Threaded items hangs number)
    (hzero : σ.distance = 0) : σ.yielded = items := by
  have horder := h.order
  unfold distance at hzero
  have hheld : σ.stream.held.toList = [] := List.length_eq_zero_iff.mp (by omega)
  have hitems : σ.stream.items = [] := List.length_eq_zero_iff.mp (by omega)
  simpa [taken, hheld, hitems] using horder

/-- A stream that has passed on all items has nothing more. -/
theorem Threaded.ends (h : σ.Threaded items hangs number) (hall : σ.yielded = items) :
    (σ.stream.poll σ.traffic).1 = if hangs then .pending else .finished := by
  have horder := h.order
  unfold taken at horder
  rw [hall, List.append_assoc] at horder
  obtain ⟨hheld, hitems⟩ := List.append_eq_nil_iff.mp
    (List.append_cancel_left (horder.trans (List.append_nil items).symm))
  unfold BodyStream.poll
  rw [Option.toList_eq_nil_iff.mp hheld, hitems, h.hangs]

/-! ## §4. What is captured. -/

/-- The repository keeps the beginning of what came through the tap, and all of it while the
tap is open and no write has failed; a write that fails is the last one, and is counted. -/
structure Captured (number : Nat) (d : Direction) (id : ExchangeId) (σ : Passage) : Prop where
  gate : ∃ closed, σ.traffic.taps[number]? = some ⟨id, d, closed, σ.failed⟩
  enabled : σ.store.repository.enabled = true
  kept : ∃ kept, σ.store.Keeps d id kept ∧ kept <+: bytesOf σ.taken
    ∧ (σ.Open number → σ.failed = false → kept = bytesOf σ.taken)
  stopped : ∀ outcome ∈ σ.writes.dropLast, outcome.isOk = true
  counted : σ.raised = if σ.failed then 1 else 0

theorem start_captured {t : Traffic} (htap : t.taps[number]? = some (Tap.new id d))
    (he : t.site.journal.store.repository.enabled = true)
    (hempty : t.site.journal.store.repository.buffer? d id = none) (items : List BodyItem)
    (hangs : Bool) : (start t items hangs number).Captured number d id where
  gate := ⟨false, htap⟩
  enabled := he
  kept := ⟨[], Store.keeps_nil hempty, List.prefix_rfl, fun _ _ => rfl⟩
  stopped := fun _ hmem => absurd hmem List.not_mem_nil
  counted := rfl

/-- Bytes that come through and are not written leave the capture as it is.  There are none
while the tap is open and no write has failed. -/
theorem Captured.skip (h : σ.Captured number d id) (htraffic : σ'.traffic = σ.traffic)
    (hwrites : σ'.writes = σ.writes) (hraised : σ'.raised = σ.raised) (more : Bytes)
    (hbytes : bytesOf σ'.taken = bytesOf σ.taken ++ more)
    (hidle : σ.Open number → σ.failed = false → more = []) : σ'.Captured number d id := by
  have hfailed : σ'.failed = σ.failed := by rw [failed, failed, hwrites]
  have hstore : σ'.store = σ.store := by rw [store, store, htraffic]
  obtain ⟨kept, hkeeps, hprefix, hall⟩ := h.kept
  constructor
  case gate =>
    rw [htraffic, hfailed]
    exact h.gate
  case enabled =>
    rw [hstore]
    exact h.enabled
  case kept =>
    rw [hstore, hbytes, hfailed]
    refine ⟨kept, hkeeps, hprefix.trans (List.prefix_append _ _), fun hopen hsound => ?_⟩
    unfold Open at hopen
    rw [htraffic] at hopen
    rw [hall hopen hsound, hidle hopen hsound, List.append_nil]
  case stopped =>
    rw [hwrites]
    exact h.stopped
  case counted =>
    rw [hraised, hfailed]
    exact h.counted

/-- A chunk that is written goes behind what came through before, as far as it lands. -/
theorem Captured.write (h : σ.Captured number d id) (hopen : σ.Open number)
    (hsound : σ.failed = false) (bytes : Bytes) :
    (σ.store.write d id bytes).2.repository.enabled = true
      ∧ ∃ kept, (σ.store.write d id bytes).2.Keeps d id kept
        ∧ kept <+: bytesOf σ.taken ++ bytes
        ∧ ((σ.store.write d id bytes).1 = .ok () → kept = bytesOf σ.taken ++ bytes) := by
  obtain ⟨kept, hkeeps, -, hall⟩ := h.kept
  obtain rfl : kept = bytesOf σ.taken := hall hopen hsound
  have hc := Store.write_changesOnly hkeeps bytes
  obtain ⟨landed, hprefix, hkeeps', hwhole⟩ := Store.write_keeps h.enabled hkeeps bytes
  refine ⟨hc.enabled.trans h.enabled, bytesOf σ.taken ++ landed, hkeeps',
    (List.prefix_append_right_inj _).mpr hprefix, fun hok => ?_⟩
  rw [hwhole hok]

/-- A chunk that is given to the tap. -/
theorem Captured.offer (h : σ.Captured number d id) (bytes : Bytes)
    (hbytes : bytesOf σ'.taken = bytesOf σ.taken ++ bytes)
    (htraffic : σ'.traffic = σ.traffic.writeTap number bytes)
    (hwrites : σ'.writes = σ.writes ++ (σ.traffic.attempt? number bytes).toList)
    (hraised : σ'.raised = σ.raised
      + ((σ.traffic.writeTap number bytes).site.journal.store.writeFailures d
        - σ.store.writeFailures d)) : σ'.Captured number d id := by
  obtain ⟨closed, hgate⟩ := h.gate
  rcases Traffic.writeTap_cases hgate bytes with
    ⟨hshut, hnone, hsame⟩
      | ⟨outcome, rfl, hsound, hout, hsome, htap, ⟨metrics, hstore⟩, hcount⟩
  · -- the tap does not write, so this is a chunk that may be missed
    rw [hsame] at htraffic hraised
    rw [hnone, Option.toList_none, List.append_nil] at hwrites
    refine h.skip htraffic hwrites (hraised.trans ?_) bytes hbytes ?_
    · show σ.raised + (σ.store.writeFailures d - σ.store.writeFailures d) = _
      omega
    · rintro ⟨tap, htap, hopen⟩ hsound
      obtain rfl := Option.some.inj (hgate.symm.trans htap)
      simp [hsound, show closed = false from hopen] at hshut
  · have hsound : σ.failed = false := hsound
    obtain ⟨enabled, kept, hkeeps, hprefix, hwhole⟩ := h.write ⟨_, hgate, rfl⟩ hsound bytes
    have hstore' : σ'.store = { (σ.store.write d id bytes).2 with metrics } := by
      rw [store, htraffic]
      exact hstore
    have hlast : σ'.writes = σ.writes ++ [outcome] := by
      rw [hwrites, hsome]
      rfl
    have hfailed : σ'.failed = !outcome.isOk := by
      unfold failed at hsound ⊢
      rw [hlast, List.any_append, hsound]
      simp
    constructor
    case gate =>
      rw [htraffic, hfailed]
      exact ⟨false, htap⟩
    case enabled =>
      rw [hstore']
      exact enabled
    case kept =>
      rw [hstore', hbytes, hfailed]
      refine ⟨kept, hkeeps.withMetrics metrics, hprefix, fun _ hok => ?_⟩
      cases outcome with
      | ok _ => exact hwhole hout
      | error failure => cases hok
    case stopped =>
      rw [hlast, List.dropLast_concat]
      intro earlier hmem
      simpa using List.any_eq_false.mp hsound earlier hmem
    case counted =>
      have hbefore := h.counted
      rw [hsound] at hbefore
      rw [hraised, hbefore, hfailed]
      have hdiff : (σ.traffic.writeTap number bytes).site.journal.store.writeFailures d
          = σ.store.writeFailures d + if outcome.isOk then 0 else 1 := hcount
      rw [hdiff]
      cases outcome.isOk <;> simp

/-- Asking the stream leaves the capture what it should be. -/
theorem Captured.ask (h : σ.Captured number d id) (htap : σ.stream.tap = some number) :
    (σ.ask d).Captured number d id := by
  obtain ⟨hthrough, -⟩ := ask_advances htap d
  rcases ask_cases htap d with
    ⟨i, hheld, hask⟩ | ⟨hheld, hitems, hask⟩ | ⟨i, rest, hheld, hitems, hnil, hask⟩
      | ⟨bytes, rest, hheld, hitems, -, hask⟩
  · -- the item that is passed on came through before
    have hstream : (σ.ask d).stream.items = σ.stream.items := by rw [hask]
    rw [hstream] at hthrough
    refine h.skip (by rw [hask]) (by rw [hask]) (by rw [hask]) [] ?_ fun _ _ => rfl
    rw [List.append_cancel_right hthrough, List.append_nil]
  · have hstream : (σ.ask d).stream.items = σ.stream.items := by rw [hask]
    rw [hstream] at hthrough
    refine h.skip (by rw [hask]) (by rw [hask]) (by rw [hask]) [] ?_ fun _ _ => rfl
    rw [List.append_cancel_right hthrough, List.append_nil]
  · have htaken := taken_of_items hthrough hitems (by rw [hask])
    refine h.skip (by rw [hask]) (by rw [hask]) (by rw [hask]) [] ?_ fun _ _ => rfl
    rw [htaken, bytesOf_append, bytesOf_singleton, hnil]
  · have htaken := taken_of_items hthrough hitems (by rw [hask])
    refine h.offer bytes ?_ (by rw [hask]) (by rw [hask]) (by rw [hask])
    rw [htaken, bytesOf_append, bytesOf_singleton]
    rfl

theorem Captured.step (h : σ.Captured number d id) (htap : σ.stream.tap = some number)
    (hstep : Step number d id σ σ') : σ'.Captured number d id := by
  obtain ⟨closed, hgate⟩ := h.gate
  obtain ⟨kept, hkeeps, hprefix, hall⟩ := h.kept
  cases hstep with
  | asks => exact h.ask htap
  | closes =>
      have hclosed : (σ.traffic.closeTap number).taps[number]? = some ⟨id, d, true, σ.failed⟩ := by
        show (σ.traffic.taps.modify number Tap.close)[number]? = _
        rw [List.getElem?_modify_eq, hgate]
        rfl
      refine ⟨⟨true, hclosed⟩, h.enabled, ⟨kept, hkeeps, hprefix, ?_⟩, h.stopped, h.counted⟩
      rintro ⟨tap, htap', hopen⟩
      obtain rfl := Option.some.inj (hclosed.symm.trans htap')
      cases hopen
  | @beside t htap' hstore =>
      refine ⟨⟨closed, htap'.trans hgate⟩, hstore.enabled.trans h.enabled,
        ⟨kept, hkeeps.frame hstore (fun hkey => hkey ⟨rfl, rfl⟩) fun p hp hf => hf hp, hprefix,
          ?_⟩, h.stopped, h.counted⟩
      rintro ⟨tap, hget, hopen⟩
      exact hall ⟨tap, htap'.symm.trans hget, hopen⟩

theorem Captured.run (h : σ.Captured number d id) (hthread : σ.Threaded items hangs number)
    (hrun : Run number d id σ σ') : σ'.Captured number d id := by
  induction hrun with
  | refl => exact h
  | tail hbefore hstep ih => exact ih.step (hthread.run hbefore).tap hstep

/-- Once a write has failed, asking the stream changes nothing in the traffic. -/
theorem Captured.ask_of_failed (h : σ.Captured number d id) (htap : σ.stream.tap = some number)
    (hfailed : σ.failed = true) :
    (σ.ask d).writes = σ.writes ∧ (σ.ask d).traffic = σ.traffic := by
  obtain ⟨closed, hgate⟩ := h.gate
  rcases ask_cases htap d with
    ⟨_, -, hask⟩ | ⟨-, -, hask⟩ | ⟨_, _, -, -, -, hask⟩ | ⟨bytes, _, -, -, -, hask⟩ <;> rw [hask]
  · exact ⟨rfl, rfl⟩
  · exact ⟨rfl, rfl⟩
  · exact ⟨rfl, rfl⟩
  · rcases Traffic.writeTap_cases hgate bytes with ⟨-, hnone, hsame⟩ | ⟨_, -, hsound, -⟩
    · dsimp only
      rw [hnone, hsame]
      exact ⟨List.append_nil _, rfl⟩
    · exact absurd (hfailed.symm.trans hsound) (by decide)

theorem Captured.writes_of_failed (h : σ.Captured number d id)
    (hthread : σ.Threaded items hangs number) (hfailed : σ.failed = true)
    (hrun : Run number d id σ σ') : σ'.writes = σ.writes := by
  induction hrun with
  | refl => rfl
  | @tail σ₁ σ₂ hbefore hstep ih =>
      have hfailed₁ : σ₁.failed = true := by rwa [failed, ih]
      cases hstep with
      | asks =>
          obtain ⟨hwrites, -⟩ := (h.run hthread hbefore).ask_of_failed
            (hthread.run hbefore).tap hfailed₁
          exact hwrites.trans ih
      | closes => exact ih
      | beside => exact ih

/-- No byte is to come any more, and the repository keeps these. -/
structure Spent (d : Direction) (id : ExchangeId) (bytes : Bytes) (σ : Passage) : Prop where
  rest : bytesOf σ.stream.items = []
  keeps : σ.store.Keeps d id bytes

/-- Where no byte is to come nothing is written, whether or not the tap is closed. -/
theorem Spent.step (h : σ.Spent d id bytes) (htap : σ.stream.tap = some number)
    (hstep : Step number d id σ σ') : σ'.Spent d id bytes := by
  have hrest := h.rest
  cases hstep with
  | asks =>
      rcases ask_cases htap d with
        ⟨i, -, hask⟩ | ⟨-, -, hask⟩ | ⟨i, rest, -, hitems, -, hask⟩
          | ⟨chunk, rest, -, hitems, hne, -⟩
      · rw [hask]
        exact ⟨hrest, h.keeps⟩
      · rw [hask]
        exact ⟨hrest, h.keeps⟩
      · rw [hask]
        rw [hitems, bytesOf, List.flatMap_cons, List.append_eq_nil_iff] at hrest
        exact ⟨hrest.2, h.keeps⟩
      · rw [hitems, bytesOf, List.flatMap_cons, List.append_eq_nil_iff] at hrest
        exact absurd hrest.1 hne
  | closes => exact ⟨hrest, h.keeps⟩
  | beside _ hstore =>
      exact ⟨hrest, h.keeps.frame hstore (fun hkey => hkey ⟨rfl, rfl⟩) fun p hp hf => hf hp⟩

theorem Spent.run (h : σ.Spent d id bytes) (hthread : σ.Threaded items hangs number)
    (hrun : Run number d id σ σ') : σ'.Spent d id bytes := by
  induction hrun with
  | refl => exact h
  | tail hbefore hstep ih => exact ih.step (hthread.run hbefore).tap hstep

/-! ## §5. The whole passage. -/

/-- What holds of a passage at each of its moments. -/
structure Teed (items : List BodyItem) (hangs : Bool) (number : Nat) (d : Direction)
    (id : ExchangeId) (σ : Passage) : Prop where
  /-- Each item came through, or is still to come, in the order in which it was given. -/
  order : σ.taken ++ σ.stream.items = items
  /-- The stream ends when all items were passed on, and not before. -/
  finished : .finished ∈ σ.answers → σ.yielded = items
  /-- An item costs two answers at most. -/
  delivered : 2 * items.length ≤ σ.answers.length → σ.yielded = items
  ends : σ.yielded = items →
    (σ.stream.poll σ.traffic).1 = if hangs then .pending else .finished
  /-- What can be read is the beginning of what came through, and of what was passed on unless
  a chunk has been written that is passed on next. -/
  captured : ∃ bytes, σ.store.readable d id = .ok bytes ∧ bytes <+: bytesOf σ.taken
    ∧ (σ.stream.held = none → bytes <+: bytesOf σ.yielded)
  /-- It is all of that while the tap is open and no write has failed. -/
  complete : σ.Open number → σ.failed = false →
    σ.store.readable d id = .ok (bytesOf σ.taken)
  /-- It is and stays all bytes of the stream when none was left to come by then. -/
  whole : σ.Open number → σ.failed = false → bytesOf σ.stream.items = [] →
    ∀ σ', Run number d id σ σ' → σ'.store.readable d id = .ok (bytesOf items)
  /-- Behind a write that fails there is no other. -/
  stopped : ∀ outcome ∈ σ.writes.dropLast, outcome.isOk = true
  /-- From then on asking the stream leaves the traffic as it is. -/
  silent : σ.failed = true → ∀ σ', Run number d id σ σ' →
    σ'.writes = σ.writes ∧ (σ'.ask d).traffic = σ'.traffic
  /-- The count of failures is raised by one when a write fails, and not otherwise. -/
  counted : σ.raised = if σ.failed then 1 else 0

/-- **A tee alters nothing and captures the beginning.**  Whatever the repository and the disk
answer, and whenever the tap is closed, the stream passes on the items it was given; what can
be read of its direction is the beginning of their bytes, and all of them unless a write failed
or the tap was closed too early; a write that fails is the last one and is counted once. -/
theorem tee_captures_prefix (t : Traffic) (items : List BodyItem) (hangs : Bool) (number : Nat)
    (d : Direction) (id : ExchangeId) (htap : t.taps[number]? = some (Tap.new id d))
    (he : t.site.journal.store.repository.enabled = true)
    (hempty : t.site.journal.store.repository.buffer? d id = none)
    (hrun : Run number d id (start t items hangs number) σ) :
    Teed items hangs number d id σ := by
  have hthread := start_threaded t items hangs number
  have h : σ.Threaded items hangs number := hthread.run hrun
  have hc : σ.Captured number d id := (start_captured htap he hempty items hangs).run hthread hrun
  obtain ⟨kept, hkeeps, hprefix, hall⟩ := hc.kept
  have hreadable := hkeeps.readable hc.enabled
  constructor
  case order => exact h.order
  case finished => exact fun hmem => h.yielded_of_distance (h.finished hmem)
  case delivered =>
    intro hlong
    have hnear := h.near
    exact h.yielded_of_distance (by omega)
  case ends => exact h.ends
  case captured =>
    refine ⟨kept, hreadable, hprefix, fun hheld => ?_⟩
    rwa [taken, hheld, Option.toList_none, List.append_nil] at hprefix
  case complete =>
    intro hopen hsound
    rw [hreadable, hall hopen hsound]
  case whole =>
    intro hopen hsound hrest σ' hlater
    have hbytes : kept = bytesOf items := by
      rw [hall hopen hsound, ← h.order, bytesOf_append, hrest, List.append_nil]
    have hspent : σ'.Spent d id kept := Spent.run ⟨hrest, hkeeps⟩ h hlater
    rw [hspent.keeps.readable (hc.run h hlater).enabled, hbytes]
  case stopped => exact hc.stopped
  case silent =>
    intro hfailed σ' hlater
    have hwrites := hc.writes_of_failed h hfailed hlater
    have hfailed' : σ'.failed = true := by rwa [failed, hwrites]
    exact ⟨hwrites, ((hc.run h hlater).ask_of_failed (h.run hlater).tap hfailed').2⟩
  case counted => exact hc.counted

/-- The same of a tap whose second write lands in part before the disk is full, while another
exchange is captured: all items are passed on, and the third chunk is not written any more. -/
theorem tee_captures_prefix_of_full_disk :
    let t : Traffic := ⟨⟨⟨⟨{ Disk.ofDirectories [["b"]] [] with
        responses := [.comply, .comply, .short 1, .refuse .storageFull] },
      ⟨true, .ofText "/b", 2, .both ∅⟩, .zero⟩, ⟨[], [], .idle, 0⟩, []⟩, none⟩, ⟨default, none⟩,
      [.new ⟨"x"⟩ .request]⟩
    let items : List BodyItem := [.chunk [1, 2, 3], .chunk [4, 5], .failed "reset", .chunk [6]]
    ∃ σ, Run 0 .request ⟨"x"⟩ (start t items false 0) σ
      ∧ Teed items false 0 .request ⟨"x"⟩ σ
      ∧ σ.yielded = items ∧ σ.store.readable .request ⟨"x"⟩ = .ok [1, 2, 3, 4]
      ∧ σ.store.readable .request ⟨"y"⟩ = .ok [9]
      ∧ σ.writes.map Except.isOk = [true, false] ∧ σ.raised = 1 := by
  intro t items
  have hsound : (start t items false 0).store.Sound :=
    Store.sound_of_empty (Repository.buffer?_of_empty rfl)
  have hother : Run 0 .request ⟨"x"⟩ (start t items false 0) _ :=
    .single (.call hsound (.write .request ⟨"y"⟩ [9]) fun hkey => absurd hkey.2 (by decide))
  have hrun := hother.trans (run_asks _ 8)
  exact ⟨_, hrun, tee_captures_prefix t items false 0 .request ⟨"x"⟩ rfl rfl rfl hrun,
    by decide +kernel, by decide +kernel, by decide +kernel, by decide +kernel,
    by decide +kernel⟩

end Passage

end Wiretap
