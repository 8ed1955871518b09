/-
  Wiretap.Proofs.Isolation
  ────────────────────────
  **SINKS DO NOT GET IN EACH OTHER'S WAY.**

  Whatever a sink answers, and be it a panic, the others are called all the same.  They also
  report the same, whichever sink stands in a place before them, unless they share a file with
  it or meet other faults of the disk behind it:

    • `handovers_errors_twin` — sinks report the same on disks that differ elsewhere,
    • `handovers_errors_set`  — the two runs, with one sink and with another in its place,
    • `sinks_isolated`        — all of it, with the state of the logger.
-/
import Wiretap.Proofs.Alike
import Wiretap.Proofs.LineLog
import Wiretap.Proofs.LoggerLife

namespace Wiretap

/-! ## §1. Another sink in the place of one. -/

section Replacing

variable {touched : Place → Prop} {disk disk' : Disk} {r : Record}

namespace Sink

/-- Where one sink adds lines, another one neither adds lines nor reads. -/
def Apart (r : Record) (disk : Disk) (s t : Sink) : Prop :=
  ∀ place, s.place? = some place → t.place? ≠ some place ∧ ¬ t.ReadsAt disk r place

/-- A sink at an index and another one share no state with the sinks behind that index: they work
on different files, and leave the disk with the same answers to the requests of those. -/
structure Unshared (r : Record) (disk : Disk) (sinks : List Sink) (index : Nat) (s t : Sink) :
    Prop where
  apart : ∀ behind ∈ sinks.drop (index + 1), s.Apart r disk behind ∧ t.Apart r disk behind
  answers : (∃ behind ∈ sinks.drop (index + 1), behind.place? ≠ none) →
    (s.call (diskBehind r disk (sinks.take index)) r).disk.responses
      = (t.call (diskBehind r disk (sinks.take index)) r).disk.responses

/-- A sink without a file does not look at the disk. -/
theorem call_of_place?_none {s : Sink} (h : s.place? = none) (disk disk' : Disk) (r : Record) :
    s.call disk' r = { s.call disk r with disk := disk' } ∧ (s.call disk r).disk = disk := by
  obtain ⟨name, action⟩ := s
  cases action with
  | event => exact ⟨rfl, rfl⟩
  | answer respond => exact ⟨rfl, rfl⟩
  | appendLine file detail => cases h

/-- Sinks without files share no state with any other. -/
theorem unshared_of_no_files {disk : Disk} {sinks : List Sink} {index : Nat}
    (h : ∀ behind ∈ sinks.drop (index + 1), behind.place? = none) (r : Record) (s t : Sink) :
    s.Unshared r disk sinks index t := by
  have hapart : ∀ behind ∈ sinks.drop (index + 1), ∀ u : Sink, u.Apart r disk behind := by
    intro behind hmem u place _
    obtain ⟨name, action⟩ := behind
    cases action with
    | event => exact ⟨nofun, id⟩
    | answer respond => exact ⟨nofun, id⟩
    | appendLine file detail => cases h _ hmem
  exact ⟨fun behind hmem => ⟨hapart behind hmem s, hapart behind hmem t⟩,
    fun ⟨behind, hmem, hfile⟩ => absurd (h behind hmem) hfile⟩

theorem readsAt_alike (h : Disk.Alike touched disk disk') (s : Sink) (r : Record)
    (place : Place) : s.ReadsAt disk' r place ↔ s.ReadsAt disk r place := by
  unfold ReadsAt
  split
  next => simp only [h.locate_eq]
  next => exact Iff.rfl

end Sink

theorem diskBehind_alike (r : Record) (disk : Disk) (sinks : List Sink) :
    Disk.Alike (fun _ => True) disk (diskBehind r disk sinks) := by
  induction sinks generalizing disk with
  | nil => exact .refl disk
  | cons s rest ih =>
      have hcall := (s.call_alike disk r).mono fun _ _ => trivial
      exact hcall.trans (ih (s.call disk r).disk)

/-- Sinks report the same on disks that differ at places where they neither write nor read. -/
theorem handovers_errors_twin {sinks : List Sink}
    (h : (∃ s ∈ sinks, s.place? ≠ none) → Disk.Twin touched disk disk')
    (hplaces : ∀ s ∈ sinks, ∀ place, s.place? = some place → ¬ touched place)
    (hreads : ∀ s ∈ sinks, ∀ place, s.ReadsAt disk r place → ¬ touched place) :
    (handovers r disk' sinks).map (·.errors r) = (handovers r disk sinks).map (·.errors r) := by
  -- by induction on the sinks: one with a file leaves the disks as alike as they were
  induction sinks generalizing disk disk' with
  | nil => rfl
  | cons s rest ih =>
      obtain ⟨hplace, hplaces⟩ := List.forall_mem_cons.mp hplaces
      obtain ⟨hread, hreads⟩ := List.forall_mem_cons.mp hreads
      obtain ⟨d', hcall, hrest⟩ : ∃ d', s.call disk' r = { s.call disk r with disk := d' }
          ∧ ((∃ t ∈ rest, t.place? ≠ none) → Disk.Twin touched (s.call disk r).disk d') := by
        by_cases hnone : s.place? = none
        · obtain ⟨hcall, hdisk⟩ := s.call_of_place?_none hnone disk disk' r
          refine ⟨disk', hcall, fun ⟨t, ht, hfile⟩ => ?_⟩
          rw [hdisk]
          exact h ⟨t, List.mem_cons_of_mem s ht, hfile⟩
        · have htwin := h ⟨s, List.mem_cons_self, hnone⟩
          obtain ⟨d', hcall, htwin'⟩ := s.call_twin htwin hplace hread
          exact ⟨d', hcall, fun _ => htwin'⟩
      have hreads' : ∀ t ∈ rest, ∀ place, t.ReadsAt (s.call disk r).disk r place →
          ¬ touched place := by
        intro t ht place hreadsAt
        exact hreads t ht place ((t.readsAt_alike (s.call_alike disk r) r place).mp hreadsAt)
      simp only [handovers, List.map_cons, Handover.errors, Handover.call, hcall]
      exact congrArg (List.cons _) (ih hrest hplaces hreads')

/-- **Another sink in the place of one** changes nothing of what the others report. -/
theorem handovers_errors_set {sinks : List Sink} {index : Nat} {s t : Sink}
    (hs : sinks[index]? = some s) (h : Sink.Unshared r disk sinks index s t) {other : Nat}
    (hother : other ≠ index) :
    ((handovers r disk (sinks.set index t)).map (·.errors r))[other]?
      = ((handovers r disk sinks).map (·.errors r))[other]? := by
  obtain ⟨hlt, hget⟩ := List.getElem?_eq_some_iff.mp hs
  have hlength : (sinks.take index).length = index := List.length_take_of_le (Nat.le_of_lt hlt)
  have hsinks : sinks = sinks.take index ++ s :: sinks.drop (index + 1) := by
    rw [← hget, List.getElem_cons_drop, List.take_append_drop]
  have hset : sinks.set index t = sinks.take index ++ t :: sinks.drop (index + 1) :=
    List.set_eq_take_append_cons_drop .. |>.trans (if_pos hlt)
  obtain ⟨hapart, hanswers⟩ := h
  generalize sinks.take index = front at hlength hsinks hset hanswers
  generalize sinks.drop (index + 1) = back at hsinks hset hapart hanswers
  generalize hbehind : diskBehind r disk front = d at hanswers
  have hd : Disk.Alike (fun _ => True) disk d := by
    rw [← hbehind]
    exact diskBehind_alike r disk front
  -- behind the two sinks the disks are alike but for their files
  have halike : Disk.Alike (fun place => s.place? = some place ∨ t.place? = some place)
      (s.call d r).disk (t.call d r).disk :=
    ((s.call_alike d r).mono fun _ => Or.inl).symm.trans
      ((t.call_alike d r).mono fun _ => Or.inr)
  have hback : (handovers r (t.call d r).disk back).map (·.errors r)
      = (handovers r (s.call d r).disk back).map (·.errors r) := by
    refine handovers_errors_twin (fun hfile => ⟨halike, (hanswers hfile).symm⟩) ?_ ?_
    · rintro behind hmem place hplace (htouched | htouched)
      · exact ((hapart behind hmem).1 place htouched).1 hplace
      · exact ((hapart behind hmem).2 place htouched).1 hplace
    · intro behind hmem place hreads htouched
      rw [behind.readsAt_alike (s.call_alike d r), behind.readsAt_alike hd] at hreads
      rcases htouched with htouched | htouched
      · exact ((hapart behind hmem).1 place htouched).2 hreads
      · exact ((hapart behind hmem).2 place htouched).2 hreads
  have hfront : ((handovers r disk front).map (·.errors r)).length = index := by
    rw [List.length_map, handovers_length, hlength]
  rw [hset, hsinks, handovers_append, handovers_append, hbehind]
  simp only [handovers, List.map_append, List.map_cons, hback]
  by_cases hbefore : other < index
  · rw [List.getElem?_append_left (by omega), List.getElem?_append_left (by omega)]
  · rw [List.getElem?_append_right (by omega), List.getElem?_append_right (by omega), hfront]
    obtain ⟨n, hn⟩ : ∃ n, other - index = n + 1 := ⟨other - index - 1, by omega⟩
    rw [hn, List.getElem?_cons_succ, List.getElem?_cons_succ]

end Replacing

/-! ## §2. Isolation. -/

/-- The journal with another sink in the place of one. -/
def Journal.putSink (j : Journal) (index : Nat) (s : Sink) : Journal :=
  { j with delegate := { j.delegate with sinks := j.delegate.sinks.set index s } }

/-- **Sinks are isolated from each other.**

A dispatch calls every sink once, in order, and then tells every listener, in order, the
result.  Its errors are those of each sink, in order, a panic being one error under the name
of the sink, and each is counted under its name.  With another sink in the place of one, the
others are called with the same and report the same, as long as these two share no state with
them.  A logger is idle after dispatches; once stopped it is so for ever, and drops what is
submitted. -/
theorem sinks_isolated (j : Journal) (r : Record) :
    let sinks := j.delegate.sinks
    let met := handovers r j.store.disk sinks
    let result := (j.dispatch r).1
    -- every sink is called, and then every listener is told
    (met.map Handover.sink = sinks
      ∧ (j.dispatch r).2.history = j.history ++ noticesOf r 0 met
          ++ j.delegate.listeners.map (.heard · r.id result)
      ∧ (noticesOf r 0 met).filterMap Notice.handed? = (List.range sinks.length).map (·, r)
      ∧ ∀ notice ∈ noticesOf r 0 met,
          (∃ index disk, notice = .handed index r disk) ∨ ∃ event, notice = .event event)
    -- every sink has its own errors in the result
    ∧ result.errors = (met.map (·.errors r)).flatten
    ∧ (∀ h ∈ met, h.errors r = match (h.sink.call h.disk r).answer with
        | .returned own => own.errors
        | .panicked message => [⟨h.sink.name, "panicked: " ++ message.getD "unknown panic"⟩])
    ∧ (∀ name, (j.dispatch r).2.errorsOf name
        = j.errorsOf name + result.errors.countP (·.sink = name))
    -- another sink in the place of one
    ∧ (∀ index s t, sinks[index]? = some s → s.Unshared r j.store.disk sinks index t →
        let met' := handovers r j.store.disk (sinks.set index t)
        ((j.putSink index t).dispatch r).1.errors = (met'.map (·.errors r)).flatten
        ∧ ((j.putSink index t).dispatch r).2.history.filterMap Notice.handed?
            = (j.dispatch r).2.history.filterMap Notice.handed?
        ∧ ∀ other ≠ index, (met'.map (·.errors r))[other]? = (met.map (·.errors r))[other]?)
    -- the state of the logger
    ∧ (j.delegate.state = .idle → j.delegate.inFlight = 0 → ∀ acts,
        let d := Desk.run ⟨j, []⟩ acts
        (.stop ∉ acts → d.underWay = 0 → d.journal.delegate.state = .idle)
        ∧ ((∀ a ∈ acts, a.isWhole = true) → d.underWay = 0)
        ∧ (.stop ∈ acts → d.journal.delegate.state = .stopped
            ∧ ∀ late, (d.journal.submit late).history = d.journal.history
                ++ late.owes.map (fun o => .finished o.1 o.2 .dropped)
              ∧ (d.journal.submit late).delegate = d.journal.delegate)) := by
  intro sinks met result
  obtain ⟨hhistory, herrors, hcounted⟩ := j.dispatch_calls r
  refine ⟨⟨handovers_sinks r _ _, hhistory, ?_, fun notice => mem_noticesOf⟩, ?_, ?_, hcounted,
    ?_, ?_⟩
  · rw [filterMap_noticesOf, handovers_length, List.range_eq_range']
  · rw [← List.flatMap_def]
    exact herrors
  · intro h _
    unfold Handover.errors Handover.call
    cases (h.sink.call h.disk r).answer with
    | returned own => rfl
    | panicked message => rfl
  · intro index s t hs hunshared met'
    refine ⟨?_, ?_, fun other hother => handovers_errors_set hs hunshared hother⟩
    · rw [← List.flatMap_def]
      exact ((j.putSink index t).dispatch_calls r).2.1
    · rw [Journal.dispatch_handed, Journal.dispatch_handed]
      simp only [Journal.putSink, List.length_set]
  · intro hidle hnone acts d
    -- a logger that is idle is orderly, and was not stopped
    have horderly : j.delegate.Orderly False 0 :=
      ⟨hnone, False.elim, fun _ => hidle.trans (if_pos rfl).symm⟩
    have hrun : d.journal.delegate.Orderly (False ∨ .stop ∈ acts) d.underWay :=
      Desk.run_orderly acts horderly
    rw [false_or] at hrun
    refine ⟨fun hstop hover => ?_, fun hwhole => ?_, fun hstop => ?_⟩
    · rw [hrun.running hstop, if_pos hover]
    · show d.jobs.countP Job.isCalling = 0
      rw [Desk.run_jobs ⟨j, []⟩ hwhole]
      rfl
    · have hstopped := hrun.halted hstop
      exact ⟨hstopped, Journal.submit_of_stopped hstopped⟩

/-- A sink that adds lines to a file below the root. -/
def logTo (name : String) (stamp : Nat) : Sink :=
  .lines ⟨.ofText ("/" ++ name), ⟨[name], stamp⟩, []⟩ ⟨true, 2⟩

/-- A sink that panics. -/
def panicking : Sink := ⟨"middle", .answer fun _ => .panicked (some "boom")⟩

/-- A journal with two logs, and a sink between them that panics. -/
def twoLogs : Journal :=
  let disk := ((Disk.ofDirectories [] []).put ["log"] (.file 7 [])).put ["tail"] (.file 8 [])
  ⟨.disabled disk, ⟨[logTo "log" 7, panicking, logTo "tail" 8], [⟨"ear", true⟩], .idle, 0⟩, []⟩

/-- A sink that fails. -/
def failing : Sink := ⟨"failing", .answer fun r => .returned (.failed "failing" r.path)⟩

/-- A record that tells how it ended. -/
def toldRecord : Record := { Record.new ⟨"a"⟩ "GET" "/" ⟨0, 0⟩ with finalizer := some .announce }

/-- The two logs and a sink that fails have no file in common, and the disk has no fault. -/
theorem twoLogs_unshared : (logTo "log" 7).Unshared toldRecord twoLogs.store.disk
    twoLogs.delegate.sinks 0 failing := by
  refine ⟨fun behind hmem => ⟨?_, nofun⟩, fun _ => ?_⟩
  · -- the files are two, and the record has no bodies to read
    have hbehind : behind = panicking ∨ behind = logTo "tail" 8 := by
      simpa [twoLogs] using hmem
    intro place hplace
    obtain rfl : ["log"] = place := Option.some.inj hplace
    rcases hbehind with rfl | rfl
    · exact ⟨nofun, nofun⟩
    · refine ⟨by decide, ?_⟩
      rintro ⟨-, b, path, hbody | hbody, -⟩
      · cases hbody
      · cases hbody
  · have hnone : twoLogs.store.disk.responses = [] := rfl
    obtain ⟨_, _, _, -, hcall, hresponses⟩ := Sink.call_of_responses_nil hnone
      ⟨.ofText ("/" ++ "log"), ⟨["log"], 7⟩, []⟩ ⟨true, 2⟩ toldRecord
    rw [List.take_zero, diskBehind, List.foldl_nil, logTo, hcall]
    exact hresponses

/-- The same where the first log, or the last one, gives way to a sink that fails, and where the
logger is stopped while it dispatches. -/
theorem sinks_isolated_of_panic :
    let own := fun sinks =>
      (handovers toldRecord twoLogs.store.disk sinks).map (·.errors toldRecord)
    let sinks := twoLogs.delegate.sinks
    (own (sinks.set 0 failing))[1]? = some [⟨"middle", "panicked: boom"⟩]
      ∧ (own (sinks.set 0 failing))[2]? = (own sinks)[2]?
      ∧ (own (sinks.set 2 failing))[0]? = (own sinks)[0]?
      ∧ (Desk.run ⟨twoLogs, []⟩ [.submit toldRecord, .dispatch toldRecord]).journal.delegate.state
        = .idle
      ∧ let j := (Desk.run ⟨twoLogs, []⟩ [.begins toldRecord, .stop, .goesOn 0]).journal
        j.delegate.state = .stopped
          ∧ (j.submit toldRecord).history = j.history ++ [.finished ⟨"a"⟩ .announce .dropped] := by
  intro own sinks
  obtain ⟨-, -, -, -, hreplaced, hlife⟩ := sinks_isolated twoLogs toldRecord
  obtain ⟨-, -, hfirst⟩ := hreplaced 0 (logTo "log" 7) failing rfl twoLogs_unshared
  have hnone : ∀ behind ∈ twoLogs.delegate.sinks.drop 3, behind.place? = none := by
    simp [twoLogs]
  obtain ⟨-, -, hlast⟩ := hreplaced 2 (logTo "tail" 8) failing rfl
    (Sink.unshared_of_no_files hnone _ _ _)
  obtain ⟨hidle, hover, -⟩ := hlife rfl rfl [.submit toldRecord, .dispatch toldRecord]
  obtain ⟨-, -, hstopped⟩ := hlife rfl rfl [.begins toldRecord, .stop, .goesOn 0]
  obtain ⟨hstate, hlate⟩ := hstopped (by simp)
  refine ⟨?_, hfirst 2 (by decide), hlast 0 (by decide), hidle (by simp) (hover ?_), hstate,
    (hlate toldRecord).1⟩
  · rw [hfirst 1 (by decide)]
    rfl
  · intro a hmem
    rcases List.mem_cons.mp hmem with rfl | hmem
    · rfl
    · cases List.mem_singleton.mp hmem
      rfl

end Wiretap
