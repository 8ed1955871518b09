/-
  Wiretap.Proofs.Handovers
  ────────────────────────
  **WHAT A DISPATCH CALLS AND TELLS.**

  The sinks of a dispatch are called one behind the other, each on the disk that the one
  before it leaves (`handovers`).  All that a dispatch notes, reports and counts can be read
  off these calls:

    • `Journal.callSink_calls`  — one call, of the first sink that is left,
    • `Journal.callSinks_calls` — all calls, by induction on the sinks that are left,
    • `Journal.dispatch_calls`  — a whole dispatch: every sink, and then every listener.
-/
import Wiretap.Proofs.Notices

namespace Wiretap

/-! ## §1. Who is called on which disk. -/

/-- Sinks with the disks that they are called on, each with the one that the sink before it
leaves. -/
def handovers (r : Record) : Disk → List Sink → List Handover
  | _, [] => []
  | disk, s :: rest => ⟨s, disk⟩ :: handovers r (s.call disk r).disk rest

/-- The disk behind the calls of some sinks. -/
def diskBehind (r : Record) (disk : Disk) (sinks : List Sink) : Disk :=
  sinks.foldl (fun disk s => (s.call disk r).disk) disk

/-- What is noted of some calls, the first of them at an index. -/
def noticesOf (r : Record) (start : Nat) (met : List Handover) : List Notice :=
  (met.zipIdx start).flatMap fun (h, index) => h.notices r index

theorem handovers_append (r : Record) (disk : Disk) (sinks rest : List Sink) :
    handovers r disk (sinks ++ rest)
      = handovers r disk sinks ++ handovers r (diskBehind r disk sinks) rest := by
  induction sinks generalizing disk with
  | nil => rfl
  | cons s sinks ih => exact congrArg (List.cons ⟨s, disk⟩) (ih (s.call disk r).disk)

/-- Each sink is called once, in order. -/
theorem handovers_sinks (r : Record) (disk : Disk) (sinks : List Sink) :
    (handovers r disk sinks).map Handover.sink = sinks := by
  induction sinks generalizing disk with
  | nil => rfl
  | cons s sinks ih => exact congrArg (List.cons s) (ih (s.call disk r).disk)

theorem handovers_length (r : Record) (disk : Disk) (sinks : List Sink) :
    (handovers r disk sinks).length = sinks.length := by
  rw [← List.length_map (f := Handover.sink), handovers_sinks]

/-- Which sink was called with which record, if a notice tells of that. -/
def Notice.handed? : Notice → Option (Nat × Record)
  | .handed index r _ => some (index, r)
  | _ => none

theorem filterMap_noticesOf (r : Record) (start : Nat) (met : List Handover) :
    (noticesOf r start met).filterMap Notice.handed?
      = (List.range' start met.length).map (·, r) := by
  induction met generalizing start with
  | nil => rfl
  | cons h rest ih =>
      have hcall : (h.notices r start).filterMap Notice.handed? = [(start, r)] :=
        h.filterMap_notices r start fun _ _ => rfl
      show (h.notices r start ++ noticesOf r (start + 1) rest).filterMap Notice.handed? = _
      rw [List.filterMap_append, ih, hcall]
      rfl

/-- Of a call nothing else is noted than that, and what the sink emits. -/
theorem mem_noticesOf {r : Record} {start : Nat} {met : List Handover} {notice : Notice}
    (h : notice ∈ noticesOf r start met) :
    (∃ index disk, notice = .handed index r disk) ∨ ∃ event, notice = .event event := by
  obtain ⟨⟨handover, index⟩, -, hmem⟩ := List.mem_flatMap.mp h
  rcases List.mem_cons.mp hmem with rfl | hmem
  · exact Or.inl ⟨index, handover.disk, rfl⟩
  · obtain ⟨event, -, rfl⟩ := List.mem_map.mp hmem
    exact Or.inr ⟨event, rfl⟩

/-! ## §2. One call, and all calls. -/

namespace Journal

variable {j j' j'' : Journal} {r : Record}

/-- How many errors were counted under the name of a sink. -/
def errorsOf (j : Journal) (sink : String) : Nat := j.store.metrics.sinkErrors[sink]?.getD 0

/-- From one journal to a later one some sinks were called, the first of them at an index. -/
structure Calls (r : Record) (start : Nat) (met : List Handover) (j j' : Journal) : Prop where
  history : j'.history = j.history ++ noticesOf r start met
  counted : ∀ name, j'.errorsOf name
    = j.errorsOf name + (met.flatMap (·.errors r)).countP (·.sink = name)
  /-- Only the sinks themselves changed. -/
  delegate : j'.delegate = { j.delegate with sinks := j'.delegate.sinks }

theorem errorsOf_countErrors (j : Journal) (result : SinkResult) (name : String) :
    (j.countErrors result).errorsOf name
      = j.errorsOf name + result.errors.countP (·.sink = name) := by
  show (result.errors.foldl (fun m e => m.addSinkError e.sink)
      j.store.metrics).sinkErrors[name]?.getD 0
    = j.store.metrics.sinkErrors[name]?.getD 0 + _
  generalize j.store.metrics = m
  induction result.errors generalizing m with
  | nil => rfl
  | cons e rest ih =>
      rw [List.foldl_cons, ih]
      have hone : (m.addSinkError e.sink).sinkErrors[name]?.getD 0
          = m.sinkErrors[name]?.getD 0 + if e.sink = name then 1 else 0 := by
        simp only [Metrics.addSinkError, Std.ExtTreeMap.getElem?_insert,
          Std.LawfulEqCmp.compare_eq_iff_eq]
        by_cases he : e.sink = name
        · rw [if_pos he, if_pos he, he]
          rfl
        · rw [if_neg he, if_neg he]
          rfl
      rw [hone]
      simp only [List.countP_cons, decide_eq_true_eq]
      omega

/-- A call of the first sink that is left, behind the ones that were called. -/
theorem callSink_calls {done rest : List Sink} {s : Sink}
    (hsinks : j.delegate.sinks = done ++ s :: rest) (r : Record) :
    (j.callSink r done.length).1.errors = (Handover.mk s j.store.disk).errors r
      ∧ Calls r done.length [⟨s, j.store.disk⟩] j (j.callSink r done.length).2
      ∧ (j.callSink r done.length).2.store.disk = (s.call j.store.disk r).disk
      ∧ ∃ s', (j.callSink r done.length).2.delegate.sinks = (done ++ [s']) ++ rest := by
  have hsink : j.delegate.sinks[done.length]? = some s := by
    rw [hsinks, List.getElem?_append_right (Nat.le_refl _), Nat.sub_self]
    rfl
  have hhistory := (callSink_adds (r := r) hsink).history
  unfold callSink at hhistory ⊢
  rw [hsink] at hhistory ⊢
  refine ⟨rfl, ⟨?_, fun name => ?_, rfl⟩, rfl, (s.call j.store.disk r).sink, ?_⟩
  · rw [hhistory]
    simp [noticesOf]
  · rw [errorsOf_countErrors]
    simp [errorsOf, Handover.errors, Handover.call, note]
  · show j.delegate.sinks.set done.length (s.call j.store.disk r).sink = _
    rw [hsinks]
    simp

namespace Calls

variable {start : Nat} {met met' : List Handover}

theorem refl (r : Record) (start : Nat) (j : Journal) : Calls r start [] j j :=
  ⟨(List.append_nil _).symm, fun _ => rfl, rfl⟩

theorem trans (h : Calls r start met j j') (h' : Calls r (start + met.length) met' j' j'') :
    Calls r start (met ++ met') j j'' := by
  refine ⟨?_, fun name => ?_, ?_⟩
  · rw [h'.history, h.history, List.append_assoc]
    simp [noticesOf, List.zipIdx_append]
  · rw [h'.counted, h.counted]
    simp [Nat.add_assoc]
  · rw [h'.delegate, h.delegate]

end Calls

/-- Calling the sinks that are left, one behind the other. -/
theorem foldl_callNext {done rest : List Sink} (hsinks : j.delegate.sinks = done ++ rest)
    (r : Record) (result : SinkResult) :
    ((List.range' done.length rest.length).foldl (callNext r) (result, j)).1.errors
        = result.errors ++ (handovers r j.store.disk rest).flatMap (·.errors r)
      ∧ Calls r done.length (handovers r j.store.disk rest) j
        ((List.range' done.length rest.length).foldl (callNext r) (result, j)).2 := by
  -- by induction on the sinks that are left; the call of one puts it among the others
  induction rest generalizing done j result with
  | nil => exact ⟨(List.append_nil _).symm, .refl r _ j⟩
  | cons s rest ih =>
      obtain ⟨herrors, hcalls, hdisk, s', hsinks'⟩ := callSink_calls hsinks r
      have hlength : done.length + 1 = (done ++ [s']).length := by simp
      have hrest := ih hsinks' (result.combine (j.callSink r done.length).1)
      rw [← hlength, hdisk] at hrest
      show ((List.range' (done.length + 1) rest.length).foldl (callNext r)
          (result.combine (j.callSink r done.length).1, (j.callSink r done.length).2)).1.errors = _
        ∧ _
      refine ⟨?_, hcalls.trans hrest.2⟩
      rw [hrest.1]
      simp [SinkResult.combine, herrors, handovers]

theorem callSinks_calls (j : Journal) (r : Record) :
    (j.callSinks r).1.errors
        = (handovers r j.store.disk j.delegate.sinks).flatMap (·.errors r)
      ∧ Calls r 0 (handovers r j.store.disk j.delegate.sinks) j (j.callSinks r).2 := by
  unfold callSinks
  rw [List.range_eq_range']
  exact foldl_callNext (List.nil_append _).symm r .ok

/-- **A dispatch calls every sink and then tells every listener.** -/
theorem dispatch_calls (j : Journal) (r : Record) :
    (j.dispatch r).2.history = j.history
        ++ noticesOf r 0 (handovers r j.store.disk j.delegate.sinks)
        ++ j.delegate.listeners.map (.heard · r.id (j.dispatch r).1)
      ∧ (j.dispatch r).1.errors
        = (handovers r j.store.disk j.delegate.sinks).flatMap (·.errors r)
      ∧ ∀ name, (j.dispatch r).2.errorsOf name
        = j.errorsOf name + (j.dispatch r).1.errors.countP (·.sink = name) := by
  obtain ⟨herrors, hcalls⟩ := callSinks_calls j.enter r
  have hstore : j.enter.store = j.store := by rw [enter_eq]
  have hhistory : j.enter.history = j.history := by rw [enter_eq]
  have hsinks : j.enter.delegate.sinks = j.delegate.sinks := by rw [enter_eq]
  have hlisteners : (j.enter.callSinks r).2.delegate.listeners = j.delegate.listeners := by
    rw [hcalls.delegate, enter_eq]
  rw [hstore, hsinks] at herrors hcalls
  unfold dispatch
  simp only [leave_eq]
  refine ⟨?_, herrors, fun name => ?_⟩
  · rw [notify_eq, ← hlisteners]
    show (j.enter.callSinks r).2.history ++ _ = _
    rw [hcalls.history, hhistory]
  · show (j.enter.callSinks r).2.errorsOf name = _
    rw [hcalls.counted, herrors]
    simp only [errorsOf, hstore]

/-- A dispatch hands the record to every sink once, in order. -/
theorem dispatch_handed (j : Journal) (r : Record) :
    (j.dispatch r).2.history.filterMap Notice.handed? = j.history.filterMap Notice.handed?
      ++ (List.range j.delegate.sinks.length).map (·, r) := by
  have hheard : (j.delegate.listeners.map fun l => Notice.heard l r.id (j.dispatch r).1).filterMap
      Notice.handed? = [] := by
    rw [List.filterMap_map]
    exact List.filterMap_eq_nil_iff.mpr fun _ _ => rfl
  rw [(j.dispatch_calls r).1, List.filterMap_append, List.filterMap_append, hheard,
    filterMap_noticesOf, handovers_length, List.range_eq_range', List.append_nil]

end Journal

end Wiretap
