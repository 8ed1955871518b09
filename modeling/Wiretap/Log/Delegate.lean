/-
  Wiretap.Log.Delegate
  ────────────────────
  **HANDING A RECORD TO EVERY SINK.**

  A dispatch calls every sink once, in order, whatever the others do, and then tells every
  listener the result.  It is made of steps, so that it can also be carried out bit by bit
  on a thread of its own.

    • `Journal.dispatch` — a whole dispatch,
    • `Journal.submit`   — a dispatch and the end of the record.
-/
import Wiretap.Log.Journal

namespace Wiretap

/-! ## §1. The steps of a dispatch. -/

/-- A dispatch that is under way. -/
inductive Job
  /-- The sinks before `next` have been called. -/
  | calling (record : Record) (next : Nat) (result : SinkResult)
  /-- All sinks have been called and all listeners told. -/
  | finishing (record : Record) (result : SinkResult)

/-- The record that a job is about. -/
def Job.record : Job → Record
  | .calling r _ _ => r
  | .finishing r _ => r

namespace Journal

/-- With the state of the logger moved from one value to another, if it has the first. -/
def exchangeState (j : Journal) (old new : LoggerState) : Journal :=
  let d := j.delegate
  if d.state = old then { j with delegate := { d with state := new } } else j

/-- A dispatch begins; the first one under way makes an idle logger busy. -/
def enter (j : Journal) : Journal :=
  let d := j.delegate
  let begun := { j with delegate := { d with inFlight := d.inFlight + 1 } }
  if d.inFlight = 0 then begun.exchangeState .idle .dispatching else begun

/-- A dispatch ends; the last one under way makes a busy logger idle. -/
def leave (j : Journal) : Journal :=
  let d := j.delegate
  let ended := { j with delegate := { d with inFlight := d.inFlight - 1 } }
  if d.inFlight = 1 then ended.exchangeState .dispatching .idle else ended

/-- Counts the errors of a result, each under its sink. -/
def countErrors (j : Journal) (result : SinkResult) : Journal :=
  j.count fun m => result.errors.foldl (fun m e => m.addSinkError e.sink) m

/-- Calls the sink at an index with a record. -/
def callSink (j : Journal) (r : Record) (index : Nat) : SinkResult × Journal :=
  match j.delegate.sinks[index]? with
  | none => (.ok, j)
  | some sink =>
    let j := j.note [.handed index r j.store.disk]
    let call := sink.call j.store.disk r
    let result := call.answer.result sink.name
    let j := { j with
      store := { j.store with disk := call.disk }
      delegate := { j.delegate with sinks := j.delegate.sinks.set index call.sink } }
    (result, (j.note (call.events.map .event)).countErrors result)

/-- A call of a listener: what is noted of it, and whether it ends in a panic. -/
def callListener (id : ExchangeId) (result : SinkResult) (l : Listener) : List Notice × Bool :=
  ([.heard l id result], l.panics)

/-- Tells every listener a result.  A panic is caught where the listener is called, and the next
one is told all the same. -/
def notify (j : Journal) (r : Record) (result : SinkResult) : Journal :=
  j.note (j.delegate.listeners.flatMap fun l =>
    match callListener r.id result l with
    | (heard, _panicked) => heard)

/-! ## §2. A whole dispatch. -/

/-- The result so far with that of one more sink. -/
def callNext (r : Record) (so : SinkResult × Journal) (index : Nat) : SinkResult × Journal :=
  let (result, j) := so.2.callSink r index
  (so.1.combine result, j)

/-- Calls every sink, in order. -/
def callSinks (j : Journal) (r : Record) : SinkResult × Journal :=
  (List.range j.delegate.sinks.length).foldl (callNext r) (.ok, j)

/-- Hands a record to every sink and tells the listeners. -/
def dispatch (j : Journal) (r : Record) : SinkResult × Journal :=
  let (result, j) := j.enter.callSinks r
  (result, (j.notify r result).leave)

/-- Takes a record and sees it through to its end: it is dropped once the logger was
stopped. -/
def submit (j : Journal) (r : Record) : Journal :=
  if j.delegate.state = .stopped then
    ((j.count fun m => { m with dropped := m.dropped + 1 }).finish r .dropped).1
  else
    let (result, j) := j.dispatch r
    ((j.count fun m => { m with dispatched := m.dispatched + 1 }).finish r (.delivered result)).1

/-- Refuses all further records. -/
def stop (j : Journal) : Journal :=
  let d := j.delegate
  { j with delegate := { d with state := .stopped } }

/-! ## §3. A dispatch bit by bit. -/

/-- The next step of a job: the job behind it, or the result when it is done. -/
def stepJob (j : Journal) : Job → (Job ⊕ SinkResult) × Journal
  | .calling r next result =>
    if next < j.delegate.sinks.length then
      let (result, j) := callNext r (result, j) next
      (.inl (.calling r (next + 1) result), j)
    else (.inl (.finishing r result), (j.notify r result).leave)
  | .finishing r result => (.inr result, (j.finish r (.delivered result)).1)

end Journal

end Wiretap
