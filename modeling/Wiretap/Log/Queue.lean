/-
  Wiretap.Log.Queue
  ─────────────────
  **LOGGING IN THE BACKGROUND.**

  A bounded queue stands between those who submit records and one worker that dispatches
  them.  A submission never waits: what finds no room is dropped.  Everything is told in
  steps that several parties can take in any order:

      submission  — count, try to send, settle (or tally, weigh, warn, release)
      worker      — receive, un-count, dispatch sink by sink, count, rest
      shutdown    — take the sender, drain, take the handle, wait or give up, stop

  `Background.submit` and `Background.work` run the steps of one party without a break.
-/
import Wiretap.Log.Delegate

namespace Wiretap

/-! ## §1. The queue. -/

/-- What the queue counts. -/
structure QueueStats where
  enqueued : Nat
  dropped : Nat
  dispatched : Nat
  /-- Dispatched records for which a sink failed. -/
  failed : Nat
  /-- Records that are in the queue or on their way into it. -/
  queued : Nat
  deriving DecidableEq, Repr

/-- What the worker is about to do. -/
inductive Worker
  /-- Waits for a record. -/
  | waiting
  /-- Has taken a record. -/
  | received (record : Record)
  /-- Has counted it out of the queue. -/
  | starting (record : Record)
  /-- Waits for a dispatch that runs on a thread of its own. -/
  | dispatching (job : Job)
  /-- Knows the result of a dispatch. -/
  | returned (result : SinkResult)
  /-- Has counted it. -/
  | counted
  /-- Has left, because nobody can send any more. -/
  | exited
  /-- Was stopped by force. -/
  | aborted

/-- The queue with its worker. -/
structure Queue where
  capacity : Nat
  /-- How many drops there are at least between two warnings. -/
  warnEvery : Nat
  /-- The number of the drop that was warned of last. -/
  lastWarned : Nat
  /-- Whether there is a sender left. -/
  accepting : Bool
  channel : List Record
  stats : QueueStats
  state : LoggerState
  worker : Worker
  /-- Whether nobody has taken the handle of the worker yet. -/
  hasHandle : Bool
  /-- Dispatches whose worker was stopped by force; they run on. -/
  detached : List Job

/-- A journal with a queue in front of its logger. -/
structure Background where
  journal : Journal
  queue : Queue

/-- The most records that a queue can have room for. -/
def Queue.maxCapacity : Nat := 2305843009213693951

/-- The wording where a queue is asked to have room for more. -/
def Queue.tooLarge : String :=
  "a semaphore may not have more than MAX_PERMITS permits (" ++ toString Queue.maxCapacity ++ ")"

/-- A queue with room for at least one record, unless it is to be too large. -/
def Queue.ofCapacity? (capacity warnEvery : Nat) : Option Queue :=
  if Queue.maxCapacity < capacity then none
  else some
    ⟨max capacity 1, warnEvery, 0, true, [], ⟨0, 0, 0, 0, 0⟩, .idle, .waiting, true, []⟩

namespace Background

/-- With the counts changed. -/
def tally (b : Background) (f : QueueStats → QueueStats) : Background :=
  { b with queue := { b.queue with stats := f b.queue.stats } }

/-- With the worker elsewhere. -/
def move (b : Background) (worker : Worker) : Background :=
  { b with queue := { b.queue with worker } }

/-- With the gauge set. -/
def report (b : Background) (depth : Nat) : Background :=
  { b with journal := b.journal.count fun m => { m with queueDepth := some depth } }

/-- With the state moved from one value to another, if it has the first. -/
def exchangeState (b : Background) (old new : LoggerState) : Background :=
  if b.queue.state = old then { b with queue := { b.queue with state := new } } else b

/-- With a record ended. -/
def finish (b : Background) (r : Record) (disposition : Disposition) : Background :=
  { b with journal := (b.journal.finish r disposition).1 }

end Background

/-! ## §2. Submissions. -/

/-- What a submission is about to do. -/
inductive Submission
  /-- Nothing has been done yet. -/
  | fresh (record : Record)
  /-- The record is counted. -/
  | counted (record : Record) (depth : Nat)
  /-- The record is in the queue. -/
  | accepted (depth : Nat)
  /-- The record was not taken. -/
  | refused (record : Record) (reason : RejectReason)
  /-- It is counted out again. -/
  | uncounted (record : Record) (reason : RejectReason)
  /-- It is counted as a drop, with a number. -/
  | tallied (record : Record) (reason : RejectReason) (total : Nat)
  /-- The last warning has been looked up. -/
  | weighed (record : Record) (reason : RejectReason) (total last : Nat)
  /-- What is left is to let go of the record. -/
  | releasing (record : Record)
  | done

/-- Whether a drop is too close behind the last one that was warned of. -/
def Queue.isQuiet (q : Queue) (total last : Nat) : Bool :=
  total < min (last + q.warnEvery) (UInt64.size - 1) && last != 0

/-- Tries to put a record into the queue. -/
def Queue.trySend (q : Queue) (r : Record) : Except RejectReason Queue :=
  if !q.accepting then .error .loggerStopped
  else if q.channel.length < q.capacity then .ok { q with channel := q.channel ++ [r] }
  else .error .queueFull

/-- The next step of a submission. -/
def Submission.step (b : Background) : Submission → Submission × Background
  | .fresh r =>
    (.counted r (b.queue.stats.queued + 1),
      b.tally fun s => { s with queued := s.queued + 1 })
  | .counted r depth =>
    match b.queue.trySend r with
    | .ok queue => (.accepted depth, { b with queue })
    | .error reason => (.refused r reason, b)
  | .accepted depth =>
    (.done, (b.tally fun s => { s with enqueued := s.enqueued + 1 }).report depth)
  | .refused r reason =>
    (.uncounted r reason, b.tally fun s => { s with queued := s.queued - 1 })
  | .uncounted r reason =>
    (.tallied r reason (b.queue.stats.dropped + 1),
      { b.tally fun s => { s with dropped := s.dropped + 1 } with
        journal := b.journal.count fun m => { m with dropped := m.dropped + 1 } })
  | .tallied r reason total => (.weighed r reason total b.queue.lastWarned, b)
  | .weighed r reason total last =>
    if b.queue.isQuiet total last || b.queue.lastWarned ≠ last then (.releasing r, b)
    else
      (.releasing r,
        ⟨b.journal.note [.event (.dropping r.id total reason)],
          { b.queue with lastWarned := total }⟩)
  | .releasing r => (.done, b.finish r .dropped)
  | .done => (.done, b)

/-- Takes at most `steps` steps of a submission. -/
def Submission.run : (steps : Nat) → Submission → Background → Background
  | 0, _, b => b
  | _ + 1, .done, b => b
  | n + 1, s, b => let (s, b) := s.step b; Submission.run n s b

/-- The most steps of a submission. -/
def Submission.maxSteps : Nat := 7

/-- Submits a record, without a break. -/
def Background.submit (b : Background) (r : Record) : Background :=
  Submission.run Submission.maxSteps (.fresh r) b

/-! ## §3. The worker. -/

/-- The next step of the worker; none while it waits, and none once it is gone. -/
def Background.work (b : Background) : Option Background :=
  match b.queue.worker with
  | .waiting =>
    match b.queue.channel with
    | r :: rest => some { b with queue := { b.queue with channel := rest, worker := .received r } }
    | [] => if b.queue.accepting then none else some (b.move .exited)
  | .received r =>
    let depth := b.queue.stats.queued - 1
    let b := (b.tally fun s => { s with queued := s.queued - 1 }).report depth
    some ((b.exchangeState .idle .dispatching).move (.starting r))
  | .starting r =>
    some ({ b with journal := b.journal.enter }.move (.dispatching (.calling r 0 .ok)))
  | .dispatching job =>
    match b.journal.stepJob job with
    | (.inl job, journal) => some ({ b with journal }.move (.dispatching job))
    | (.inr result, journal) => some ({ b with journal }.move (.returned result))
  | .returned result =>
    let failures := if result.isOk then 0 else 1
    let b := b.tally fun s =>
      { s with dispatched := s.dispatched + 1, failed := s.failed + failures }
    some ({ b with journal := b.journal.count fun m =>
      { m with dispatched := m.dispatched + 1 } }.move .counted)
  | .counted =>
    let b := if b.queue.stats.queued = 0 then b.exchangeState .dispatching .idle else b
    some (b.move .waiting)
  | .exited => none
  | .aborted => none

/-- The next step of the dispatches whose worker was stopped by force. -/
def Background.workDetached (b : Background) : Option Background :=
  match b.queue.detached with
  | [] => none
  | job :: rest =>
    match b.journal.stepJob job with
    | (.inl job, journal) => some { journal, queue := { b.queue with detached := job :: rest } }
    | (.inr _, journal) => some { journal, queue := { b.queue with detached := rest } }

/-! ## §4. Shutdown. -/

/-- What a shutdown is about to do. -/
inductive Shutdown
  | begun
  /-- Nobody can send any more. -/
  | closed
  /-- The state says so. -/
  | draining
  /-- The worker is waited for. -/
  | waiting
  /-- It is known whether the queue was emptied. -/
  | ending (drained : Bool)
  | ended (drained : Bool)
  deriving DecidableEq, Repr

/-- Stops the worker by force, where it waits for something.  A dispatch that runs goes on
without it; the records left in the queue are dropped. -/
def Background.abort? (b : Background) : Option Background :=
  let discard (b : Background) (detached : List Job) : Background :=
    let left := b.queue.channel
    let queue := { b.queue with channel := [], worker := .aborted, detached }
    left.foldl (fun b r => b.finish r .dropped) { b with queue }
  match b.queue.worker with
  | .waiting => some (discard b b.queue.detached)
  | .dispatching job => some (discard b (b.queue.detached ++ [job]))
  | _ => none

/-- The next step of a shutdown; `expired` says whether the time to wait is over.  There
is none while it waits. -/
def Shutdown.step (b : Background) (expired : Bool) : Shutdown → Option (Shutdown × Background)
  | .begun => some (.closed, { b with queue := { b.queue with accepting := false } })
  | .closed => some (.draining, { b with queue := { b.queue with state := .draining } })
  | .draining =>
    if b.queue.hasHandle then
      some (.waiting, { b with queue := { b.queue with hasHandle := false } })
    else some (.ending true, b)
  | .waiting =>
    match b.queue.worker with
    | .exited => some (.ending true, b)
    | .aborted => some (.ending true, b)
    | _ => if expired then b.abort?.map fun b => (.ending false, b) else none
  | .ending drained =>
    some (.ended drained, { b with queue := { b.queue with state := .stopped } })
  | .ended _ => none

end Wiretap
