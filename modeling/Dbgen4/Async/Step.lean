import Dbgen4.Lts
import Dbgen4.Async.Basic

/-!
# The asynchronous facade: steps

The interleaved steps of the client and of `worker_loop`. A step is one critical
section under `mtx_`, one notification, one call of the backend, or what a
thread does by itself before the next of these. A thread whose predicate does
not hold goes to sleep in the critical section that found it false; it is woken
by a notification, or spuriously, and looks again.

A step is labelled by an `Event`, so that the trace of a run tells what was
called, queued, run and returned; `Event.tau` is a step of which nothing is
told. The last part of this file reads traces: they are latest first
(`Dbgen4.Lts`), and what is read from them is in chronological order.
-/

namespace Dbgen4.Async

open Rtl

/-- What a step tells. -/
inductive Event
  /-- A call, with what the caller's buffer of its statement holds. -/
  | call (op : Op) (held : Option ParamBuffer)
  /-- The caller writes into its own parameter buffer of a statement. -/
  | write (id : Nat) (par : ParamBuffer)
  | isFinished (r : Except DbError ExecStatus)
  /-- `error()`, also where a call ends by reading it. -/
  | error (r : Option DbError)
  /-- `post_to_worker` drops the job: an error is pending. -/
  | discard (qj : QueuedJob)
  /-- `post_to_worker` found no error pending, and waits for the slot. -/
  | blocked (qj : QueuedJob)
  | enqueue (qj : QueuedJob)
  /-- `error_.reset()`. -/
  | clear
  | ret (r : Result)
  /-- The worker takes the job. -/
  | start (qj : QueuedJob)
  /-- The job returns early: `has_error()`. -/
  | skip (qj : QueuedJob)
  | execute (qj : QueuedJob) (par : ParamBuffer) (out : Option DbError)
  | fetch (qj : QueuedJob) (out : Except DbError Bool)
  /-- `note_error` stores the error. -/
  | record (e : DbError)
  | prepare (out : Option DbError)
  | commit (sts : DbSts)
  | rollback (sts : DbSts)
  /-- The job has returned and `busy_` is cleared. -/
  | finish (qj : QueuedJob)
  | tau

variable {B : Backend}

/-- The steps of the client. -/
inductive ClientStep : State B → Event → State B → Prop
  | write {s : State B} {i : Nat} {c : Caller} {par : ParamBuffer} :
    s.client = .idle → s.callers[i]? = some c → par.strides = c.par.strides →
    ClientStep s (.write i par) { s with callers := s.callers.set i { c with par := par } }
  | isFinished {s : State B} : s.client = .idle → ClientStep s (.isFinished s.isFinished) s
  | error {s : State B} : s.client = .idle → ClientStep s (.error s.error) s
  | call {s : State B} {op : Op} : s.client = .idle → s.Allows op →
    ClientStep s (.call op (s.held op)) { s with frame := {}, client := s.begin op }
  -- `post_to_worker`
  | discard {s : State B} {c : PostCtx} {qj : QueuedJob} :
    s.client = .post c qj false → s.error.isSome →
    ClientStep s (.discard qj) { s with client := c.next }
  | store {s : State B} {c : PostCtx} {qj : QueuedJob} {even : Bool} :
    s.client = .post c qj even → (s.error = none ∨ even = true) → s.pending = none →
    ClientStep s (.enqueue qj) { s with pending := some qj, client := .notify c }
  | blocked {s : State B} {c : PostCtx} {qj : QueuedJob} {even : Bool} :
    s.client = .post c qj even → (s.error = none ∨ even = true) → s.pending.isSome →
    ClientStep s (.blocked qj) { s with client := .slotAsleep c qj }
  | slotSpurious {s : State B} {c : PostCtx} {qj : QueuedJob} :
    s.client = .slotAsleep c qj → ClientStep s .tau { s with client := .slotAwake c qj }
  | slotStore {s : State B} {c : PostCtx} {qj : QueuedJob} :
    s.client = .slotAwake c qj → s.pending = none →
    ClientStep s (.enqueue qj) { s with pending := some qj, client := .notify c }
  | slotSleep {s : State B} {c : PostCtx} {qj : QueuedJob} :
    s.client = .slotAwake c qj → s.pending.isSome →
    ClientStep s .tau { s with client := .slotAsleep c qj }
  | notify {s : State B} {c : PostCtx} : s.client = .notify c →
    ClientStep s .tau { s with worker := s.worker.notified, client := c.next }
  -- `drain`
  | drained {s : State B} {c : DrainCtx} : s.client = .drain c → s.Drained →
    ClientStep s .tau { s with client := s.afterDrain c }
  | drainSleep {s : State B} {c : DrainCtx} : s.client = .drain c → ¬s.Drained →
    ClientStep s .tau { s with client := .drainAsleep c }
  | drainSpurious {s : State B} {c : DrainCtx} :
    s.client = .drainAsleep c → ClientStep s .tau { s with client := .drain c }
  -- the ends of the calls
  | readExec {s : State B} : s.client = .readExec →
    ClientStep s (.error s.error) { s with client := .ret (.exec (s.orError .finished)) }
  | readSync {s : State B} : s.client = .readSync →
    ClientStep s (.error s.error)
      { s with client := .ret (.executeSync (s.orError s.frame.fetched)) }
  | readFetch {s : State B} : s.client = .readFetch →
    ClientStep s (.error s.error) { s with client := .ret (.fetchMore (s.orError s.frame.fetched)) }
  | readCommit {s : State B} : s.client = .readCommit →
    ClientStep s (.error s.error) { s with client := s.afterReadCommit }
  | assembleError {s : State B} {stmt : StmtType} {n : Nat} {e : DbError} :
    s.client = .assemble stmt n → s.frame.err = some e →
    ClientStep s .tau { s with client := .ret (.prepare (.error e)) }
  -- `t->qry()` on a null `t`, which only a statement with results calls
  | assembleCrash {s : State B} {stmt : StmtType} {n : Nat} :
    s.client = .assemble stmt n → s.frame.err = none → s.frame.task.isNone → stmt.hasResults →
    ClientStep s .tau { s with client := .crashed }
  | assemble {s : State B} {stmt : StmtType} {n : Nat} :
    s.client = .assemble stmt n → s.frame.err = none → (s.frame.task.isSome ∨ ¬stmt.hasResults) →
    ClientStep s .tau { s with
      tasks := s.tasks ++ [s.frame.task]
      callers := s.callers ++ [⟨stmt, stmt.makeParams n⟩]
      client := .ret (.prepare (.ok s.tasks.length)) }
  | clearCommit {s : State B} {e : DbError} : s.client = .clearCommit e →
    ClientStep s .clear { s with error := none, client := .ret (.commit (.error e)) }
  | clearRollback {s : State B} : s.client = .clearRollback →
    ClientStep s .clear { s with
      error := none
      client := .ret (.rollback (boundaryResult "rollback failed" s.frame.sts)) }
  | setStop {s : State B} : s.client = .setStop →
    ClientStep s .tau { s with stop := true, client := .notifyStop }
  | notifyStop {s : State B} : s.client = .notifyStop →
    ClientStep s .tau { s with worker := s.worker.notified, client := .join }
  | join {s : State B} : s.client = .join → s.worker = .exited →
    ClientStep s .tau { s with client := .ret .destroyed }
  | ret {s : State B} {r : Result} : s.client = .ret r →
    ClientStep s (.ret r) { s with client := r.next }

/-- The steps of the worker. -/
inductive WorkerStep : State B → Event → State B → Prop
  | take {s : State B} {qj : QueuedJob} : s.worker = .top → s.pending = some qj →
    WorkerStep s (.start qj) { s with
      pending := none, busy := true, runningTaskId := qj.taskId, worker := .took qj }
  | exit {s : State B} : s.worker = .top → s.pending = none → s.stop = true →
    WorkerStep s .tau { s with worker := .exited }
  | sleep {s : State B} : s.worker = .top → s.pending = none → s.stop = false →
    WorkerStep s .tau { s with worker := .asleep }
  | spurious {s : State B} : s.worker = .asleep → WorkerStep s .tau { s with worker := .top }
  | slotFree {s : State B} {qj : QueuedJob} : s.worker = .took qj →
    WorkerStep s .tau { s with client := s.client.notified, worker := .run qj qj.fn.entry }
  -- the statement jobs
  | skip {s : State B} {qj : QueuedJob} : s.worker = .run qj .check → s.error.isSome →
    WorkerStep s (.skip qj) { s with worker := .run qj .done }
  | check {s : State B} {qj : QueuedJob} : s.worker = .run qj .check → s.error = none →
    WorkerStep s .tau { s with worker := .run qj qj.fn.afterCheck }
  | restore {s : State B} {qj : QueuedJob} {i : Nat} {snap : ParamSnapshot} {t : Task B}
      {par : ParamBuffer} :
    s.worker = .run qj .restore → qj.fn.statement = some (i, snap) → s.task i = some t →
    (if t.stmt.hasParameters then restoreParams t.par snap else some t.par) = some par →
    WorkerStep s .tau { s with
      tasks := s.tasks.set i (some { t with par := par }), worker := .run qj .execute }
  | restoreOverflow {s : State B} {qj : QueuedJob} {i : Nat} {snap : ParamSnapshot} {t : Task B} :
    s.worker = .run qj .restore → qj.fn.statement = some (i, snap) → s.task i = some t →
    t.stmt.hasParameters → restoreParams t.par snap = none →
    WorkerStep s .tau { s with worker := .crashed qj }
  | restoreNull {s : State B} {qj : QueuedJob} {i : Nat} {snap : ParamSnapshot} :
    s.worker = .run qj .restore → qj.fn.statement = some (i, snap) → s.task i = none →
    WorkerStep s .tau { s with worker := .crashed qj }
  | execute {s : State B} {qj : QueuedJob} {i : Nat} {snap : ParamSnapshot} {t : Task B}
      {db : B.Db} {query : B.Query} :
    s.worker = .run qj .execute → qj.fn.statement = some (i, snap) → s.task i = some t →
    B.execute s.db t.query t.par = (none, db, query) →
    WorkerStep s (.execute qj t.par none) { s with
      db := db
      tasks := s.tasks.set i (some { t with query := query })
      worker := .run qj (qj.fn.afterExecute t.stmt) }
  | executeError {s : State B} {qj : QueuedJob} {i : Nat} {snap : ParamSnapshot} {t : Task B}
      {e : DbError} {db : B.Db} {query : B.Query} :
    s.worker = .run qj .execute → qj.fn.statement = some (i, snap) → s.task i = some t →
    B.execute s.db t.query t.par = (some e, db, query) →
    WorkerStep s (.execute qj t.par (some e)) { s with
      db := db, tasks := s.tasks.set i (some { t with query := query }),
        worker := .run qj (.note e) }
  | fetch {s : State B} {qj : QueuedJob} {i : Nat} {t : Task B} {b : Bool} {db : B.Db}
      {query : B.Query} :
    s.worker = .run qj .fetch → qj.taskId = some i → s.task i = some t →
    B.fetch s.db t.query = (.ok b, db, query) →
    WorkerStep s (.fetch qj (.ok b)) { s with
      db := db
      tasks := s.tasks.set i (some { t with query := query })
      frame := if qj.fn.keepsFetched then { s.frame with fetched := b } else s.frame
      worker := .run qj .done }
  | fetchError {s : State B} {qj : QueuedJob} {i : Nat} {t : Task B} {e : DbError} {db : B.Db}
      {query : B.Query} :
    s.worker = .run qj .fetch → qj.taskId = some i → s.task i = some t →
    B.fetch s.db t.query = (.error e, db, query) →
    WorkerStep s (.fetch qj (.error e)) { s with
      db := db
      tasks := s.tasks.set i (some { t with query := query })
      frame := if qj.fn.keepsFetched then { s.frame with fetched := false } else s.frame
      worker := .run qj (.note e) }
  | fetchNull {s : State B} {qj : QueuedJob} {i : Nat} :
    s.worker = .run qj .fetch → qj.taskId = some i → s.task i = none →
    WorkerStep s .tau { s with worker := .crashed qj }
  -- `note_error`: the first error is kept
  | record {s : State B} {qj : QueuedJob} {e : DbError} :
    s.worker = .run qj (.note e) → s.error = none →
    WorkerStep s (.record e) { s with error := some e, worker := .run qj .done }
  | keep {s : State B} {qj : QueuedJob} {e : DbError} :
    s.worker = .run qj (.note e) → s.error.isSome →
    WorkerStep s .tau { s with worker := .run qj .done }
  -- the other jobs
  | prepareError {s : State B} {qj : QueuedJob} {stmt : StmtType} {sql : String} {n m : Nat}
      {e : DbError} {db : B.Db} :
    s.worker = .run qj .direct → qj.fn = .prepare stmt sql n m →
    B.prepare s.db stmt sql (stmt.makeParams n) m = (.error e, db) →
    WorkerStep s (.prepare (some e)) { s with
      db := db, frame := { s.frame with err := some e }, worker := .run qj .done }
  | prepare {s : State B} {qj : QueuedJob} {stmt : StmtType} {sql : String} {n m : Nat}
      {query : B.Query} {db : B.Db} :
    s.worker = .run qj .direct → qj.fn = .prepare stmt sql n m →
    B.prepare s.db stmt sql (stmt.makeParams n) m = (.ok query, db) →
    WorkerStep s (.prepare none) { s with
      db := db
      frame := { s.frame with task := some ⟨stmt, stmt.makeParams n, query⟩ }
      worker := .run qj .done }
  | commit {s : State B} {qj : QueuedJob} {sts : DbSts} {db : B.Db} :
    s.worker = .run qj .direct → qj.fn = .commit → B.commit s.db = (sts, db) →
    WorkerStep s (.commit sts) { s with
      db := db, frame := { s.frame with sts := sts }, worker := .run qj .done }
  | rollbackIgnored {s : State B} {qj : QueuedJob} {sts : DbSts} {db : B.Db} :
    s.worker = .run qj .direct → qj.fn = .rollbackIgnored → B.rollback s.db = (sts, db) →
    WorkerStep s (.rollback sts) { s with db := db, worker := .run qj .done }
  | rollback {s : State B} {qj : QueuedJob} {sts : DbSts} {db : B.Db} :
    s.worker = .run qj .direct → qj.fn = .rollback → B.rollback s.db = (sts, db) →
    WorkerStep s (.rollback sts) { s with
      db := db, frame := { s.frame with sts := sts }, worker := .run qj .done }
  -- back in `worker_loop`
  | finish {s : State B} {qj : QueuedJob} : s.worker = .run qj .done →
    WorkerStep s (.finish qj) { s with busy := false, runningTaskId := none, worker := .notify }
  | notify {s : State B} : s.worker = .notify →
    WorkerStep s .tau { s with client := s.client.notified, worker := .top }

/-- `async_db` on the backend `B`: it starts on a connection, without a statement,
    and then the client and the worker step in any order. -/
def asyncDb (B : Backend) : Lts (State B) Event where
  init := {s | ∃ db, s = { db := db }}
  step s e s' := ClientStep s e s' ∨ WorkerStep s e s'

/-! ## Reading traces -/

namespace Event

/-- The job a step enqueues. -/
@[simp] def enqueued : Event → Option QueuedJob
  | .enqueue qj => some qj
  | _ => none

/-- The job a step takes. -/
@[simp] def started : Event → Option QueuedJob
  | .start qj => some qj
  | _ => none

/-- The job a step ends. -/
@[simp] def finished : Event → Option QueuedJob
  | .finish qj => some qj
  | _ => none

/-- The failure of a statement: of its execution or of a fetch. -/
@[simp] def failed : Event → Option DbError
  | .execute _ _ (some e) => some e
  | .fetch _ (.error e) => some e
  | _ => none

end Event

/-- The jobs enqueued. -/
def enqueued (tr : List Event) : List QueuedJob := chron Event.enqueued tr

/-- The jobs the worker has taken. -/
def started (tr : List Event) : List QueuedJob := chron Event.started tr

/-- The jobs that have run to completion. -/
def finished (tr : List Event) : List QueuedJob := chron Event.finished tr

/-- The failures of statements since the error was last cleared. -/
def failures : List Event → List DbError
  | [] => []
  | .clear :: _ => []
  | e :: tr => failures tr ++ e.failed.toList

end Dbgen4.Async
