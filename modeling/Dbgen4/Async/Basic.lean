import Dbgen4.Rtl.SqlTypes
import Dbgen4.Async.Snapshot

/-!
# The asynchronous facade: jobs, calls and state

`rtl::async_db` (`rtl/async_db.hpp`, `rtl/async_db.cpp`) runs the statements of
one client thread on one worker thread, through a queue that is one job deep.
This file has its data:

* what it uses of the linked backend (`Backend`): the connection and the
  prepared queries are opaque, and a backend is any functions on them; what the
  server will answer is part of the state `Backend.Db`, so that a statement
  about all backends is about all outcomes;
* the jobs it queues (`Job`, `QueuedJob`), each the closure the source passes to
  `post_to_worker`, with the values it captures;
* the calls of the client (`Op`) and what they return (`Result`);
* where the two threads are (`ClientPc`, `WorkerPc`): one constructor for each
  point between two critical sections at which a thread can be overtaken;
* the state (`State`): the members of `async_db`, the caller's buffers, the
  locals of the call in progress that the job captures by reference (`Frame`)
  and the positions of the two threads.

The steps are in `Dbgen4.Async.Step`.
-/

namespace Dbgen4.Async

open Rtl

/-- What the template parameters `params` and `results` of a statement fix. -/
structure StmtType where
  /-- The strides of the parameter columns; none for `rtl::no_params`. -/
  params : List Nat
  /-- `params::default_buffer_size`. -/
  defaultRows : Nat := 1
  /-- `results::has_results()`. -/
  hasResults : Bool
  deriving DecidableEq, Repr

/-- `params::has_parameters()`. -/
def StmtType.hasParameters (st : StmtType) : Bool := !st.params.isEmpty

/-- The parameter buffer `prepare` makes for `param_rows` rows, both for the query
    and for the caller: resized only for a batch. -/
def StmtType.makeParams (st : StmtType) (paramRows : Nat) : ParamBuffer :=
  if st.hasParameters && decide (1 < paramRows) then .setBufferSize st.params paramRows
  else .setBufferSize st.params st.defaultRows

/-- The linked backend, as far as `async_db` calls it. -/
structure Backend where
  /-- The connection `db_`, and what its server will answer. -/
  Db : Type
  /-- A prepared `query<params, results>`, without its parameter buffer. -/
  Query : Type
  /-- The body of the job of `async_db::prepare`: the cast to `database`, the
      construction of the query, the sizing of its buffers and `query::prepare`. -/
  prepare : Db → StmtType → String → ParamBuffer → Nat → Except DbError Query × Db
  /-- `query::execute`, on the query's parameter buffer. -/
  execute : Db → Query → ParamBuffer → Option DbError × Db × Query
  /-- `query::fetch`. -/
  fetch : Db → Query → Except DbError Bool × Db × Query
  /-- `db::commit`. -/
  commit : Db → DbSts × Db
  /-- `db::rollback`. -/
  rollback : Db → DbSts × Db

/-- `detail::task`: a registered statement with its query. -/
structure Task (B : Backend) where
  stmt : StmtType
  /-- The parameter buffer of the query. -/
  par : ParamBuffer
  query : B.Query

/-! ## Jobs -/

/-- The closures handed to `post_to_worker`. -/
inductive Job
  | prepare (stmt : StmtType) (sql : String) (paramRows resultRows : Nat)
  | submit (id : Nat) (snap : ParamSnapshot)
  | exec (id : Nat) (snap : ParamSnapshot)
  | executeSync (id : Nat) (snap : ParamSnapshot)
  | fetchMore (id : Nat)
  /-- `commit()`: `sts = db_.commit()`. -/
  | commit
  /-- `commit()` after an error: `(void)db_.rollback()`. -/
  | rollbackIgnored
  /-- `rollback()`: `sts = db_.rollback()`. -/
  | rollback
  deriving DecidableEq, Repr

/-- The statement a job executes, and the parameters it carries. -/
def Job.statement : Job → Option (Nat × ParamSnapshot)
  | .submit i snap | .exec i snap | .executeSync i snap => some (i, snap)
  | _ => none

/-- The jobs queued by `submit` and `exec`, which the client does not wait for. -/
def Job.isUnattended : Job → Bool
  | .submit _ _ | .exec _ _ => true
  | _ => false

/-- The jobs whose result the client keeps in its local `fetched`. -/
def Job.keepsFetched : Job → Bool
  | .executeSync _ _ | .fetchMore _ => true
  | _ => false

/-- `async_db::queued_job`. -/
structure QueuedJob where
  fn : Job
  taskId : Option Nat
  deriving DecidableEq, Repr

/-! ## Calls -/

/-- `query_handle`, by its `id_`; `none` is `npos`. -/
structure QueryHandle where
  id : Option Nat
  deriving DecidableEq, Repr

/-- The calls of the client, the destructor included. -/
inductive Op
  | prepare (stmt : StmtType) (sql : String) (paramRows resultRows : Nat)
  | submit (h : QueryHandle)
  | exec (h : QueryHandle)
  | executeSync (h : QueryHandle)
  | fetchMore (h : QueryHandle)
  | drain
  | commit
  | rollback
  | destroy
  deriving DecidableEq, Repr

/-- The statement a call names. -/
def Op.statement : Op → Option Nat
  | .submit h | .exec h | .executeSync h | .fetchMore h => h.id
  | _ => none

/-- `exec_status`. -/
inductive ExecStatus
  | stillPending
  | finished
  deriving DecidableEq, Repr

/-- What a call returns. -/
inductive Result
  | prepare (r : Except DbError Nat)
  | submit
  | exec (r : Except DbError ExecStatus)
  | executeSync (r : Except DbError Bool)
  | fetchMore (r : Except DbError Bool)
  | drain
  | commit (r : Except DbError Unit)
  | rollback (r : Except DbError Unit)
  | destroyed

/-- The error of a call on a handle that is not valid. -/
def invalidHandle : DbError where
  sts := .invalidHandle
  message := "the handle does not name a prepared statement"
  sqlState := ""

/-- What `commit()` and `rollback()` return for the status of the database call. -/
def boundaryResult (message : String) (sts : DbSts) : Except DbError Unit :=
  if sts.isSuccess then .ok () else .error { sts := sts, message := message, sqlState := "" }

/-! ## Positions of the threads -/

/-- The calls that wait for their job (`run_on_worker`). -/
inductive RunCtx
  | prepare (stmt : StmtType) (paramRows : Nat)
  | executeSync
  | fetchMore
  | commitUndo (e : DbError)
  | commitWork
  | rollbackWork
  deriving DecidableEq, Repr

/-- The callers of `post_to_worker`. -/
inductive PostCtx
  | submit
  | exec
  | run (c : RunCtx)
  deriving DecidableEq, Repr

/-- The callers of `drain`. -/
inductive DrainCtx
  | drain
  | commit
  | rollback
  | destroy
  | run (c : RunCtx)
  deriving DecidableEq, Repr

/-- Where the client is. -/
inductive ClientPc
  /-- Between two calls. -/
  | idle
  /-- In `post_to_worker`, about to lock. -/
  | post (c : PostCtx) (qj : QueuedJob) (evenAfterError : Bool)
  /-- In `post_to_worker`, asleep on `from_worker_`. -/
  | slotAsleep (c : PostCtx) (qj : QueuedJob)
  /-- In `post_to_worker`, woken, about to look at the slot again. -/
  | slotAwake (c : PostCtx) (qj : QueuedJob)
  /-- The job is stored and the lock released: `to_worker_.notify_one()` is next. -/
  | notify (c : PostCtx)
  /-- In `drain`, about to lock, or woken. -/
  | drain (c : DrainCtx)
  /-- In `drain`, asleep on `from_worker_`. -/
  | drainAsleep (c : DrainCtx)
  /-- `exec`, about to read `error()`. -/
  | readExec
  /-- `execute_sync`, about to read `error()`. -/
  | readSync
  /-- `fetch_more`, about to read `error()`. -/
  | readFetch
  /-- `commit`, drained, about to read `error()`. -/
  | readCommit
  /-- `prepare`, its job run or dropped. -/
  | assemble (stmt : StmtType) (paramRows : Nat)
  /-- `commit`, rolled back, about to clear `error_`. -/
  | clearCommit (e : DbError)
  /-- `rollback`, about to clear `error_`. -/
  | clearRollback
  /-- The destructor, drained, about to set `stop_`. -/
  | setStop
  /-- The destructor, about to notify the worker. -/
  | notifyStop
  /-- The destructor, joining the worker. -/
  | join
  /-- The call is about to return. -/
  | ret (r : Result)
  /-- The object is gone. -/
  | destroyed
  /-- A null task was dereferenced: undefined behaviour. -/
  | crashed

/-- Where the worker is in the job it has in hand. -/
inductive Stage
  /-- About to read `has_error()`. -/
  | check
  /-- About to restore the parameters. -/
  | restore
  /-- About to execute the statement. -/
  | execute
  /-- About to fetch. -/
  | fetch
  /-- About to call `note_error`. -/
  | note (e : DbError)
  /-- About to call the database, in a job that is not a statement. -/
  | direct
  /-- The job has returned. -/
  | done
  deriving DecidableEq, Repr

/-- Where the worker is. -/
inductive WorkerPc
  /-- At the top of `worker_loop`, about to look at the queue. -/
  | top
  /-- Asleep on `to_worker_`. -/
  | asleep
  /-- A job is taken and the lock released: `from_worker_.notify_all()` is next. -/
  | took (qj : QueuedJob)
  /-- In the job. -/
  | run (qj : QueuedJob) (stage : Stage)
  /-- `busy_` is cleared: `from_worker_.notify_all()` is next. -/
  | notify
  /-- `worker_loop` has returned. -/
  | exited
  /-- In the job, a null task was dereferenced or a `memcpy` ran out of bounds. -/
  | crashed (qj : QueuedJob)
  deriving DecidableEq, Repr

/-- `from_worker_.notify_all()`, as the client sees it. -/
def ClientPc.notified : ClientPc → ClientPc
  | .slotAsleep c qj => .slotAwake c qj
  | .drainAsleep c => .drain c
  | pc => pc

/-- `to_worker_.notify_one()` and `notify_all()`, as the worker sees them. -/
def WorkerPc.notified : WorkerPc → WorkerPc
  | .asleep => .top
  | pc => pc

/-- The job the worker has in hand. -/
def WorkerPc.inHand : WorkerPc → Option QueuedJob
  | .took qj | .run qj _ | .crashed qj => some qj
  | _ => none

/-- Where a job starts. -/
def Job.entry : Job → Stage
  | .submit _ _ | .exec _ _ => .restore
  | .executeSync _ _ | .fetchMore _ => .check
  | _ => .direct

/-- What comes after a passed `has_error()` check. -/
def Job.afterCheck : Job → Stage
  | .fetchMore _ => .fetch
  | _ => .restore

/-- What comes after a successful `execute`: `exec` and `execute_sync` fetch the
    first rows of a statement that returns rows. -/
def Job.afterExecute (stmt : StmtType) : Job → Stage
  | .submit _ _ => .done
  | _ => if stmt.hasResults then .fetch else .done

/-- Where the client is once `post_to_worker` has returned. -/
def PostCtx.next : PostCtx → ClientPc
  | .submit => .ret .submit
  | .exec => .readExec
  | .run c => .drain (.run c)

/-- Where the client is once a call has returned. -/
def Result.next : Result → ClientPc
  | .destroyed => .destroyed
  | _ => .idle

/-! ## The state -/

/-- A handle as its holder sees it: the type of its statement and the holder's own
    parameter buffer. -/
structure Caller where
  stmt : StmtType
  par : ParamBuffer

/-- The locals of the call in progress that its job writes. -/
structure Frame (B : Backend) where
  /-- `prepare`: `t`. -/
  task : Option (Task B) := none
  /-- `prepare`: `err`. -/
  err : Option DbError := none
  /-- `execute_sync`, `fetch_more`: `fetched`. -/
  fetched : Bool := false
  /-- `commit`, `rollback`: `sts`. -/
  sts : DbSts := .success

/-- The members of `async_db`, the caller's buffers, the locals of the call in
    progress, and the positions of the threads. -/
structure State (B : Backend) where
  db : B.Db
  /-- `tasks_`; a null `unique_ptr` is `none`. -/
  tasks : List (Option (Task B)) := []
  pending : Option QueuedJob := none
  busy : Bool := false
  stop : Bool := false
  error : Option DbError := none
  runningTaskId : Option Nat := none
  callers : List Caller := []
  frame : Frame B := {}
  client : ClientPc := .idle
  worker : WorkerPc := .top

namespace State

variable {B : Backend} (s : State B)

/-- `tasks_.at(id)`, dereferenced; `none` if it is null. -/
def task (i : Nat) : Option (Task B) := s.tasks[i]?.join

/-- What the caller's own buffer holds, for a call that names a statement. -/
def held (op : Op) : Option ParamBuffer := do
  let c ← s.callers[← op.statement]?
  return c.par

/-- `tasks_.at(id)->snapshot_params(h.param())`; `none` if the task is null. -/
def snapshot (i : Nat) : Option ParamSnapshot := do
  let c ← s.callers[i]?
  let t ← s.task i
  return if t.stmt.hasParameters then snapshotParams c.par else []

/-- `execute_sync` takes a snapshot only of a statement with parameters. -/
def snapshotSync (i : Nat) : Option ParamSnapshot := do
  let c ← s.callers[i]?
  if c.stmt.hasParameters then s.snapshot i else return []

/-- Where a call is after what it does before its first critical section. -/
def begin : Op → ClientPc
  | .prepare stmt sql paramRows resultRows =>
    .post (.run (.prepare stmt paramRows)) ⟨.prepare stmt sql paramRows resultRows, none⟩ false
  | .submit h => match h.id with
    | none => .ret .submit
    | some i => match s.snapshot i with
      | none => .crashed
      | some snap => .post .submit ⟨.submit i snap, some i⟩ false
  | .exec h => match h.id with
    | none => .ret (.exec (.error invalidHandle))
    | some i => match s.snapshot i with
      | none => .crashed
      | some snap => .post .exec ⟨.exec i snap, some i⟩ false
  | .executeSync h => match h.id with
    | none => .ret (.executeSync (.error invalidHandle))
    | some i => match s.snapshotSync i with
      | none => .crashed
      | some snap => .post (.run .executeSync) ⟨.executeSync i snap, some i⟩ false
  | .fetchMore h => match h.id with
    | none => .ret (.fetchMore (.error invalidHandle))
    | some i => .post (.run .fetchMore) ⟨.fetchMore i, some i⟩ false
  | .drain => .drain .drain
  | .commit => .drain .commit
  | .rollback => .drain .rollback
  | .destroy => .drain .destroy

/-- What the types of `async_db` let the client call: a handle names a statement
    of this object, `submit` takes one without results, `fetch_more` one with. -/
def Allows : Op → Prop
  | .submit h => ∀ i ∈ h.id, ∃ c ∈ s.callers[i]?, c.stmt.hasResults = false
  | .fetchMore h => ∀ i ∈ h.id, ∃ c ∈ s.callers[i]?, c.stmt.hasResults = true
  | .exec h | .executeSync h => ∀ i ∈ h.id, i < s.callers.length
  | _ => True

/-- `async_db::is_finished`. -/
def isFinished : Except DbError ExecStatus :=
  if s.pending.isSome || s.busy then .ok .stillPending
  else match s.error with
    | some e => .error e
    | none => .ok .finished

/-- The result of a call that ends by reading `error()`. -/
def orError {α : Type} (a : α) : Except DbError α :=
  match s.error with
  | some e => .error e
  | none => .ok a

/-- The predicate `drain` waits for. -/
def Drained : Prop := s.pending = none ∧ s.busy = false

/-- Where the client is once `drain` has returned. -/
def afterDrain : DrainCtx → ClientPc
  | .drain => .ret .drain
  | .commit => .readCommit
  | .rollback => .post (.run .rollbackWork) ⟨.rollback, none⟩ true
  | .destroy => .setStop
  | .run (.prepare stmt paramRows) => .assemble stmt paramRows
  | .run .executeSync => .readSync
  | .run .fetchMore => .readFetch
  | .run (.commitUndo e) => .clearCommit e
  | .run .commitWork => .ret (.commit (boundaryResult "commit failed" s.frame.sts))
  | .run .rollbackWork => .clearRollback

/-- Where `commit` is once it has read `error()`. -/
def afterReadCommit : ClientPc :=
  match s.error with
  | some e => .post (.run (.commitUndo e)) ⟨.rollbackIgnored, none⟩ true
  | none => .post (.run .commitWork) ⟨.commit, none⟩ true

end State

end Dbgen4.Async
