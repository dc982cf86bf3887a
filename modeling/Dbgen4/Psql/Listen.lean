import Dbgen4.Lts
import Dbgen4.Psql.Notify

/-!
# The listener

`db_psql::on_change` (`rtl/psql/psql_rtl.cpp`) with its listening connection and the thread that
reads it, beside the other calls of the connection, the other sessions of the server, and the
notifications these send. The calls of one `db_psql` come one after the other; the steps of
the thread that calls, of `listen_loop` and of the other sessions interleave as they like, and
the listening connection can fail whenever it is read.

What a handler does is not part of this: it returns, and does not use the connection. There is a
listening connection exactly if there is a thread to join.

`listener` is the system.
-/

namespace Dbgen4.Psql

open Rtl Transaction

variable {H : Type} {F : FloatText}

/-! ## States -/

/-- Where the thread that calls is. -/
inductive Caller (H : Type)
  | idle
  /-- In `on_change`, with the trigger created. -/
  | created (table : String) (handler : H)
  /-- In `on_change`, with a thread to listen. -/
  | started (table : String) (handler : H)
  /-- In `on_change`, at `pending_listen_cv_.wait`. -/
  | waiting (table : String) (handler : H)
  /-- In `disconnect`, at `listen_worker_.join`. -/
  | joining
  /-- About to return. -/
  | returning (sts : DbSts)

/-- Where `listen_loop` is. -/
inductive Pc (H : Type)
  /-- At the condition of the loop. -/
  | check
  /-- At `run_pending_listen`. -/
  | pending
  /-- In `run_pending_listen`, at the `LISTEN` for a channel. -/
  | listen (channel : String)
  /-- In `run_pending_listen`, with what the `LISTEN` came to. -/
  | answer (result : DbSts)
  | poll
  | consume
  | notifies
  /-- With a notification, at the look into `handlers_`. -/
  | lookUp (n : Notify)
  /-- With the handler for it. -/
  | call (n : Notify) (handler : H)

/-- `listen_worker_`. -/
inductive Worker (H : Type)
  /-- There is no thread to join. -/
  | none
  | running (pc : Pc H)
  /-- `listen_loop` has returned. -/
  | ended

/-- A `db_psql` and what it has on the server. -/
structure State (H : Type) where
  client : Client Change
  caller : Caller H := .idle
  handlers : String → Option H := fun _ => none
  worker : Worker H := .none
  stopListen : Bool := false
  pendingListen : Option String := none
  pendingListenDone : Bool := false
  pendingListenResult : DbSts := .success
  /-- What is committed, by all sessions. -/
  log : List Change
  /-- The channels that the listening connection listens to. -/
  listening : List String := []
  /-- What the server has sent on it. -/
  inbox : List Notify := []
  /-- What libpq has read of this. -/
  buffer : List Notify := []

namespace State

variable (s : State H)

/-- What the server may send of the notifications of a transaction. -/
def Sends (es : List Change) (ns : List Notify) : Prop :=
  Delivered ((catalog s.log).notifications es) ns

/-- A transaction commits. -/
def publish (es : List Change) (ns : List Notify) : State H :=
  { s with
    log := s.log ++ es
    inbox := s.inbox ++ ns.filter (·.channel ∈ s.listening) }

/-- The listening connection is closed, or a new one opened. -/
def hangUp : State H := { s with listening := [], inbox := [], buffer := [] }

/-- libpq reads what has come. -/
def read : State H := { s with buffer := s.buffer ++ s.inbox, inbox := [] }

end State

/-! ## Steps -/

/-- What `start_listen_worker` comes to. -/
inductive Start
  | joinable | noObject | failed | noThread | runs
  deriving DecidableEq, Repr

/-- The error that `start_listen_worker` returns. -/
def Start.error : Start → Option DbSts
  | noObject => some .memoryError
  | failed => some .connectionError
  | noThread => some .osError
  | joinable | runs => none

/-- What `poll` comes to. -/
inductive Poll
  | failed | interrupted | timedOut | ready
  deriving DecidableEq, Repr

/-- What happens; a transaction is labelled with what it commits. -/
inductive Act (H : Type)
  /-- Another call of the connection, or of one of its queries. -/
  | op (o : Op) (ok : Bool) (es : List Change)
  /-- A call of `on_change`, up to the end of `create_change_trigger`. -/
  | onChange (table : String) (handler : H) (es : List Change)
  | start (outcome : Start)
  /-- `pending_listen_` is set. -/
  | queue
  | wake (sts : DbSts)
  | disconnect
  | join
  | returns (sts : DbSts)
  | check
  | runPending
  | listen (ok : Bool)
  | answer
  | poll (outcome : Poll)
  | consume (ok : Bool)
  | pop
  | lookUp
  | call (channel : String) (handler : H) (op : ChangeOp)
  | warn
  /-- A transaction of another session. -/
  | others (es : List Change)

/-- The calls of the connection that have no step of their own. -/
def Op.isOther : Op → Bool
  | .disconnect | .onChange .. => false
  | _ => true

/-- The operation that a payload names. -/
def changeOp (payload : String) : Option ChangeOp :=
  if payload = "INSERT" then some .insert
  else if payload = "UPDATE" then some .update
  else if payload = "DELETE" then some .remove
  else none

/-- One step. -/
inductive Step (F : FloatText) : State H → Act H → State H → Prop
  | op {s : State H} {o : Op} {ok : Bool} {client : Client Change} {es : List Change}
    {ns : List Notify} (hcaller : s.caller = .idle) (hop : o.isOther) (hallows : s.client.Allows o)
    (hcall : s.client.call F o = (ok, client))
    (hes : client.db.session.committed = s.client.db.session.committed ++ es)
    (hns : s.Sends es ns) :
    Step F s (.op o ok es) ({ s with client := client }.publish es ns)
  | onChange {s : State H} {table : String} {handler : H} {ret : DbSts} {db : DbPsql Change}
    {es : List Change} {ns : List Notify} (hcaller : s.caller = .idle)
    (htable : s.client.db.server.tableName table) (hdoes : s.client.db.DoesAll (ddl table))
    (hcall : s.client.db.createChangeTrigger table = (ret, db))
    (hes : db.session.committed = s.client.db.session.committed ++ es) (hns : s.Sends es ns) :
    Step F s (.onChange table handler es) ({ s with
      client := { s.client with db := db }
      caller :=
        if ret = DbSts.success then .created table handler else .returning ret }.publish es ns)
  | joinable {s : State H} {table : String} {handler : H}
    (hcaller : s.caller = .created table handler) (hworker : s.worker ≠ .none) :
    Step F s (.start .joinable) { s with caller := .started table handler }
  | startFails {s : State H} {table : String} {handler : H} {outcome : Start} {sts : DbSts}
    (hcaller : s.caller = .created table handler) (hworker : s.worker = .none)
    (hsts : outcome.error = some sts) :
    Step F s (.start outcome) { s with caller := .returning sts }
  | startRuns {s : State H} {table : String} {handler : H}
    (hcaller : s.caller = .created table handler) (hworker : s.worker = .none) :
    Step F s (.start .runs)
      { s.hangUp with caller := .started table handler, worker := .running .check }
  | queue {s : State H} {table : String} {handler : H}
    (hcaller : s.caller = .started table handler) :
    Step F s .queue { s with
      caller := .waiting table handler
      pendingListen := some (channelName table)
      pendingListenDone := false }
  | wake {s : State H} {table : String} {handler : H}
    (hcaller : s.caller = .waiting table handler) (hdone : s.pendingListenDone = true) :
    Step F s (.wake s.pendingListenResult) { s with
      caller := .returning s.pendingListenResult
      handlers := if s.pendingListenResult = DbSts.success then
        Function.update s.handlers (channelName table) (some handler) else s.handlers }
  | returns {s : State H} {sts : DbSts} (hcaller : s.caller = .returning sts) :
    Step F s (.returns sts) { s with caller := .idle }
  | notConnected {s : State H} (hcaller : s.caller = .idle) (hconn : s.client.db.conn = false) :
    Step F s .disconnect { s with caller := .returning .success }
  | disconnect {s : State H} (hcaller : s.caller = .idle) (hconn : s.client.db.conn = true) :
    Step F s .disconnect { s with caller := .joining, stopListen := true }
  | join {s : State H} (hcaller : s.caller = .joining) (hworker : ∀ pc, s.worker ≠ .running pc) :
    Step F s .join { s.hangUp with
      client := { s.client with db := s.client.db.disconnect.2 }
      caller := .returning s.client.db.disconnect.1
      worker := .none }
  | stop {s : State H} (hpc : s.worker = .running .check) (hstop : s.stopListen = true) :
    Step F s .check { s with worker := .ended }
  | check {s : State H} (hpc : s.worker = .running .check) (hstop : s.stopListen = false) :
    Step F s .check { s with worker := .running .pending }
  | nonePending {s : State H} (hpc : s.worker = .running .pending)
    (hpending : s.pendingListen = none) : Step F s .runPending { s with worker := .running .poll }
  | runPending {s : State H} {channel : String} (hpc : s.worker = .running .pending)
    (hpending : s.pendingListen = some channel) :
    Step F s .runPending { s with worker := .running (.listen channel) }
  | listen {s : State H} {channel : String} (hpc : s.worker = .running (.listen channel)) :
    Step F s (.listen true) { s.read with
      worker := .running (.answer .success)
      listening := ident channel :: s.listening }
  | listenFails {s : State H} {channel : String} (hpc : s.worker = .running (.listen channel)) :
    Step F s (.listen false) { s.read with worker := .running (.answer .connectionError) }
  | answer {s : State H} {result : DbSts} (hpc : s.worker = .running (.answer result)) :
    Step F s .answer { s with
      worker := .running .poll
      pendingListen := none
      pendingListenDone := true
      pendingListenResult := result }
  | pollFails {s : State H} (hpc : s.worker = .running .poll) :
    Step F s (.poll .failed) { s with worker := .ended }
  | interrupted {s : State H} (hpc : s.worker = .running .poll) :
    Step F s (.poll .interrupted) { s with worker := .running .check }
  | timedOut {s : State H} (hpc : s.worker = .running .poll) (hinbox : s.inbox = []) :
    Step F s (.poll .timedOut) { s with worker := .running .check }
  | ready {s : State H} (hpc : s.worker = .running .poll) :
    Step F s (.poll .ready) { s with worker := .running .consume }
  | consumeFails {s : State H} (hpc : s.worker = .running .consume) :
    Step F s (.consume false) { s with worker := .ended }
  | consume {s : State H} (hpc : s.worker = .running .consume) :
    Step F s (.consume true) { s.read with worker := .running .notifies }
  | drained {s : State H} (hpc : s.worker = .running .notifies) (hbuffer : s.buffer = []) :
    Step F s .pop { s with worker := .running .check }
  | pop {s : State H} {n : Notify} {rest : List Notify} (hpc : s.worker = .running .notifies)
    (hbuffer : s.buffer = n :: rest) :
    Step F s .pop { s with worker := .running (.lookUp n), buffer := rest }
  | nobody {s : State H} {n : Notify} (hpc : s.worker = .running (.lookUp n))
    (hhandler : s.handlers n.channel = none) :
    Step F s .lookUp { s with worker := .running .notifies }
  | lookUp {s : State H} {n : Notify} {handler : H} (hpc : s.worker = .running (.lookUp n))
    (hhandler : s.handlers n.channel = some handler) :
    Step F s .lookUp { s with worker := .running (.call n handler) }
  | call {s : State H} {n : Notify} {handler : H} {op : ChangeOp}
    (hpc : s.worker = .running (.call n handler)) (hop : changeOp n.payload = some op) :
    Step F s (.call n.channel handler op) { s with worker := .running .notifies }
  | warn {s : State H} {n : Notify} {handler : H} (hpc : s.worker = .running (.call n handler))
    (hop : changeOp n.payload = none) : Step F s .warn { s with worker := .running .notifies }
  | others {s : State H} {es : List Change} {ns : List Notify} (hdata : ∀ e ∈ es, e.isData)
    (hns : s.Sends es ns) : Step F s (.others es) (s.publish es ns)

/-- The system of a `db_psql` that is not connected at first. -/
def listener (H : Type) (F : FloatText) : Lts (State H) (Act H) where
  init := {s | ∃ server cs log,
    s = { client := { db := { server := server, session := ⟨.idle, cs⟩ } }, log := log }}
  step := Step F

end Dbgen4.Psql
