import Dbgen4.Psql.Query
import Dbgen4.Transaction

/-!
# The connection

`rtl::db_psql` (`rtl/psql/psql_rtl.cpp`) on a server, and what its queries send
over it. The server is a session with transaction blocks (`Transaction`) which
accepts or refuses the messages it gets as it likes (`Server.answers`) and can
lose the connection at any of them; of the SQL text of a statement only what it
is to the transaction matters. A text is one statement. The listening
connection of `on_change` and its thread are not part of this: what comes of
them is an input. Nor is describing a statement, which the generator does.

`connection` is the system of a client with one connection and its queries.
-/

namespace Dbgen4.Psql

open Rtl Transaction

/-! ## The server -/

/-- What the server answers to a message. -/
structure Answer (E : Type) where
  verdict : Verdict E
  /-- The answer does not arrive: the connection is lost. -/
  lost : Bool := false
  /-- The result of a statement which is accepted, and the error of one which is not. -/
  result : PGresult
  status_ne : result.status ≠ .fatalError

/-- `db_psql::channel_name`. -/
def channelName (table : String) : String := "dbgen4_on_change_" ++ table

/-- The statement that creates the trigger function. -/
def functionSql (table : String) : String :=
  "CREATE OR REPLACE FUNCTION " ++ channelName table ++ "_fn() RETURNS trigger AS $$ " ++
    "BEGIN PERFORM pg_notify('" ++ channelName table ++
    "', TG_OP); RETURN NULL; END; $$ LANGUAGE plpgsql"

/-- The statement that drops the trigger. -/
def dropSql (table : String) : String :=
  "DROP TRIGGER IF EXISTS " ++ channelName table ++ "_trg ON " ++ table

/-- The statement that creates the trigger. -/
def createSql (table : String) : String :=
  "CREATE TRIGGER " ++ channelName table ++ "_trg AFTER INSERT OR UPDATE OR DELETE ON " ++ table ++
    " FOR EACH ROW EXECUTE FUNCTION " ++ channelName table ++ "_fn()"

/-- The server: how it reads a statement, and what it answers to each of the messages it gets.
    What it makes of the texts that `db_psql` has of its own is documented. -/
structure Server (E : Type) where
  command : String → Command
  answers : ℕ → Answer E
  /-- What libpq says by itself before a message is sent. -/
  libpq : ℕ → Libpq
  /-- The texts that are names of tables. -/
  tableName : String → Prop
  begin_eq : command "BEGIN" = .begin
  commit_eq : command "COMMIT" = .commit
  rollback_eq : command "ROLLBACK" = .rollback
  vacuum_eq : ∀ table, tableName table → command ("VACUUM ANALYZE " ++ table) = .outside
  change_eq : ∀ table, tableName table →
    ∀ sql ∈ [functionSql table, dropSql table, createSql table], command sql = .plain

variable {E : Type}

/-- The result of a message: the control commands have no other status than
    `PGRES_COMMAND_OK`. -/
def Answer.resultOf (a : Answer E) (accepted control : Bool) : PGresult :=
  if ¬accepted then { a.result with status := .fatalError, tuples := [] }
  else if control then { a.result with status := .commandOk, tuples := [] }
  else a.result

/-! ## The connection -/

/-- `rtl::db_psql`, with its server. -/
structure DbPsql (E : Type) where
  server : Server E
  /-- How many messages the server has got. -/
  next : ℕ := 0
  /-- There is a `PGconn`. -/
  conn : Bool := false
  /-- Its `PQstatus` is `CONNECTION_OK`. -/
  alive : Bool := false
  session : Session E
  /-- `detail::next_stmt_id`. -/
  nextStmtId : ℕ := 0

/-- What `PQconnectdb` comes to. -/
inductive PQconnectdb
  | noObject
  | failed
  | ok
  deriving DecidableEq, Repr

namespace DbPsql

variable (db : DbPsql E)

/-- The answer to the next message. -/
def answer : Answer E := db.server.answers db.next

/-- `is_connected`. -/
def isConnected : Bool := db.conn && db.alive

/-- Send a message and wait for its result; there is none if the connection is gone, or is
    lost. -/
def contact (run : Session E → Verdict E → Bool × Session E) (control : Bool) :
    Option PGresult × DbPsql E :=
  if ¬db.isConnected then (none, db)
  else
    let (accepted, session) := run db.session db.answer.verdict
    if db.answer.lost then
      (none, { db with next := db.next + 1, alive := false, session := session.close })
    else
      (some (db.answer.resultOf accepted control),
        { db with next := db.next + 1, session := session })

/-- A statement. -/
def pqRun (c : Command) : Option PGresult × DbPsql E :=
  db.contact (fun s v => s.run c v) c.isControl

/-- `PQexec`. -/
def pqExec (sql : String) : Option PGresult × DbPsql E := db.pqRun (db.server.command sql)

/-- `PQprepare`. -/
def pqPrepare (sql : String) : Option PGresult × DbPsql E :=
  db.contact (fun s v => s.parse (db.server.command sql) v) true

/-- `exec_command`. -/
def execCommand (sql : String) : DbSts × DbPsql E :=
  if ¬db.isConnected then (.connectionError, db)
  else
    let (res, db) := db.pqExec sql
    if resultStatus res ≠ .commandOk then (.transactionError, db) else (.success, db)

/-- `exec`. -/
def exec (sql : String) : DbSts × DbPsql E := db.execCommand sql

/-- `begin_transaction`. -/
def beginTransaction : DbSts × DbPsql E := db.execCommand "BEGIN"

/-- `connect`. -/
def connect (outcome : PQconnectdb) : DbSts × DbPsql E :=
  if db.conn then (.connectionError, db)
  else match outcome with
    | .noObject => (.memoryError, db)
    | .failed => (.connectionError, db)
    | .ok =>
      beginTransaction { db with conn := true, alive := true, session := db.session.close }

/-- `commit`. -/
def commit : DbSts × DbPsql E :=
  let (ret, db) := db.execCommand "COMMIT"
  if ret ≠ .success then (ret, db) else db.beginTransaction

/-- `rollback`. -/
def rollback : DbSts × DbPsql E :=
  let (ret, db) := db.execCommand "ROLLBACK"
  if ret ≠ .success then (ret, db) else db.beginTransaction

/-- `disconnect`. -/
def disconnect : DbSts × DbPsql E :=
  if ¬db.conn then (.success, db)
  else
    let (_, db) := db.rollback
    (.success, { db with conn := false, alive := false, session := db.session.close })

/-- `refresh_statistics`. -/
def refreshStatistics (table : String) : DbSts × DbPsql E :=
  let (ret, db) := db.execCommand "COMMIT"
  if ret ≠ .success then (ret, db)
  else
    let (vacuumRet, db) := db.execCommand ("VACUUM ANALYZE " ++ table)
    let (beginRet, db) := db.execCommand "BEGIN"
    if beginRet ≠ .success then (beginRet, db) else (vacuumRet, db)

/-- `create_change_trigger`. -/
def createChangeTrigger (table : String) : DbSts × DbPsql E :=
  let (ret, db) := db.execCommand (functionSql table)
  if ret ≠ .success then (ret, db.rollback.2)
  else
    let (ret, db) := db.execCommand (dropSql table)
    if ret ≠ .success then (ret, db.rollback.2)
    else
      let (ret, db) := db.execCommand (createSql table)
      if ret ≠ .success then (ret, db.rollback.2) else db.commit

/-- `on_change`; `listen` is what `start_listen_worker` and the `LISTEN` come to. -/
def onChange (table : String) (listen : DbSts) : DbSts × DbPsql E :=
  let (ret, db) := db.createChangeTrigger table
  if ret ≠ .success then (ret, db) else (listen, db)

/-! ### Queries on the connection -/

/-- The result of a row which was not run, since one before it has failed. -/
def pipelineAborted : PGresult := { status := .pipelineAborted, tuples := [] }

/-- The rows of a pipeline: the server runs them up to the first that fails. -/
def pipelineRows (c : Command) : ℕ → DbPsql E → List (Option PGresult) × DbPsql E
  | 0, db => ([], db)
  | n + 1, db =>
    let (res, db) := db.pqRun c
    if resultStatus res = .fatalError then (res :: List.replicate n (some pipelineAborted), db)
    else
      let (rest, db) := pipelineRows c n db
      (res :: rest, db)

/-- A pipeline. Outside a block its statements share a transaction, which the synchronisation
    at the end commits. -/
def pipeline (c : Command) (n : ℕ) : List (Option PGresult) × DbPsql E :=
  if db.isConnected ∧ db.session.block.isIdle ∧ (c = .plain ∨ c = .outside) then
    let (results, db) :=
      pipelineRows c n { db with session := (db.session.run .begin (.ok [])).2 }
    (results, (db.pqRun .commit).2)
  else pipelineRows c n db

end DbPsql

/-- What `execute` sends. -/
inductive Request
  | nothing
  | single
  | batch (rows : ℕ)
  deriving DecidableEq, Repr

/-- What `execute` sends, by the checks it makes first. -/
def Query.request (q : Query) (pq : Libpq) : Request :=
  if ¬q.prepared then .nothing
  else match q.checkLayout with
    | .error _ => .nothing
    | .ok () =>
      if q.hasP ∧ q.par.rows > 1 then
        if pq.enterPipelineMode then .batch (sendRows pq q.par.rows 0) else .nothing
      else .single

namespace DbPsql

variable (db : DbPsql E)

/-- The query's constructor: its name on the server is drawn from a counter. -/
def query (sql : String) (par res : Buffer) : Query × DbPsql E :=
  (.make sql ("dbgen4_" ++ toString db.nextStmtId) par res,
    { db with nextStmtId := db.nextStmtId + 1 })

/-- `query::prepare`. -/
def prepare (q : Query) : Except PsqlError Unit × Query × DbPsql E :=
  let (res, db') := db.pqPrepare q.sql
  let (r, q) := q.prepare { db.server.libpq db.next with prepare := fun _ _ _ => res }
  (r, q, db')

/-- The results of what `execute` sends. -/
def answerExecute (sql : String) : Request → List (Option PGresult) × DbPsql E
  | .nothing => ([], db)
  | .single =>
    let (res, db) := db.pqExec sql
    ([res], db)
  | .batch n => db.pipeline (db.server.command sql) n

/-- `query::execute`. -/
def execute (F : FloatText) (q : Query) : Except PsqlError Unit × Query × DbPsql E :=
  let pq := db.server.libpq db.next
  let (results, db') := db.answerExecute q.sql (q.request pq)
  let (r, q) := q.execute F { pq with
    execPrepared := fun _ _ => results.head?.join
    getResult := fun _ _ k => results[k]?.join }
  (r, q, db')

/-- The query's destructor. -/
def deallocate (q : Query) : DbPsql E :=
  if q.prepared then (db.contact (fun s v => s.run .plain v) true).2 else db

end DbPsql

/-! ## The system of one connection -/

/-- A client: its connection and its queries; a destroyed one is `none`. -/
structure Client (E : Type) where
  db : DbPsql E
  queries : List (Option Query) := []

/-- What the client does. -/
inductive Op
  | connect (outcome : PQconnectdb)
  | disconnect
  | exec (sql : String)
  | commit
  | rollback
  | refreshStatistics (table : String)
  | onChange (table : String) (listen : DbSts)
  /-- The constructor of a query. -/
  | query (sql : String) (par res : Buffer)
  | prepare (i : ℕ)
  | execute (i : ℕ)
  | fetch (i : ℕ)
  | reset (i : ℕ)
  /-- `set_buffer_size` of the result buffer. -/
  | resize (i rows : ℕ)
  /-- The client writes to the parameter buffer of a query, or resizes it. -/
  | write (i : ℕ) (par : Params)
  /-- The destructor of a query. -/
  | destroy (i : ℕ)

namespace Client

variable (c : Client E)

/-- A query that has not been destroyed. -/
def find (i : ℕ) : Option Query := c.queries[i]?.join

/-- A call of the connection. -/
def onDb (r : DbSts × DbPsql E) : Bool × Client E := (r.1 == .success, { c with db := r.2 })

/-- A call of a query. -/
def onQuery {α : Type} (i : ℕ) (r : Except PsqlError α × Query × DbPsql E) : Bool × Client E :=
  (r.1.isOk, ⟨r.2.2, c.queries.set i (some r.2.1)⟩)

/-- A call: whether it reports success, and the client after it. -/
def call (F : FloatText) : Op → Bool × Client E
  | .connect outcome => c.onDb (c.db.connect outcome)
  | .disconnect => c.onDb c.db.disconnect
  | .exec sql => c.onDb (c.db.exec sql)
  | .commit => c.onDb c.db.commit
  | .rollback => c.onDb c.db.rollback
  | .refreshStatistics table => c.onDb (c.db.refreshStatistics table)
  | .onChange table listen => c.onDb (c.db.onChange table listen)
  | .query sql par res =>
    let (q, db) := c.db.query sql par res
    (true, ⟨db, c.queries ++ [some q]⟩)
  | .prepare i => match c.find i with
    | some q => c.onQuery i (c.db.prepare q)
    | none => (false, c)
  | .execute i => match c.find i with
    | some q => c.onQuery i (c.db.execute F q)
    | none => (false, c)
  | .fetch i => match c.find i with
    | some q => c.onQuery i ((q.fetch F).1, (q.fetch F).2, c.db)
    | none => (false, c)
  | .reset i => (true, { c with queries := c.queries.modify i (Option.map Query.reset) })
  | .resize i rows => (true, { c with queries := c.queries.modify i (Option.map fun q =>
      { q with res := ⟨q.res.setBufferSize rows, q.res.occupied⟩ }) })
  | .write i par =>
    (true, { c with queries := c.queries.modify i (Option.map fun q => { q with par := par }) })
  | .destroy i => match c.find i with
    | some q => (true, ⟨c.db.deallocate q, c.queries.set i none⟩)
    | none => (false, c)

/-- What the client may call: it names tables by their names, and does not change the columns
    of a buffer. -/
def Allows : Op → Prop
  | .refreshStatistics table | .onChange table _ => c.db.server.tableName table
  | .write i par => ∀ q ∈ c.find i, par.dscrs = q.par.dscrs
  | _ => True

end Client

/-- A client, not connected at first; a call is labelled with whether it reports success. -/
def connection (E : Type) (F : FloatText) : Lts (Client E) (Op × Bool) where
  init := {c | ∃ server cs, c = { db := { server := server, session := ⟨.idle, cs⟩ } }}
  step c l c' := c.Allows l.1 ∧ c.call F l.1 = (l.2, c')

theorem connection_step {E : Type} {F : FloatText} {c : Client E} (op : Op) (h : c.Allows op) :
    (connection E F).step c (op, (c.call F op).1) (c.call F op).2 :=
  ⟨h, rfl⟩

end Dbgen4.Psql
