import Dbgen4.Async.Restore
import Dbgen4.Psql.Connection

/-!
# The asynchronous facade on PostgreSQL

`async_db` linked with this backend: its jobs make, prepare and execute queries
on a `db_psql`. The facade keeps the bytes of a parameter buffer, and a query
reads them as values; how the values of a column lie in memory is up to the
compiler, and a parameter here (`Layout`).

Whatever those bytes are, `check_layout` looks at the resizes of the query's own
buffers only (`refuses_of_checkLayout`), and a query that passes it sends as many
rows as its buffer has (`request_load`).
-/

namespace Dbgen4.Psql

open Rtl

/-- What the compiler and the generated classes know of a statement. -/
structure Layout where
  /-- `params::buffer_description_const()`. -/
  params : Async.StmtType → List BufferDscr
  /-- `results::buffer_description_const()`. -/
  results : Async.StmtType → List BufferDscr
  /-- The values that the bytes of a parameter buffer are. -/
  columns : List BufferDscr → (b : ParamBuffer) → List (Column b.rows)

/-- The value of an enumerator of `ExecStatusType`. -/
def ExecStatus.code : ExecStatus → Int
  | .emptyQuery => 0
  | .commandOk => 1
  | .tuplesOk => 2
  | .copyOut => 3
  | .copyIn => 4
  | .badResponse => 5
  | .nonfatalError => 6
  | .fatalError => 7
  | .copyBoth => 8
  | .singleTuple => 9
  | .pipelineSync => 10
  | .pipelineAborted => 11
  | .tuplesChunk => 12

/-- `to_db_error`. -/
def toDbError (e : PsqlError) : DbError where
  sts := sqlstateToDbSts e.sqlState
  message := e.message
  sqlState := e.sqlState
  driverStatus := e.status.code

/-- What a call of the query returns, in terms no backend owns. -/
def mapError {α : Type} : Except PsqlError α → Except DbError α
  | .error e => .error (toDbError e)
  | .ok a => .ok a

/-- The parameter buffer of a query, with the bytes that the facade has put there. -/
def Query.load (L : Layout) (q : Query) (par : ParamBuffer) : Query :=
  { q with par :=
    ⟨⟨par.rows, L.columns q.par.dscrs par, q.par.layoutGeneration⟩, q.par.rowStatus⟩ }

/-- The PostgreSQL backend. -/
@[reducible] def psqlBackend (E : Type) (L : Layout) (F : FloatText) : Async.Backend where
  Db := DbPsql E
  Query := Query
  prepare db stmt sql par resultRows :=
    let res := Buffer.make (L.results stmt) 1
    let (q, db) := db.query sql (.make (L.params stmt) par.rows)
      (if stmt.hasResults then res.setBufferSize resultRows else res)
    let (r, q, db) := db.prepare q
    (mapError (r.map fun _ => q), db)
  execute db q par :=
    let (r, q, db) := db.execute F (q.load L par)
    (match r with
      | .error e => some (toDbError e)
      | .ok () => none, db, q)
  fetch db q := (mapError (q.fetch F).1, db, (q.fetch F).2)
  commit db := db.commit
  rollback db := db.rollback

variable {E : Type} {L : Layout} {F : FloatText} {db db' : DbPsql E} {q q' : Query}
  {par : ParamBuffer}

/-- A statement that fails has the error of the query. -/
theorem psqlBackend_execute_error {e : PsqlError}
    (h : db.execute F (q.load L par) = (.error e, q', db')) :
    (psqlBackend E L F).execute db q par = (some (toDbError e), db', q') := by
  simp only [h]

theorem psqlBackend_execute_ok (h : db.execute F (q.load L par) = (.ok (), q', db')) :
    (psqlBackend E L F).execute db q par = (none, db', q') := by
  simp only [h]

/-- The values read are those of the columns of the class. -/
def Layout.Typed (L : Layout) : Prop := ∀ ds b, (L.columns ds b).map (·.dscr) = ds

theorem Query.hasP_load (hL : L.Typed) (q : Query) (par : ParamBuffer) :
    (q.load L par).hasP = q.hasP := by
  have hlen := congrArg List.isEmpty (hL q.par.dscrs par)
  rw [List.isEmpty_map, Buffer.dscrs, List.isEmpty_map] at hlen
  exact congrArg (!·) hlen

theorem Query.checkLayout_load (hL : L.Typed) (q : Query) (par : ParamBuffer) :
    (q.load L par).checkLayout = q.checkLayout := by
  rw [Query.checkLayout, Query.hasP_load hL, Query.checkLayout]
  rfl

/-- A query whose own buffers were resized since it was prepared is refused, whatever the facade
    puts into its buffer. -/
theorem refuses_of_checkLayout (hL : L.Typed) {e : PsqlError} (h : q.checkLayout = .error e) :
    Async.Refuses (B := psqlBackend E L F) db q := by
  intro par
  have hl : (q.load L par).checkLayout = .error e := (q.checkLayout_load hL par).trans h
  have hnothing : (q.load L par).request (db.server.libpq db.next) = .nothing := by
    rw [Query.request, hl]
    split <;> rfl
  have herr : ∃ e, ∀ pq, (q.load L par).execute F pq = (.error e, q.load L par) := by
    simp only [Query.execute, hl]
    split
    · exact ⟨_, fun _ => rfl⟩
    · exact ⟨_, fun _ => rfl⟩
  obtain ⟨e', he⟩ := herr
  refine ⟨toDbError e', q.load L par, psqlBackend_execute_error ?_⟩
  simp only [DbPsql.execute, hnothing, DbPsql.answerExecute, he]

theorem sendRows_of_sends {pq : Libpq} (h : ∀ k, pq.sendQueryPrepared k) (n k : ℕ) :
    Query.sendRows pq n k = n := by
  induction n generalizing k with
  | zero => rfl
  | succ n ih => rw [Query.sendRows, if_pos (h k), ih]

/-- A query that passes its checks sends the rows of its buffer: all of them, in a pipeline where
    there is more than one. -/
theorem request_load (hL : L.Typed) {pq : Libpq} (hprep : q.prepared)
    (hl : q.checkLayout = .ok ()) (hp : q.hasP) (hen : pq.enterPipelineMode)
    (hsend : ∀ k, pq.sendQueryPrepared k) :
    (q.load L par).request pq = if 1 < par.rows then .batch par.rows else .single := by
  have hprep' : (q.load L par).prepared := hprep
  have hrows : (q.load L par).par.rows = par.rows := rfl
  simp only [Query.request, hprep', q.checkLayout_load hL, hl, q.hasP_load hL, hp, hrows, hen,
    sendRows_of_sends hsend, not_true_eq_false, if_true, if_false, true_and, gt_iff_lt]

end Dbgen4.Psql
