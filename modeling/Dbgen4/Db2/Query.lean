import Dbgen4.Rtl.Storage

/-!
# The query runtime of db2

A prepared statement together with its parameter and result buffers, as the ODBC
runtime has it (`rtl::query` of `rtl/db2/query.hpp`). The statement handle is the
whole lifecycle: a query is prepared as long as it has one.

The driver is not part of this: a call is given what it answers during it
(`Driver`), and any answers are allowed. In turn a call tells which driver
functions it called, in order, and with which handle (`Outcome.calls`). A handle
stands for one allocation, so that a value the driver uses again is another
handle. Exceptions, which only a lack of memory would throw, and logging are left
out.
-/

namespace Dbgen4.Db2

open Rtl

/-! ## The driver -/

/-- `SQLRETURN`. -/
abbrev SqlReturn := Int16

/-- `SQL_SUCCEEDED`: `SQL_SUCCESS` and `SQL_SUCCESS_WITH_INFO`. -/
def succeeded (ret : SqlReturn) : Bool := ret = 0 ∨ ret = 1

/-- `SQL_NO_DATA`. -/
def noData : SqlReturn := 100

/-- `SQL_ERROR`. -/
def sqlError : SqlReturn := -1

/-- `SQLHSTMT`; `SQL_NULL_HSTMT` is `none`. -/
abbrev Handle := ℕ

/-- A diagnostic record. -/
structure Diag where
  sqlState : String
  message : String
  nativeError : Int32

/-- What the driver answers during one call. -/
structure Driver where
  alloc : SqlReturn := 0
  /-- The handle that `SQLAllocHandle` returns. -/
  handle : Handle := 0
  prepare : SqlReturn := 0
  bindParameter : ℕ → SqlReturn := fun _ => 0
  bindCol : ℕ → SqlReturn := fun _ => 0
  execute : SqlReturn := 0
  /-- What is written to `params_processed_` and to the row status during an execute. -/
  paramsProcessed : UInt64 := 0
  rowStatus : ℕ → UInt16 → UInt16 := fun _ s => s
  rowCount : SqlReturn × Int64 := (0, 0)
  fetchScroll : SqlReturn := 0
  /-- What is written to `rows_fetched_` and to the result columns during a fetch. -/
  rowsFetched : UInt64 := 0
  cells : ℕ → ℕ → (d : BufferDscr) → Option d.Cell := fun _ _ _ => none
  cancel : SqlReturn := 0
  /-- The diagnostic records of a handle that is not null. -/
  diag : ℕ → Option Diag := fun _ => none

/-- The statement attributes that the runtime sets. -/
inductive StmtAttr
  | paramsetSize (rows : ℕ)
  | paramsProcessedPtr
  | paramStatusPtr (status : Block)
  | paramoptAtomic
  | rowArraySize (rows : ℕ)
  | rowsFetchedPtr
  deriving DecidableEq, Repr

/-- A call of a driver function. -/
inductive Call
  /-- `SQLAllocHandle`, and the handle it returned. -/
  | allocHandle (h : Option Handle)
  | freeHandle (h : Handle)
  | prepare (h : Handle) (sql : String)
  | bindParameter (h : Handle) (i : ℕ) (c : BufferDscr) (r : BufferDscrInit)
  | bindCol (h : Handle) (i : ℕ) (c : BufferDscr) (r : BufferDscrInit)
  | setStmtAttr (h : Handle) (attr : StmtAttr)
  | execute (h : Handle)
  | rowCount (h : Handle)
  | fetchScroll (h : Handle)
  | cancel (h : Handle)
  /-- `SQLGetDiagRec` on a statement, or on the null handle. -/
  | getDiagRec (h : Option Handle)
  /-- `SQLGetDiagRec` on the connection. -/
  | getDiagRecConn

/-- The statement handle that a call passes to the driver. -/
def Call.handle : Call → Option Handle
  | .allocHandle _ | .getDiagRecConn => none
  | .freeHandle h | .prepare h _ | .bindParameter h _ _ _ | .bindCol h _ _ _ | .setStmtAttr h _
  | .execute h | .rowCount h | .fetchScroll h | .cancel h => some h
  | .getDiagRec h => h

/-- `odbc_error`. -/
structure OdbcError where
  ret : SqlReturn
  message : String
  sqlState : String
  nativeError : Int32 := 0

/-- The constructor of `odbc_error`, by the diagnostic record it reads. -/
def odbcError (ret : SqlReturn) : Option Diag → OdbcError
  | some diag => ⟨ret, diag.message, diag.sqlState, diag.nativeError⟩
  | none => ⟨ret, "ODBC diagnostic retrieval failed", "HY000", 0⟩

/-- `odbc_error::client`. -/
def OdbcError.client (message : String) : OdbcError := ⟨sqlError, message, "HY010", 0⟩

/-! ## The query -/

/-- `rtl::query`, with parameters `ps` and results `rs`. -/
structure Query (ps rs : List BufferDscr) where
  /-- `db_` is not null. -/
  db : Bool := true
  stmt : Option Handle := none
  sql : String
  par : GeneratedBuffer ps true
  res : GeneratedBuffer rs false
  boundParLayout : UInt64 := 0
  boundResLayout : UInt64 := 0
  paramsProcessed : UInt64 := 0
  rowsFetched : UInt64 := 0
  affectedRows : Int64 := 0

/-- What a member function returns, what it makes of the query, and the driver calls it makes. -/
structure Outcome (ps rs : List BufferDscr) (α : Type) where
  result : Except OdbcError α
  query : Query ps rs
  calls : List Call

namespace Query

variable {ps rs : List BufferDscr} (q : Query ps rs)

/-- `has_p`. -/
def hasP (_ : Query ps rs) : Bool := !ps.isEmpty

/-- `has_r`. -/
def hasR (_ : Query ps rs) : Bool := !rs.isEmpty

/-- `is_prepared`. -/
def isPrepared : Bool := q.stmt.isSome

/-- The loop that binds one column after the other: the calls up to the first that fails, and
    which one does. -/
def bindLoop (bind : ℕ → BufferDscr → BufferDscrInit → Call) (ret : ℕ → SqlReturn) :
    ℕ → List (BufferDscr × BufferDscrInit) → List Call × Option ℕ
  | _, [] => ([], none)
  | i, (c, r) :: rest =>
    if succeeded (ret i) then
      let (calls, failed) := bindLoop bind ret (i + 1) rest
      (bind i c r :: calls, failed)
    else ([bind i c r], some i)

/-- The parameter half of `prepare`. -/
def bindParams (d : Driver) (h : Handle) : Outcome ps rs Unit :=
  if ¬q.hasP then ⟨.ok (), q, []⟩
  else
    let q' := { q with par := q.par.bufferDescriptionInit.2 }
    let loop := bindLoop (.bindParameter h) d.bindParameter 0
      (ps.zip q.par.bufferDescriptionInit.1)
    match loop.2 with
    | some i => ⟨.error (odbcError (d.bindParameter i) (d.diag (i + 1))), q',
        loop.1 ++ [.getDiagRec (some h)]⟩
    | none => ⟨.ok (), q', loop.1 ++
        [.setStmtAttr h (.paramsetSize q.par.bufferSize), .setStmtAttr h .paramsProcessedPtr] ++
        if q.par.isBatch then
          [.setStmtAttr h (.paramStatusPtr (q.par.rowStatus rfl).block),
            .setStmtAttr h .paramoptAtomic]
        else []⟩

/-- The result half of `prepare`. -/
def bindResults (d : Driver) (h : Handle) : Outcome ps rs Unit :=
  if ¬q.hasR then ⟨.ok (), q, []⟩
  else
    let q' := { q with res := q.res.bufferDescriptionInit.2 }
    let loop := bindLoop (.bindCol h) d.bindCol 0 (rs.zip q.res.bufferDescriptionInit.1)
    match loop.2 with
    | some i => ⟨.error (odbcError (d.bindCol i) (d.diag (i + 1))), q',
        loop.1 ++ [.getDiagRec (some h)]⟩
    | none => ⟨.ok (), q', loop.1 ++
        [.setStmtAttr h (.rowArraySize q.res.bufferSize), .setStmtAttr h .rowsFetchedPtr]⟩

/-- `prepare`. -/
def prepare (d : Driver) : Outcome ps rs Unit :=
  let freed := q.stmt.toList.map .freeHandle
  -- The old handle has been freed, and stays in `stmt_` when no new one is allocated.
  if ¬succeeded d.alloc then
    ⟨.error (odbcError d.alloc (d.diag 1)), q, freed ++ [.allocHandle none, .getDiagRecConn]⟩
  else
    let h := d.handle
    let q := { q with stmt := some h }
    let calls := freed ++ [.allocHandle (some h), .prepare h q.sql]
    if ¬succeeded d.prepare then
      ⟨.error (odbcError d.prepare (d.diag 1)), q, calls ++ [.getDiagRec (some h)]⟩
    else
      let o := q.bindParams d h
      match o.result with
      | .error e => ⟨.error e, o.query, calls ++ o.calls⟩
      | .ok () =>
        let o' := o.query.bindResults d h
        match o'.result with
        | .error e => ⟨.error e, o'.query, calls ++ o.calls ++ o'.calls⟩
        | .ok () =>
          let q := o'.query
          -- Only now are the numbers of resizes recorded.
          ⟨.ok (), { q with
            boundParLayout := if q.hasP then q.par.layoutGeneration else q.boundParLayout
            boundResLayout := if q.hasR then q.res.layoutGeneration else q.boundResLayout },
            calls ++ o.calls ++ o'.calls⟩

/-- `check_layout`. -/
def checkLayout : Except OdbcError Unit :=
  if q.hasP ∧ q.par.layoutGeneration ≠ q.boundParLayout then
    .error (.client ("parameter buffer was resized after prepare(); " ++
      "call set_buffer_size() before prepare(), then prepare() again"))
  else if q.hasR ∧ q.res.layoutGeneration ≠ q.boundResLayout then
    .error (.client ("result buffer was resized after prepare(); " ++
      "call set_buffer_size() before prepare(), then prepare() again"))
  else .ok ()

/-- `execute`. -/
def execute (d : Driver) : Outcome ps rs Unit :=
  match q.stmt with
  | none => ⟨.error (odbcError sqlError none), q, [.getDiagRec none]⟩
  | some h =>
    match q.checkLayout with
    | .error e => ⟨.error e, q, []⟩
    | .ok () =>
      let q := if q.hasP then { q with
          par := q.par.clearRowStatus.driverStatus d.rowStatus
          paramsProcessed := d.paramsProcessed }
        else q
      -- An update or a delete that matched no row has not failed.
      if ¬succeeded d.execute ∧ d.execute ≠ noData then
        ⟨.error (odbcError d.execute (d.diag 1)), q, [.execute h, .getDiagRec (some h)]⟩
      else
        let affected := if d.rowCount.1 = 0 then d.rowCount.2 else -1
        ⟨.ok (), { q with affectedRows := affected }, [.execute h, .rowCount h]⟩

/-- `fetch`. The driver writes where `prepare` bound it, which is the result buffer. -/
def fetch (d : Driver) : Outcome ps rs Bool :=
  match q.stmt with
  | none => ⟨.error (odbcError sqlError none), q, [.getDiagRec none]⟩
  | some h =>
    match q.checkLayout with
    | .error e => ⟨.error e, q, []⟩
    | .ok () =>
      if ¬q.hasR then ⟨.ok false, q, []⟩
      else
        -- Whatever it returns, the driver may have written to the columns that are bound.
        let q := { q with
          res := q.res.driverWrite fun c r => d.cells c r (rs.get c)
          rowsFetched := d.rowsFetched }
        if d.fetchScroll = noData then
          ⟨.ok false, { q with res := { q.res with occupied := 0 } }, [.fetchScroll h]⟩
        else if ¬succeeded d.fetchScroll then
          ⟨.error (odbcError d.fetchScroll (d.diag 1)), q, [.fetchScroll h, .getDiagRec (some h)]⟩
        else if q.rowsFetched.toNat > q.res.bufferSize then
          ⟨.error (odbcError sqlError none), q, [.fetchScroll h, .getDiagRec none]⟩
        else
          ⟨.ok (0 < q.rowsFetched.toNat),
            { q with res := { q.res with occupied := q.rowsFetched.toNat } }, [.fetchScroll h]⟩

/-- `reset`. -/
def reset : Query ps rs × List Call :=
  ({ q with
    stmt := none
    paramsProcessed := if q.isPrepared ∧ q.hasP then 0 else q.paramsProcessed
    rowsFetched := if q.isPrepared ∧ q.hasR then 0 else q.rowsFetched
    par := if q.hasP then q.par.resetAllNull else q.par
    res := if q.hasR then { q.res with occupied := 0 } else q.res },
    q.stmt.toList.map .freeHandle)

/-- `cancel`. -/
def cancel (d : Driver) : Bool × List Call :=
  match q.stmt with
  | none => (false, [])
  | some h => (succeeded d.cancel, [.cancel h])

/-- What the move constructor leaves of its source; the text and the buffers have moved. -/
def movedFrom : Query ps rs := { q with db := false, stmt := none, sql := "" }

/-- What the move constructor calls: the counters that the driver writes to have moved. -/
def moveCalls : List Call :=
  match q.stmt with
  | none => []
  | some h =>
    (if q.hasP then [.setStmtAttr h .paramsProcessedPtr] else []) ++
      if q.hasR then [.setStmtAttr h .rowsFetchedPtr] else []

/-- The destructor. -/
def destroyCalls : List Call := q.stmt.toList.map .freeHandle

/-- The constructor, in the operation `t` of the program. -/
def make (G : Growth) (t : ℕ) (ps rs : List BufferDscr) (sql : String) (parRows resRows : ℕ) :
    Query ps rs where
  sql := sql
  par := .make G t ps true parRows
  res := .make G t rs false resRows

variable (d : Driver) (h : Handle)

/-- Binding lays the buffers out, also when the driver refuses a column. -/
theorem query_bindParams : (q.bindParams d h).query =
    if q.hasP then { q with par := q.par.bufferDescriptionInit.2 } else q := by
  rw [bindParams]
  cases q.hasP with
  | false => rfl
  | true =>
    rw [if_neg (by simp)]
    dsimp only
    split <;> rfl

theorem query_bindResults : (q.bindResults d h).query =
    if q.hasR then { q with res := q.res.bufferDescriptionInit.2 } else q := by
  rw [bindResults]
  cases q.hasR with
  | false => rfl
  | true =>
    rw [if_neg (by simp)]
    dsimp only
    split <;> rfl

end Query

end Dbgen4.Db2
