import Dbgen4.Lts
import Dbgen4.Psql.Codec
import Dbgen4.Rtl.Buffer

/-!
# The query runtime

A prepared statement together with its parameter and result buffers
(`rtl::query` of `rtl/psql/query.hpp`). libpq and the server behind it are not
part of this: a call is given what they answer during it (`Libpq`), and any
answers are allowed. Exceptions, which only a lack of memory would throw, and
logging are left out.

`query` is the system of one object: it is constructed, and then called in any
order.
-/

namespace Dbgen4.Psql

open Rtl

/-! ## libpq -/

/-- `ExecStatusType`. -/
inductive ExecStatus
  | emptyQuery | commandOk | tuplesOk | copyOut | copyIn | badResponse | nonfatalError | fatalError
  | copyBoth | singleTuple | pipelineSync | pipelineAborted | tuplesChunk
  deriving DecidableEq, Repr

/-- A value from the server; libpq gives its length as an `int`. -/
abbrev Field := {t : Text // t.length < 2 ^ 31}

/-- One row of a result; `none` is a SQL NULL. -/
abbrev Row := List (Option Field)

/-- `PQgetisnull` and `PQgetvalue` in a row; a column that it does not have is NULL. -/
def Row.field (row : Row) (c : ℕ) : Option Field := row[c]?.join

/-- A result. -/
structure PGresult where
  status : ExecStatus
  tuples : List Row
  /-- `PQcmdTuples`. -/
  cmdTuples : Text := []
  errorMessage : String := ""
  sqlState : Option String := none

/-- What libpq answers during one call; `none` is a result it could not allocate. -/
structure Libpq where
  /-- `PQerrorMessage`. -/
  errorMessage : String := ""
  prepare : String → String → List ℕ → Option PGresult := fun _ _ _ => none
  execPrepared : String → List (Option Text) → Option PGresult := fun _ _ => none
  enterPipelineMode : Bool := true
  /-- Whether sending the `k`-th row succeeds. -/
  sendQueryPrepared : ℕ → Bool := fun _ => true
  /-- The result of the `k`-th of the rows sent. -/
  getResult : String → List (List (Option Text)) → ℕ → Option PGresult := fun _ _ _ => none

/-- `psql_error`. -/
structure PsqlError where
  message : String
  sqlState : String := ""
  status : ExecStatus := .fatalError
  deriving DecidableEq, Repr

/-- `PQresultStatus`. -/
def resultStatus : Option PGresult → ExecStatus
  | some res => res.status
  | none => .fatalError

/-- `psql_error::from_result`. -/
def fromResult (pq : Libpq) : Option PGresult → PsqlError
  | some res => ⟨res.errorMessage, res.sqlState.getD "", res.status⟩
  | none => ⟨pq.errorMessage, "", .fatalError⟩

/-- `psql::to_oid`: the type a parameter is declared as, 0 when the server is to infer it. -/
def toOid : SqlType → ℕ
  | .bit => 16
  | .smallint => 21
  | .integer => 23
  | .bigint => 20
  | .tinyInt => 21
  | .real => 700
  | .float | .double => 701
  | .char => 1042
  | .varChar => 1043
  | .longVarChar | .clob => 25
  | .xml => 142
  | .numeric | .decimal | .decfloat => 1700
  | .binary | .varBinary | .longVarBinary | .blob => 17
  | .date | .typeDate => 1082
  | .time | .typeTime => 1083
  | .timestamp | .typeTimestamp => 1114
  | .guid => 2950
  | .wchar | .wvarChar | .wlongVarChar | .dbclob | .graphic | .varGraphic | .unknown => 0
  | _ => 1186

/-! ## The query -/

/-- `params`: a parameter buffer. -/
structure Params extends Buffer where
  rowStatus : List UInt16

/-- `results`: a result buffer. -/
structure Results extends Buffer where
  occupied : ℕ

/-- How far `fetch()` has walked through the rows of the last execute. -/
structure Cursor where
  next : ℕ := 0
  total : ℕ := 0
  next_le : next ≤ total := by omega

/-- Before the first row, of none. -/
def Cursor.start : Cursor := {}

/-- Walk on by `count` rows, of those that remain. -/
def Cursor.advance (c : Cursor) (count : ℕ) (h : count ≤ c.total - c.next) : Cursor where
  next := c.next + count
  total := c.total
  next_le := by have := c.next_le; omega

/-- `rtl::query`. -/
structure Query where
  sql : String
  stmtName : String
  prepared : Bool := false
  boundParLayout : UInt64 := 0
  boundResLayout : UInt64 := 0
  rows : Option PGresult := none
  cursor : Cursor := {}
  rowsFetched : ℕ := 0
  affectedRows : BitVec 64 := -1
  par : Params
  res : Results

namespace Query

variable (q : Query)

/-- `has_p`. -/
def hasP : Bool := !q.par.columns.isEmpty

/-- `has_r`. -/
def hasR : Bool := !q.res.columns.isEmpty

/-- What libpq sends of a value: it takes the text for a C string. -/
def cStr (t : Text) : Text := t.takeWhile (· ≠ 0)

/-- One column of `marshal_row`. -/
def marshalCell (F : FloatText) (d : BufferDscr) (cell : d.Cell) : Option Text :=
  if cell.indicator = nullData then none else some (cStr (loadValue F d cell))

/-- `marshal_row`: one row of the parameter buffer as text. -/
def marshalRow (F : FloatText) (par : Buffer) (row : ℕ) : List (Option Text) :=
  par.columns.map fun col => col.cells[row]?.bind (marshalCell F col.dscr)

/-- `prepare`. -/
def prepare (pq : Libpq) : Except PsqlError Unit × Query :=
  let oids := q.par.dscrs.map fun d => toOid d.type
  let res := pq.prepare q.stmtName q.sql oids
  if resultStatus res ≠ .commandOk then (.error (fromResult pq res), q)
  else (.ok (), { q with
    prepared := true
    boundParLayout := if q.hasP then q.par.layoutGeneration else q.boundParLayout
    boundResLayout := if q.hasR then q.res.layoutGeneration else q.boundResLayout })

/-- `check_layout`. -/
def checkLayout : Except PsqlError Unit :=
  if q.hasP ∧ q.par.layoutGeneration ≠ q.boundParLayout then
    .error ⟨"parameter buffer was resized after prepare(); call set_buffer_size() before " ++
      "prepare(), then prepare() again", "", .fatalError⟩
  else if q.hasR ∧ q.res.layoutGeneration ≠ q.boundResLayout then
    .error ⟨"result buffer was resized after prepare(); call set_buffer_size() before " ++
      "prepare(), then prepare() again", "", .fatalError⟩
  else .ok ()

/-- How many of `n` rows are queued, from the `k`-th on, before a send fails. -/
def sendRows (pq : Libpq) : ℕ → ℕ → ℕ
  | 0, _ => 0
  | n + 1, k => if pq.sendQueryPrepared k then sendRows pq n (k + 1) + 1 else 0

/-- The loop of `execute_batch` over the results: the status of each row, and the first
    error. -/
def readResults (pq : Libpq) : List (Option PGresult) → Option PsqlError →
    List UInt16 × Option PsqlError
  | [], firstError => ([], firstError)
  | res :: rest, firstError =>
    let est := resultStatus res
    let firstError := firstError.or
      (if est ≠ .commandOk ∧ est ≠ .tuplesOk then some (fromResult pq res) else none)
    let (status, last) := readResults pq rest firstError
    ((if firstError.isNone then 0 else 5) :: status, last)

/-- `execute_batch`. -/
def executeBatch (F : FloatText) (pq : Libpq) : Except PsqlError Unit × Query :=
  let rows := q.par.rows
  if ¬pq.enterPipelineMode then
    (.error ⟨"could not enter libpq pipeline mode", "", .fatalError⟩, q)
  else
    let sent := sendRows pq rows 0
    let texts := (List.range sent).map (marshalRow F q.par.toBuffer)
    let (status, firstError) :=
      readResults pq ((List.range sent).map (pq.getResult q.stmtName texts)) none
    let q := { q with
      par.rowStatus := status ++ List.replicate (q.par.rowStatus.length - sent) 0 }
    if sent < rows then (.error ⟨pq.errorMessage, "", .fatalError⟩, q)
    else match firstError with
      | some e => (.error e, q)
      | none => (.ok (), { q with
          cursor := {}
          affectedRows := BitVec.ofNat 64 rows
          rows := none })

/-- `execute`. -/
def execute (F : FloatText) (pq : Libpq) : Except PsqlError Unit × Query :=
  if ¬q.prepared then (.error ⟨"statement is not prepared", "", .fatalError⟩, q)
  else match q.checkLayout with
    | .error e => (.error e, q)
    | .ok () =>
      if q.hasP ∧ q.par.rows > 1 then q.executeBatch F pq
      else match pq.execPrepared q.stmtName (marshalRow F q.par.toBuffer 0) with
        | none => (.error (fromResult pq none), q)
        | some res =>
          if res.status ≠ .tuplesOk ∧ res.status ≠ .commandOk then
            (.error (fromResult pq (some res)), q)
          else (.ok (), { q with
            cursor := { total := if res.status = .tuplesOk then res.tuples.length else 0 }
            affectedRows := (parseInt 64 res.cmdTuples).getD (-1)
            rows := some res })

/-- What `fetch` does with one value: a value that cannot be converted is stored as NULL.
    One that can leaves the indicator to `store_value`. -/
def fetchCell (F : FloatText) (d : BufferDscr) (field : Option Field) (cell : d.Cell) : d.Cell :=
  match field with
  | none => { cell with indicator := nullData }
  | some text =>
    match storeValue F d cell text.1 with
    | some cell => cell
    | none => { cell with indicator := nullData }

/-- The inner loop of `fetch`: a row of the server into row `r` of the buffer. -/
def fetchRow (F : FloatText) (row : Row) (r : ℕ) (b : Buffer) : Buffer :=
  { b with columns := b.columns.mapIdx fun c col =>
      col.modify r (fetchCell F col.dscr (row.field c)) }

/-- The outer loop of `fetch`, from row `r` of the buffer on. -/
def fetchRows (F : FloatText) : List Row → ℕ → Buffer → Buffer
  | [], _, b => b
  | row :: window, r, b => fetchRows F window (r + 1) (fetchRow F row r b)

/-- How many rows the next `fetch` delivers. -/
def count : ℕ := min (q.cursor.total - q.cursor.next) q.res.rows

/-- The rows of a result that the next `fetch` delivers; one that it does not have is all
    NULL. -/
def window (res : PGresult) : List Row :=
  (List.range q.count).map fun r => res.tuples[q.cursor.next + r]?.getD []

/-- `fetch`. -/
def fetch (F : FloatText) : Except PsqlError Bool × Query :=
  if ¬q.hasR then (.ok false, q)
  else match q.checkLayout with
    | .error e => (.error e, q)
    | .ok () => match q.rows with
      | none => (.error ⟨"no result set - execute first", "", .fatalError⟩, q)
      | some res => (.ok (0 < q.count), { q with
          res := ⟨fetchRows F (q.window res) 0 q.res.toBuffer, q.count⟩
          cursor := q.cursor.advance q.count (Nat.min_le_left _ _)
          rowsFetched := q.count })

/-- `reset`. -/
def reset : Query :=
  { q with
    rows := none
    cursor := {}
    rowsFetched := 0
    affectedRows := -1
    par := { q.par with
      columns := q.par.columns.map Column.setNull
      rowStatus := List.replicate q.par.rowStatus.length 0 }
    res.occupied := 0 }

/-- The rows that a call of `fetch` delivers. -/
def delivered : List Row :=
  if ¬q.hasR then []
  else match q.checkLayout, q.rows with
    | .ok (), some res => q.window res
    | _, _ => []

/-- The constructor, and the buffers it makes. -/
def make (sql stmtName : String) (par res : Buffer) : Query where
  sql := sql
  stmtName := stmtName
  par := ⟨par, List.replicate par.rows 0⟩
  res := ⟨res, 0⟩

end Query

/-! ## The system of one query -/

/-- What the caller of a query does. -/
inductive Event
  | prepare
  | execute
  /-- `fetch`, and the rows it delivers. -/
  | fetch (window : List Row)
  | reset
  /-- `set_buffer_size` of the result buffer. -/
  | resize
  /-- The caller writes to its parameter buffer, or resizes it. -/
  | write

/-- The calls of a query; libpq answers as it likes. -/
inductive Query.Step (F : FloatText) : Query → Event → Query → Prop
  | prepare (q : Query) (pq : Libpq) : Step F q .prepare (q.prepare pq).2
  | execute (q : Query) (pq : Libpq) : Step F q .execute (q.execute F pq).2
  | fetch (q : Query) : Step F q (.fetch q.delivered) (q.fetch F).2
  | reset (q : Query) : Step F q .reset q.reset
  | resize (q : Query) (rows : ℕ) :
    Step F q .resize { q with res := ⟨q.res.setBufferSize rows, q.res.occupied⟩ }
  | write (q : Query) (par : Params) (h : par.dscrs = q.par.dscrs) :
    Step F q .write { q with par := par }

/-- A query, from its construction on. -/
def query (F : FloatText) : Lts Query Event where
  init := {q | ∃ sql stmtName par res, ∃ parRows resRows,
    q = Query.make sql stmtName (Buffer.make par parRows) (Buffer.make res resRows)}
  step := Query.Step F

end Dbgen4.Psql
