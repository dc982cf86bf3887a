import Dbgen4.Db2.Query

/-!
# The connection of db2

`rtl::db_db2` (`rtl/db2/db2_rtl.cpp`) on a database, as far as it runs and describes
statements. There is no autocommit: what is done is pending until `SQLEndTran`. What the
driver answers is an input (`Cli`); a statement is its effects, of any type. `exec`
commits what it has run, and rolls back what it could not run; `get_sql_metadata` does
neither.

Opening and closing the connection is not part of this, nor is what a query does on it.
-/

namespace Dbgen4.Db2

open Rtl

/-! ## Descriptions -/

/-- `db2::from_odbc`. -/
def fromOdbc (code : Int16) : SqlType :=
  match code.toInt with
  | 4 => .integer
  | 5 => .smallint
  | -5 => .bigint
  | -6 => .tinyInt
  | 6 => .float
  | 7 => .real
  | 8 => .double
  | -7 => .bit
  | 1 => .char
  | 2 => .numeric
  | 3 => .decimal
  | 12 => .varChar
  | -360 => .decfloat
  | -1 => .longVarChar
  | -99 => .clob
  | -370 => .xml
  | -8 => .wchar
  | -9 => .wvarChar
  | -10 => .wlongVarChar
  | -350 => .dbclob
  | -95 => .graphic
  | -96 => .varGraphic
  | -2 => .binary
  | -3 => .varBinary
  | -4 => .longVarBinary
  | -98 => .blob
  | 9 => .date
  | 10 => .time
  | 11 => .timestamp
  | 91 => .typeDate
  | 92 => .typeTime
  | 93 => .typeTimestamp
  | 101 => .intervalYear
  | 102 => .intervalMonth
  | 107 => .intervalYearToMonth
  | 103 => .intervalDay
  | 104 => .intervalHour
  | 105 => .intervalMinute
  | 106 => .intervalSecond
  | 108 => .intervalDayToHour
  | 109 => .intervalDayToMinute
  | 110 => .intervalDayToSecond
  | 111 => .intervalHourToMinute
  | 112 => .intervalHourToSecond
  | 113 => .intervalMinuteToSecond
  | -11 => .guid
  | _ => .unknown

/-- What `SQLDescribeCol` writes, and `SQLDescribeParam` except for the name. -/
structure OdbcAttribute where
  name : String := ""
  nativeType : Int16
  size : UInt32
  digits : Int16
  nullable : Int16

/-- What the driver answers while a statement is described. -/
structure Describing where
  alloc : SqlReturn := 0
  prepare : SqlReturn := 0
  numParams : SqlReturn × ℕ := (0, 0)
  describeParam : ℕ → SqlReturn × OdbcAttribute
  numResultCols : SqlReturn × ℕ := (0, 0)
  describeCol : ℕ → SqlReturn × OdbcAttribute

/-- The description of a parameter in `get_sql_metadata`. -/
def paramDscr (i : ℕ) (a : OdbcAttribute) : MetaDscr where
  index := Int16.ofNat i
  name := s!"par_{i}"
  type := fromOdbc a.nativeType
  nativeType := a.nativeType.toInt32
  size := a.size
  digits := a.digits
  nullable := a.nullable

/-- The description of a result column in `get_sql_metadata`. -/
def columnDscr (i : ℕ) (a : OdbcAttribute) : MetaDscr where
  index := Int16.ofNat i
  name := a.name.map Char.toLower
  type := fromOdbc a.nativeType
  nativeType := a.nativeType.toInt32
  size := a.size
  digits := a.digits
  nullable := a.nullable

/-- The loops of `get_sql_metadata`: `n` parameters or columns from the `i`th on. -/
def describeLoop (describe : ℕ → SqlReturn × OdbcAttribute) (dscr : ℕ → OdbcAttribute → MetaDscr)
    (i : ℕ) : ℕ → Except DbSts (List MetaDscr)
  | 0 => .ok []
  | n + 1 =>
    if succeeded (describe i).1 then
      (describeLoop describe dscr (i + 1) n).map (dscr i (describe i).2 :: ·)
    else .error .invalidSql

/-- What `get_sql_metadata` makes of the answers. -/
def Describing.metadata (d : Describing) : Except DbSts QryMetadata :=
  if ¬succeeded d.alloc then .error .resourceError
  else if ¬succeeded d.prepare then .error .invalidSql
  else if ¬succeeded d.numParams.1 then .error .invalidSql
  else do
    let params ← describeLoop d.describeParam paramDscr 1 d.numParams.2
    if ¬succeeded d.numResultCols.1 then .error .invalidSql
    else
      let columns ← describeLoop d.describeCol columnDscr 1 d.numResultCols.2
      return { columns := columns, params := params }

/-! ## The connection -/

variable {E : Type}

/-- What `SQLExecDirect` comes to: a text that is one statement, other than COMMIT and ROLLBACK,
    which it does not take. -/
structure ExecDirect (E : Type) where
  ret : SqlReturn := 0
  /-- What the statement does, if it succeeds. -/
  effects : List E := []

/-- What `SQLEndTran` comes to. -/
structure EndTran where
  ret : SqlReturn := 0
  /-- If it fails: whether the unit of work is still open, or is rolled back. -/
  kept : Bool := false

/-- What the driver answers to its calls, by their number. -/
structure Cli (E : Type) where
  alloc : ℕ → SqlReturn := fun _ => 0
  execDirect : ℕ → String → ExecDirect E
  endTran : ℕ → EndTran := fun _ => {}
  describing : ℕ → String → Describing

/-- `rtl::db_db2`, with its database. -/
structure DbDb2 (E : Type) where
  cli : Cli E
  /-- How many calls the driver has got. -/
  next : ℕ := 0
  /-- `is_connected`: there is a connection handle. -/
  connected : Bool := false
  /-- The unit of work. -/
  pending : List E := []
  committed : List E := []

namespace DbDb2

variable (db : DbDb2 E)

/-- `commit`. -/
def commit : DbSts × DbDb2 E :=
  if ¬db.connected then (.connectionError, db)
  else
    let r := db.cli.endTran db.next
    if succeeded r.ret then
      (.success,
        { db with next := db.next + 1, committed := db.committed ++ db.pending, pending := [] })
    else
      (.error, { db with next := db.next + 1, pending := if r.kept then db.pending else [] })

/-- `rollback`. -/
def rollback : DbSts × DbDb2 E :=
  if ¬db.connected then (.connectionError, db)
  else
    let r := db.cli.endTran db.next
    if succeeded r.ret then (.success, { db with next := db.next + 1, pending := [] })
    else
      (.error, { db with next := db.next + 1, pending := if r.kept then db.pending else [] })

/-- `exec`. -/
def exec (sql : String) : DbSts × DbDb2 E :=
  if ¬db.connected then (.connectionError, db)
  else if ¬succeeded (db.cli.alloc db.next) then
    (.resourceError, { db with next := db.next + 1 })
  else
    let r := db.cli.execDirect (db.next + 1) sql
    if ¬succeeded r.ret then (.invalidSql, { db with next := db.next + 2 }.rollback.2)
    else
      -- Whether the commit succeeds is not looked at.
      (.success, { db with next := db.next + 2, pending := db.pending ++ r.effects }.commit.2)

/-- `get_sql_metadata`, which leaves the unit of work as it is. -/
def getSqlMetadata (sql : String) : Except DbSts QryMetadata × DbDb2 E :=
  if ¬db.connected then (.error .connectionError, db)
  else ((db.cli.describing db.next sql).metadata, { db with next := db.next + 1 })

/-- What `exec` commits: the unit of work with the statement in it, if all the driver is asked for
    succeeds. -/
def publishes (sql : String) : List E :=
  if db.connected ∧ succeeded (db.cli.alloc db.next) ∧
      succeeded (db.cli.execDirect (db.next + 1) sql).ret ∧
      succeeded (db.cli.endTran (db.next + 2)).ret then
    db.pending ++ (db.cli.execDirect (db.next + 1) sql).effects
  else []

theorem committed_rollback : db.rollback.2.committed = db.committed := by
  unfold rollback
  dsimp only
  split
  · rfl
  · split <;> rfl

theorem committed_exec (sql : String) :
    (db.exec sql).2.committed = db.committed ++ db.publishes sql := by
  unfold exec publishes
  split
  · rename_i hnot
    rw [if_neg fun h => hnot h.1, List.append_nil]
  · rename_i hconn
    split
    · rename_i hnot
      rw [if_neg fun h => hnot h.2.1, List.append_nil]
    · rename_i halloc
      dsimp only
      split
      · rename_i hnot
        rw [if_neg fun h => hnot h.2.2.1, List.append_nil, committed_rollback]
      · rename_i hrun
        rw [Decidable.not_not] at hconn halloc hrun
        -- Only the commit is left to succeed or fail.
        simp only [commit, hconn, halloc, hrun, not_true_eq_false, if_false, true_and]
        split <;> simp

theorem committed_getSqlMetadata (sql : String) :
    (db.getSqlMetadata sql).2.committed = db.committed := by
  unfold getSqlMetadata
  split <;> rfl

end DbDb2

end Dbgen4.Db2
