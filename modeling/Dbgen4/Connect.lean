import Dbgen4.Db2.Query
import Dbgen4.Psql.Connection

/-!
# Opening a connection

`connect` acquires what it needs in several steps, each of which may fail: on
db2 two handles, whose second is what `is_connected` looks at, on PostgreSQL the
object of libpq and a transaction block. It is to be all or nothing
(`Connector.AllOrNothing`): to say that it succeeded just if the object is
connected, and to leave the object as it found it otherwise. Each backend misses
one step (`connect_allOrNothing_iff`): db2 keeps both handles when the attribute
of the connection cannot be set, and PostgreSQL keeps the connection when the
block cannot be opened.
-/

namespace Dbgen4

open Rtl

/-- An object that connects, to a driver that answers `A`. -/
structure Connector (S A : Type) where
  /-- The object when it is disconnected: nothing is allocated for it. -/
  disconnected : S
  isConnected : S → Bool
  connect : S → A → DbSts × S
  disconnect : S → S

namespace Connector

variable {S A : Type} (C : Connector S A)

/-- What `connect` comes to on a disconnected object. -/
def opened (a : A) : DbSts × S := C.connect C.disconnected a

/-- `connect` says whether the object is connected, and leaves it disconnected if it fails. -/
structure AllOrNothing (a : A) : Prop where
  tells : (C.opened a).1 = .success ↔ C.isConnected (C.opened a).2
  cleans : (C.opened a).1 ≠ .success → (C.opened a).2 = C.disconnected

variable {C} {a : A} {s : S}

theorem allOrNothing_of_success (h : C.opened a = (.success, s)) (hs : C.isConnected s) :
    C.AllOrNothing a := by
  refine ⟨?_, fun hne => ?_⟩
  · rw [h]
    exact iff_of_true rfl hs
  · rw [h] at hne
    exact (hne rfl).elim

theorem allOrNothing_of_failure {ret : DbSts} (h : C.opened a = (ret, C.disconnected))
    (hret : ret ≠ .success) (hd : C.isConnected C.disconnected = false) : C.AllOrNothing a := by
  refine ⟨?_, fun _ => ?_⟩
  · rw [h]
    exact iff_of_false hret (by rw [hd]; exact Bool.false_ne_true)
  · rw [h]

/-- A `connect` that fails and changes the object. -/
theorem not_allOrNothing {ret : DbSts} (h : C.opened a = (ret, s)) (hret : ret ≠ .success)
    (hs : s ≠ C.disconnected) : ¬C.AllOrNothing a := by
  intro hall
  have := hall.cleans (by rw [h]; exact hret)
  rw [h] at this
  exact hs this

end Connector

/-! ## db2 -/

namespace Db2

/-- What the driver answers while `connect` runs, and the handles it returns. -/
structure Opening where
  allocEnv : SqlReturn := 0
  env : ℕ := 0
  allocDbc : SqlReturn := 0
  dbc : ℕ := 1
  setConnectAttr : SqlReturn := 0
  driverConnect : SqlReturn := 0

/-- The handles of `db_data_db2`, and those that the driver has allocated for it and that were not
    freed. -/
structure DataHandles where
  envHandle : Option ℕ := none
  connHandle : Option ℕ := none
  allocated : List ℕ := []
  deriving DecidableEq, Repr

namespace DataHandles

variable (s : DataHandles)

/-- `free_handle`. -/
def freeHandle (h : Option ℕ) : DataHandles :=
  match h with
  | none => s
  | some h => { s with allocated := s.allocated.erase h }

/-- `free_conn_handle`. -/
def freeConnHandle : DataHandles := { s with connHandle := none }.freeHandle s.connHandle

/-- `free_env_handle`. -/
def freeEnvHandle : DataHandles := { s with envHandle := none }.freeHandle s.envHandle

/-- `internal_allocate_handles`. A handle that cannot be allocated is set to null. -/
def internalAllocateHandles (o : Opening) : DbSts × DataHandles :=
  if ¬succeeded o.allocEnv then (.envError, { s with envHandle := none })
  else
    let s := { s with envHandle := some o.env, allocated := o.env :: s.allocated }
    if ¬succeeded o.allocDbc then (.connectionError, { s with connHandle := none }.freeEnvHandle)
    else
      let s := { s with connHandle := some o.dbc, allocated := o.dbc :: s.allocated }
      -- Nothing is freed here.
      if ¬succeeded o.setConnectAttr then (.configError, s) else (.success, s)

/-- `internal_connect`. -/
def internalConnect (o : Opening) : DbSts × DataHandles :=
  if ¬succeeded o.driverConnect then (.connectionError, s.freeConnHandle.freeEnvHandle)
  else (.success, s)

/-- `connect`. -/
def connect (o : Opening) : DbSts × DataHandles :=
  let (ret, s) := s.internalAllocateHandles o
  if ret = .success then s.internalConnect o else (ret, s)

/-- `is_connected`. -/
def isConnected : Bool := s.connHandle.isSome

/-- `disconnect`, whatever `SQLDisconnect` returns. -/
def disconnect : DataHandles := s.freeConnHandle.freeEnvHandle

end DataHandles

/-- `rtl::db_db2`. -/
def connector : Connector DataHandles Opening where
  disconnected := {}
  isConnected := DataHandles.isConnected
  connect := DataHandles.connect
  disconnect := DataHandles.disconnect

/-- What `connect` comes to, by the first step that fails. -/
theorem opened_eq (o : Opening) : connector.opened o =
    if ¬succeeded o.allocEnv then (.envError, {})
    else if ¬succeeded o.allocDbc then (.connectionError, {})
    else if ¬succeeded o.setConnectAttr then
      (.configError, ⟨some o.env, some o.dbc, [o.dbc, o.env]⟩)
    else if ¬succeeded o.driverConnect then (.connectionError, {})
    else (.success, ⟨some o.env, some o.dbc, [o.dbc, o.env]⟩) := by
  simp only [Connector.opened, connector, DataHandles.connect, DataHandles.internalAllocateHandles,
    DataHandles.internalConnect, DataHandles.freeConnHandle, DataHandles.freeEnvHandle,
    DataHandles.freeHandle]
  cases succeeded o.allocEnv <;> cases succeeded o.allocDbc <;>
    cases succeeded o.setConnectAttr <;> cases succeeded o.driverConnect <;> simp

theorem allOrNothing_iff (o : Opening) : connector.AllOrNothing o ↔
    (succeeded o.allocEnv → succeeded o.allocDbc → succeeded o.setConnectAttr) := by
  have ho := opened_eq o
  by_cases henv : succeeded o.allocEnv
  swap
  · rw [if_pos henv] at ho
    exact iff_of_true (Connector.allOrNothing_of_failure ho (by decide) rfl) fun h => (henv h).elim
  rw [if_neg (not_not.2 henv)] at ho
  by_cases hdbc : succeeded o.allocDbc
  swap
  · rw [if_pos hdbc] at ho
    exact iff_of_true (Connector.allOrNothing_of_failure ho (by decide) rfl)
      fun _ h => (hdbc h).elim
  rw [if_neg (not_not.2 hdbc)] at ho
  by_cases hattr : succeeded o.setConnectAttr
  swap
  · -- Both handles stay.
    rw [if_pos hattr] at ho
    exact iff_of_false (Connector.not_allOrNothing ho (by decide) (fun h => by cases h))
      fun h => hattr (h henv hdbc)
  rw [if_neg (not_not.2 hattr)] at ho
  refine iff_of_true ?_ fun _ _ => hattr
  by_cases hconn : succeeded o.driverConnect
  · rw [if_neg (not_not.2 hconn)] at ho
    exact Connector.allOrNothing_of_success ho rfl
  · rw [if_pos hconn] at ho
    exact Connector.allOrNothing_of_failure ho (by decide) rfl

/-- A connection that was opened is closed with all that belongs to it. -/
theorem disconnect_opened {o : Opening} (h : (connector.opened o).1 = .success) :
    connector.disconnect (connector.opened o).2 = connector.disconnected := by
  have hstate : (connector.opened o).2 = ⟨some o.env, some o.dbc, [o.dbc, o.env]⟩ := by
    rw [opened_eq] at h ⊢
    -- Of the five ways to end, only one is a success.
    split at h
    · cases h
    split at h
    · cases h
    split at h
    · cases h
    split at h
    · cases h
    simp [*]
  rw [hstate]
  simp [connector, DataHandles.disconnect, DataHandles.freeConnHandle, DataHandles.freeEnvHandle,
    DataHandles.freeHandle]

end Db2

/-! ## PostgreSQL -/

namespace Psql

/-- What libpq answers while `connect` runs. -/
structure Opening where
  /-- The object that `PQconnectdb` returns. -/
  conn : Option ℕ
  /-- Its `PQstatus` is `CONNECTION_OK`. -/
  ok : Bool
  /-- The status of the result of BEGIN. -/
  begin : ExecStatus
  /-- The `PQstatus` after that. -/
  okAfter : Bool

/-- The connection of `db_data_psql`, and those that libpq has allocated for it and that were not
    finished. -/
structure DataConn where
  conn : Option ℕ := none
  /-- Its `PQstatus` is `CONNECTION_OK`. -/
  alive : Bool := false
  allocated : List ℕ := []
  deriving DecidableEq, Repr

namespace DataConn

variable (s : DataConn)

/-- `is_connected`. -/
def isConnected : Bool := s.conn.isSome && s.alive

/-- `begin_transaction`, which is an `exec_command`. -/
def beginTransaction (o : Opening) : DbSts × DataConn :=
  if ¬s.isConnected then (.connectionError, s)
  else
    let s := { s with alive := o.okAfter }
    if o.begin ≠ .commandOk then (.transactionError, s) else (.success, s)

/-- `connect`. -/
def connect (o : Opening) : DbSts × DataConn :=
  if s.conn.isSome then (.connectionError, s)
  else match o.conn with
    | none => (.memoryError, s)
    | some c =>
      let s := { s with allocated := c :: s.allocated }
      if ¬o.ok then (.connectionError, { s with allocated := s.allocated.erase c })
      else { s with conn := some c, alive := true }.beginTransaction o

/-- `disconnect`, whatever becomes of the rollback. -/
def disconnect : DataConn :=
  match s.conn with
  | none => s
  | some c => ⟨none, false, s.allocated.erase c⟩

end DataConn

/-- `rtl::db_psql`. -/
def connector : Connector DataConn Opening where
  disconnected := {}
  isConnected := DataConn.isConnected
  connect := DataConn.connect
  disconnect := DataConn.disconnect

theorem opened_eq (o : Opening) : connector.opened o =
    match o.conn with
    | none => (.memoryError, {})
    | some c =>
      if ¬o.ok then (.connectionError, {})
      else
        (if o.begin ≠ .commandOk then .transactionError else .success,
          ⟨some c, o.okAfter, [c]⟩) := by
  simp only [Connector.opened, connector, DataConn.connect, DataConn.beginTransaction,
    DataConn.isConnected]
  cases o.conn with
  | none => rfl
  | some c =>
    cases o.ok with
    | false => simp
    | true => by_cases hbegin : o.begin = .commandOk <;> simp [hbegin]

/-- A connection that was opened is closed with all that belongs to it. -/
theorem disconnect_opened {o : Opening} (h : (connector.opened o).1 = .success) :
    connector.disconnect (connector.opened o).2 = connector.disconnected := by
  rw [opened_eq] at h ⊢
  cases hc : o.conn with
  | none =>
    rw [hc] at h
    cases h
  | some c =>
    rw [hc] at h
    by_cases hok : o.ok
    · simp [hok, connector, DataConn.disconnect]
    · simp [hok] at h

theorem allOrNothing_iff (o : Opening) : connector.AllOrNothing o ↔
    (o.conn.isSome → o.ok → o.begin = .commandOk ∧ o.okAfter) := by
  have ho := opened_eq o
  cases hc : o.conn with
  | none =>
    rw [hc] at ho
    exact iff_of_true (Connector.allOrNothing_of_failure ho (by decide) rfl) fun h => by cases h
  | some c =>
    rw [hc] at ho
    dsimp only at ho
    by_cases hok : o.ok
    swap
    · rw [if_pos hok] at ho
      exact iff_of_true (Connector.allOrNothing_of_failure ho (by decide) rfl)
        fun _ h => (hok h).elim
    rw [if_neg (not_not.2 hok)] at ho
    by_cases hbegin : o.begin = .commandOk
    · rw [if_neg (not_not.2 hbegin)] at ho
      refine ⟨fun h _ _ => ⟨hbegin, ?_⟩, fun h => ?_⟩
      · have := h.tells
        rw [ho] at this
        simpa [connector, DataConn.isConnected] using this
      · refine Connector.allOrNothing_of_success ho ?_
        exact (h rfl hok).2
    · -- The connection stays.
      rw [if_pos hbegin] at ho
      exact iff_of_false (Connector.not_allOrNothing ho (by decide) (fun h => by cases h))
        fun h => hbegin (h rfl hok).1

theorem conn_pqExec {E : Type} (db : DbPsql E) (sql : String) :
    (db.pqExec sql).2.conn = db.conn := by
  rw [DbPsql.pqExec, DbPsql.pqRun, DbPsql.contact]
  split
  · rfl
  · dsimp only
    split <;> rfl

/-- The `connect` of a connection with its server is such a one. -/
theorem connect_eq_opened {E : Type} {db : DbPsql E} (h : db.conn = false) (outcome : PQconnectdb) :
    ∃ o : Opening, (db.connect outcome).1 = (connector.opened o).1 ∧
      (db.connect outcome).2.conn = (connector.opened o).2.conn.isSome ∧
      (db.connect outcome).2.isConnected = connector.isConnected (connector.opened o).2 := by
  cases outcome with
  | noObject =>
    refine ⟨⟨none, false, .fatalError, false⟩, ?_⟩
    rw [opened_eq, DbPsql.connect, if_neg (by simp [h])]
    exact ⟨rfl, h, by simp [DbPsql.isConnected, h, connector, DataConn.isConnected]⟩
  | failed =>
    refine ⟨⟨some 0, false, .fatalError, false⟩, ?_⟩
    rw [opened_eq, DbPsql.connect, if_neg (by simp [h])]
    exact ⟨rfl, h, by simp [DbPsql.isConnected, h, connector, DataConn.isConnected]⟩
  | ok =>
    let db' : DbPsql E := { db with conn := true, alive := true, session := db.session.close }
    have hconn : (db'.pqExec "BEGIN").2.conn = true := conn_pqExec _ _
    refine ⟨⟨some 0, true, resultStatus (db'.pqExec "BEGIN").1, (db'.pqExec "BEGIN").2.alive⟩, ?_⟩
    have heq : db.connect .ok = (if resultStatus (db'.pqExec "BEGIN").1 ≠ .commandOk then
        .transactionError else .success, (db'.pqExec "BEGIN").2) := by
      rw [DbPsql.connect, if_neg (by simp [h]), DbPsql.beginTransaction, DbPsql.execCommand,
        if_neg (by simp [DbPsql.isConnected])]
      dsimp only
      split <;> rfl
    rw [heq, opened_eq]
    exact ⟨rfl, hconn, by simp [DbPsql.isConnected, hconn, connector, DataConn.isConnected]⟩

end Psql

/-- **`connect` is all or nothing** on db2 just if the attribute of a connection handle that was
    allocated can be set, and on PostgreSQL just if on a connection that is made the BEGIN succeeds
    and leaves it intact. -/
theorem connect_allOrNothing_iff (o : Db2.Opening) (o' : Psql.Opening) :
    (Db2.connector.AllOrNothing o ↔
      (Db2.succeeded o.allocEnv → Db2.succeeded o.allocDbc → Db2.succeeded o.setConnectAttr)) ∧
    (Psql.connector.AllOrNothing o' ↔
      (o'.conn.isSome → o'.ok → o'.begin = .commandOk ∧ o'.okAfter)) :=
  ⟨Db2.allOrNothing_iff o, Psql.allOrNothing_iff o'⟩

/-- The attribute cannot be set, and the BEGIN is refused. -/
theorem not_connect_allOrNothing :
    ¬(∀ o : Db2.Opening, Db2.connector.AllOrNothing o) ∧
    ¬∀ o : Psql.Opening, Psql.connector.AllOrNothing o := by
  refine ⟨fun h => ?_, fun h => ?_⟩
  · exact absurd ((h { setConnectAttr := Db2.sqlError }).cleans (by decide)) (by decide)
  · exact absurd ((h ⟨some 0, true, .fatalError, true⟩).cleans (by decide)) (by decide)

end Dbgen4
