import Dbgen4.Psql.Batch

/-!
# The pipeline of a batch

`execute_batch` takes the connection into pipeline mode, sends the rows, reads what the
server says of each, and leaves the mode again, which libpq allows only when nothing is
left to read. An exception of `marshal_row` is caught outside of this, so that the
connection stays in the mode, with the replies to the rows before it: the connection is
given back exactly when there is no such exception (`ready_executeBatchOn_iff`). Without one
the call is the `execute_batch` of the query runtime (`executeBatchOn_eq`).

The status of the rows is cleared before the replies are read, and the value that it is
cleared to is that of a row without error: a row that was never sent is reported as good
(`rowStatus_exact_iff`).
-/

namespace Dbgen4.Psql

open Rtl

variable {F : FloatText} {pq : Libpq} {q : Query}

/-! ## The status of the rows -/

instance : DecidablePred Good := fun _ => inferInstanceAs (Decidable (_ ∨ _))

/-- How many of the results are good before the first that is not. -/
def firstBad (results : List (Option PGresult)) : ℕ := (results.takeWhile (Good ·)).length

theorem firstBad_le (results : List (Option PGresult)) : firstBad results ≤ results.length :=
  (List.takeWhile_sublist _).length_le

/-- After an error every row has failed. -/
theorem status_of_error (results : List (Option PGresult)) (e : PsqlError) :
    (Query.readResults pq results (some e)).1 = List.replicate results.length 5 := by
  induction results with
  | nil => rfl
  | cons res rest ih =>
    rw [Query.readResults, Option.some_or]
    exact congrArg (5 :: ·) ih

/-- The rows before the first error are good, and the others are not. -/
theorem status_readResults (results : List (Option PGresult)) :
    (Query.readResults pq results none).1 = List.replicate (firstBad results) 0 ++
      List.replicate (results.length - firstBad results) 5 := by
  induction results with
  | nil => rfl
  | cons res rest ih =>
    rw [Query.readResults, Option.none_or]
    by_cases hg : Good res
    · rw [if_neg fun h => hg.elim h.1 h.2]
      rw [firstBad, List.takeWhile_cons_of_pos (by simpa using hg), List.length_cons,
        List.length_cons, Nat.succ_sub_succ, List.replicate_succ]
      exact congrArg (0 :: ·) ih
    · rw [firstBad, List.takeWhile_cons_of_neg (by simpa using hg)]
      rw [Good, not_or] at hg
      rw [if_pos hg]
      exact congrArg (5 :: ·) (status_of_error rest _)

namespace Query

/-- How many rows a batch sends. -/
def sentRows (q : Query) (pq : Libpq) : ℕ :=
  if pq.enterPipelineMode then sendRows pq q.par.rows 0 else 0

/-- What the server says of the rows that a batch sends. -/
def batchResults (F : FloatText) (q : Query) (pq : Libpq) : List (Option PGresult) :=
  (List.range (q.sentRows pq)).map
    (pq.getResult q.stmtName ((List.range (q.sentRows pq)).map (marshalRow F q.par.toBuffer)))

/-- How many rows of a batch the server executes before the first error. -/
def executedRows (F : FloatText) (q : Query) (pq : Libpq) : ℕ := firstBad (q.batchResults F pq)

/-- After a batch `row_status()` says `param_status_ok` of exactly the rows that the server has
    executed. -/
def StatusExact (F : FloatText) (q : Query) (pq : Libpq) : Prop :=
  ∀ r < q.par.rows,
    (q.executeBatch F pq).2.par.rowStatus[r]? = some 0 ↔ r < q.executedRows F pq

end Query

theorem length_batchResults : (q.batchResults F pq).length = q.sentRows pq := by
  rw [Query.batchResults, List.length_map, List.length_range]

/-- What a batch makes of the status. -/
theorem rowStatus_executeBatch : (q.executeBatch F pq).2.par.rowStatus =
    if pq.enterPipelineMode then
      List.replicate (q.executedRows F pq) 0 ++
        List.replicate (q.sentRows pq - q.executedRows F pq) 5 ++
        List.replicate (q.par.rowStatus.length - q.sentRows pq) 0
    else q.par.rowStatus := by
  rw [Query.executeBatch]
  by_cases hen : pq.enterPipelineMode
  · rw [if_neg (not_not.2 hen), if_pos hen]
    have hstatus := @status_readResults pq (q.batchResults F pq)
    rw [length_batchResults] at hstatus
    rw [Query.executedRows, ← hstatus, Query.batchResults, Query.sentRows, if_pos hen]
    dsimp only
    split
    · rfl
    · split <;> rfl
  · rw [if_pos hen, if_neg hen]

/-- `resize_storage` gives the row status as many entries as the columns have rows. -/
def Params.Sized (par : Params) : Prop := par.rowStatus.length = par.rows

/-- **The status of the rows** is exact after a batch that has sent all of them; and, if there was
    no pipeline, where nothing was good before. -/
theorem rowStatus_exact_iff (hlen : q.par.Sized) : q.StatusExact F pq ↔
    if pq.enterPipelineMode then Query.sendRows pq q.par.rows 0 = q.par.rows
    else ∀ status ∈ q.par.rowStatus, status ≠ 0 := by
  rw [Query.StatusExact, rowStatus_executeBatch, hlen]
  by_cases hen : pq.enterPipelineMode
  · rw [if_pos hen, if_pos hen]
    have hsent : q.sentRows pq = Query.sendRows pq q.par.rows 0 := if_pos hen
    have hle := sendRows_le pq q.par.rows 0
    have hbad : q.executedRows F pq ≤ q.sentRows pq :=
      (firstBad_le _).trans (Nat.le_of_eq length_batchResults)
    rw [← hsent] at hle ⊢
    constructor
    · intro h
      by_contra hne
      -- The first row that was not sent.
      have hlt : q.sentRows pq < q.par.rows := Nat.lt_of_le_of_ne hle hne
      refine absurd ((h _ hlt).1 ?_) (Nat.not_lt.2 hbad)
      rw [List.getElem?_append_right (by simp; omega),
        List.getElem?_replicate_of_lt (by simp; omega)]
    · intro hall r hr
      rw [hall, Nat.sub_self, List.replicate_zero, List.append_nil]
      by_cases hlt : r < q.executedRows F pq
      · rw [List.getElem?_append_left (by simpa), List.getElem?_replicate_of_lt hlt]
        exact iff_of_true rfl hlt
      · rw [List.getElem?_append_right (by simp; omega),
          List.getElem?_replicate_of_lt (by simp; omega)]
        exact iff_of_false (by decide) hlt
  · rw [if_neg hen, if_neg hen]
    have hnone : q.executedRows F pq = 0 := by
      rw [Query.executedRows, Query.batchResults, Query.sentRows, if_neg hen]
      rfl
    rw [hnone]
    constructor
    · intro h status hmem hzero
      obtain ⟨r, hr⟩ := List.mem_iff_getElem?.1 hmem
      have hlt : r < q.par.rows := hlen ▸ (List.getElem?_eq_some_iff.1 hr).1
      exact absurd ((h r hlt).1 (hzero ▸ hr)) (Nat.not_lt_zero r)
    · intro h r _
      refine iff_of_false (fun hr => ?_) (Nat.not_lt_zero r)
      exact h 0 (List.mem_of_getElem? hr) rfl

/-- The amounts of a batch of two rows. -/
def twoAmounts : Query :=
  .make "insert into t values ($1)" "dbgen4_0" (Buffer.make [amount] 2) (Buffer.make [] 1)

/-- A server that accepts every row. -/
def accepts : Libpq where
  getResult _ _ _ := some { status := .commandOk, tuples := [] }

theorem rowStatus_exact_accepts : twoAmounts.StatusExact noFloats accepts :=
  (@rowStatus_exact_iff noFloats accepts twoAmounts rfl).2 (by decide)

/-- The second row cannot be sent, and is reported as good. -/
theorem not_rowStatus_exact : ¬∀ (F : FloatText) (pq : Libpq) (q : Query), q.par.Sized →
    pq.enterPipelineMode → q.StatusExact F pq := by
  intro h
  have hstatus := h noFloats { accepts with sendQueryPrepared := (· = 0) } twoAmounts rfl rfl 1
    (by decide)
  exact absurd (hstatus.1 rfl) (by decide)

/-! ## The connection -/

/-- What is to be read of a pipeline. -/
inductive Reply
  /-- The result of the `k`th row sent. -/
  | row (k : ℕ)
  /-- The null at the end of a command, or of what there is to read. -/
  | null
  /-- `PGRES_PIPELINE_SYNC`. -/
  | sync
  deriving DecidableEq, Repr

/-- A connection, as libpq documents it. -/
structure PGconn where
  inPipeline : Bool := false
  /-- What `PQgetResult` has still to give. -/
  queue : List Reply := []

namespace PGconn

variable (conn : PGconn)

/-- The next `PQexec` behaves as always: no pipeline, and nothing left to read. -/
def Ready : Prop := conn.inPipeline = false ∧ conn.queue = []

/-- `PQenterPipelineMode`. -/
def enterPipelineMode (ok : Bool) : Bool × PGconn :=
  if ok then (true, { conn with inPipeline := true }) else (false, conn)

/-- `PQsendQueryPrepared`, of the `k`th row. -/
def sendQueryPrepared (ok : Bool) (k : ℕ) : Bool × PGconn :=
  if ok then (true, { conn with queue := conn.queue ++ [.row k, .null] }) else (false, conn)

/-- `PQpipelineSync`. -/
def pipelineSync : PGconn := { conn with queue := conn.queue ++ [.sync] }

/-- `PQgetResult`. -/
def getResult : Reply × PGconn :=
  match conn.queue with
  | [] => (.null, conn)
  | reply :: rest => (reply, { conn with queue := rest })

/-- `PQexitPipelineMode`, which does nothing as long as there is something to read. -/
def exitPipelineMode : PGconn :=
  if conn.queue.isEmpty then { conn with inPipeline := false } else conn

end PGconn

/-- How the loop that sends the rows ends. -/
inductive Sending
  | all
  /-- A row could not be sent. -/
  | refused
  /-- `marshal_row` has thrown. -/
  | threw (what : String)
  deriving DecidableEq, Repr

namespace Query

/-- The loop that sends the rows, from the `k`th on: how it ends, how many it has sent, and the
    connection; `thrown` is what `marshal_row` throws of a row. -/
def sendLoop (pq : Libpq) (thrown : ℕ → Option String) :
    ℕ → ℕ → PGconn → Sending × ℕ × PGconn
  | 0, _, conn => (.all, 0, conn)
  | n + 1, k, conn =>
    match thrown k with
    | some what => (.threw what, 0, conn)
    | none =>
      let (ok, conn) := conn.sendQueryPrepared (pq.sendQueryPrepared k) k
      if ok then
        let (ending, sent, conn) := sendLoop pq thrown n (k + 1) conn
        (ending, sent + 1, conn)
      else (.refused, 0, conn)

/-- The loop that reads what the server says of `n` rows, each with the null after it. -/
def readLoop : ℕ → PGconn → List Reply × PGconn
  | 0, conn => ([], conn)
  | n + 1, conn =>
    let (reply, conn) := conn.getResult
    let (_, conn) := conn.getResult
    let (rest, conn) := readLoop n conn
    (reply :: rest, conn)

/-- The result that a reply is. -/
def resultOf (pq : Libpq) (stmtName : String) (texts : List (List (Option Text))) :
    Reply → Option PGresult
  | .row k => pq.getResult stmtName texts k
  | .null => none
  | .sync => some { status := .pipelineSync, tuples := [] }

/-- `execute_batch` on a connection. -/
def executeBatchOn (F : FloatText) (pq : Libpq) (thrown : ℕ → Option String) (q : Query)
    (conn : PGconn) : Except PsqlError Unit × Query × PGconn :=
  let rows := q.par.rows
  let (entered, conn) := conn.enterPipelineMode pq.enterPipelineMode
  if ¬entered then
    (.error ⟨"could not enter libpq pipeline mode", "", .fatalError⟩, q, conn)
  else
    let (ending, sent, conn) := sendLoop pq thrown rows 0 conn
    match ending with
    -- The handler of the function returns what it caught, and does nothing else.
    | .threw what => (.error ⟨what, "", .fatalError⟩, q, conn)
    | .all | .refused =>
      let conn := conn.pipelineSync
      let (replies, conn) := readLoop sent conn
      let (_, conn) := conn.getResult
      let (_, conn) := conn.getResult
      let conn := conn.exitPipelineMode
      let texts := (List.range sent).map (marshalRow F q.par.toBuffer)
      let (status, firstError) :=
        readResults pq (replies.map (resultOf pq q.stmtName texts)) none
      let q := { q with
        par.rowStatus := status ++ List.replicate (q.par.rowStatus.length - sent) 0 }
      if ending = .refused then (.error ⟨pq.errorMessage, "", .fatalError⟩, q, conn)
      else match firstError with
        | some e => (.error e, q, conn)
        | none => (.ok (), { q with
            cursor := .start
            affectedRows := BitVec.ofNat 64 rows
            rows := none }, conn)

/-- `marshal_row` throws of a row that is reached, as all rows before it are sent. -/
def Throws (pq : Libpq) (thrown : ℕ → Option String) (n k : ℕ) : Prop :=
  ∃ i < n, (thrown (k + i)).isSome ∧ ∀ j < i, pq.sendQueryPrepared (k + j)

end Query

/-! ## The queue -/

variable {thrown : ℕ → Option String}

/-- What is to be read of `n` rows from the `k`th on. -/
def replies (k n : ℕ) : List Reply := (List.range' k n).flatMap fun i => [.row i, .null]

theorem replies_succ (k n : ℕ) : replies k (n + 1) = .row k :: .null :: replies (k + 1) n := rfl

/-- Every row that is sent is two replies to read. -/
theorem sendLoop_conn (n k : ℕ) (conn : PGconn) :
    (Query.sendLoop pq thrown n k conn).2.2 =
      { conn with queue := conn.queue ++ replies k (Query.sendLoop pq thrown n k conn).2.1 } := by
  induction n generalizing k conn with
  | zero => simp [Query.sendLoop, replies]
  | succ n ih =>
    rw [Query.sendLoop]
    cases thrown k with
    | some what => simp [replies]
    | none =>
      cases hok : pq.sendQueryPrepared k with
      | false => simp [PGconn.sendQueryPrepared, replies]
      | true =>
        simp only [PGconn.sendQueryPrepared, if_true]
        rw [ih, replies_succ]
        simp

theorem throws_succ (n k : ℕ) : Query.Throws pq thrown (n + 1) k ↔
    (thrown k).isSome ∨ pq.sendQueryPrepared k ∧ Query.Throws pq thrown n (k + 1) := by
  constructor
  · rintro ⟨i, hi, hthrown, hsent⟩
    cases i with
    | zero => exact .inl hthrown
    | succ i =>
      refine .inr ⟨hsent 0 (Nat.succ_pos i), i, by omega, ?_, fun j hj => ?_⟩
      · rwa [Nat.succ_add_eq_add_succ]
      · rw [Nat.succ_add_eq_add_succ]
        exact hsent (j + 1) (by omega)
  · rintro (hthrown | ⟨hok, i, hi, hthrown, hsent⟩)
    · exact ⟨0, by omega, hthrown, fun j hj => absurd hj (Nat.not_lt_zero j)⟩
    · refine ⟨i + 1, by omega, ?_, fun j hj => ?_⟩
      · rwa [← Nat.succ_add_eq_add_succ]
      · cases j with
        | zero => exact hok
        | succ j =>
          rw [← Nat.succ_add_eq_add_succ]
          exact hsent j (by omega)

/-- How the loop ends: it throws, or is the `sendRows` of the query runtime. -/
theorem sendLoop_ending (n k : ℕ) (conn : PGconn) :
    ((∃ what, (Query.sendLoop pq thrown n k conn).1 = .threw what) ∧
        Query.Throws pq thrown n k) ∨
      ¬Query.Throws pq thrown n k ∧
        (Query.sendLoop pq thrown n k conn).2.1 = Query.sendRows pq n k ∧
        (Query.sendLoop pq thrown n k conn).1 =
          if Query.sendRows pq n k < n then .refused else .all := by
  induction n generalizing k conn with
  | zero =>
    refine .inr ⟨?_, rfl, rfl⟩
    rintro ⟨i, hi, -⟩
    exact Nat.not_lt_zero i hi
  | succ n ih =>
    rw [throws_succ, Query.sendLoop, Query.sendRows]
    cases thrown k with
    | some what => exact .inl ⟨⟨what, rfl⟩, .inl rfl⟩
    | none =>
      cases hok : pq.sendQueryPrepared k with
      | false =>
        refine .inr ⟨?_, rfl, rfl⟩
        rintro (h | ⟨h, -⟩) <;> cases h
      | true =>
        simp only [PGconn.sendQueryPrepared, if_true, Option.isSome_none, Bool.false_eq_true,
          false_or, true_and, Nat.add_lt_add_iff_right]
        rcases ih (k + 1) { conn with queue := conn.queue ++ [.row k, .null] } with
          ⟨hthrew, h⟩ | ⟨h, hsent, hending⟩
        · exact .inl ⟨hthrew, h⟩
        · exact .inr ⟨h, congrArg (· + 1) hsent, hending⟩

/-- Reading goes through the replies to the rows, in order. -/
theorem readLoop_replies (n k : ℕ) (p : Bool) (rest : List Reply) :
    Query.readLoop n ⟨p, replies k n ++ rest⟩ = ((List.range' k n).map .row, ⟨p, rest⟩) := by
  induction n generalizing k with
  | zero => rfl
  | succ n ih =>
    rw [replies_succ, Query.readLoop]
    simp only [List.cons_append, PGconn.getResult]
    rw [ih]
    rfl

/-! ## The whole call -/

/-- A batch of which no row throws is the one of the query runtime, and gives the connection
    back. -/
theorem executeBatchOn_eq {conn : PGconn} (hc : conn.Ready)
    (h : pq.enterPipelineMode → ¬Query.Throws pq thrown q.par.rows 0) :
    q.executeBatchOn F pq thrown conn =
      ((q.executeBatch F pq).1, (q.executeBatch F pq).2, conn) := by
  obtain ⟨p, queue⟩ := conn
  obtain ⟨rfl, rfl⟩ := hc
  rw [Query.executeBatchOn, Query.executeBatch, PGconn.enterPipelineMode]
  by_cases hen : pq.enterPipelineMode
  · have hconn := @sendLoop_conn pq thrown q.par.rows 0 ⟨true, []⟩
    obtain ⟨-, hthrows⟩ | ⟨-, hsent, hending⟩ :=
      @sendLoop_ending pq thrown q.par.rows 0 ⟨true, []⟩
    · exact absurd hthrows (h hen)
    rcases hloop : Query.sendLoop pq thrown q.par.rows 0 ⟨true, []⟩ with ⟨ending, sent, conn⟩
    rw [hloop] at hconn hsent hending
    dsimp only at hconn hsent hending
    obtain rfl := hsent
    obtain rfl := hconn
    -- Everything is read: the rows, each with its null, and the synchronisation.
    have hread := readLoop_replies (Query.sendRows pq q.par.rows 0) 0 true [.sync]
    have hresult (texts : List (List (Option Text))) :
        Query.resultOf pq q.stmtName texts ∘ .row = pq.getResult q.stmtName texts := rfl
    rw [if_pos hen, if_neg (not_not.2 hen)]
    dsimp only
    rw [if_neg (not_not.2 rfl), hloop]
    dsimp only [PGconn.pipelineSync]
    rw [List.nil_append, hread, List.map_map, ← List.range_eq_range']
    by_cases hlt : Query.sendRows pq q.par.rows 0 < q.par.rows
    · rw [if_pos hlt] at hending
      rw [hending, if_pos hlt]
      rfl
    · rw [if_neg hlt] at hending
      rw [hending, if_neg hlt]
      dsimp only
      rw [if_neg (by decide), hresult]
      generalize Query.readResults pq _ none = r
      obtain ⟨status, _ | e⟩ := r <;> rfl
  · rw [if_neg hen, if_pos hen]
    rfl

/-- What is left behind when a row throws: the pipeline, and the replies to the rows before it. -/
theorem executeBatchOn_of_throws {conn : PGconn} (hen : pq.enterPipelineMode)
    (h : Query.Throws pq thrown q.par.rows 0) :
    (q.executeBatchOn F pq thrown conn).2.2.inPipeline := by
  rw [Query.executeBatchOn, PGconn.enterPipelineMode, if_pos hen]
  dsimp only
  rw [if_neg (not_not.2 rfl)]
  have hconn := @sendLoop_conn pq thrown q.par.rows 0
    { conn with inPipeline := true }
  obtain ⟨⟨what, hwhat⟩, -⟩ | ⟨hno, -⟩ :=
    @sendLoop_ending pq thrown q.par.rows 0 { conn with inPipeline := true }
  · rcases hloop : Query.sendLoop pq thrown q.par.rows 0 { conn with inPipeline := true } with
      ⟨ending, sent, conn'⟩
    rw [hloop] at hconn hwhat
    dsimp only at hconn hwhat ⊢
    rw [hwhat, hconn]
  · exact absurd h hno

/-- **The connection is given back** by a batch, unless a row throws that all rows before it are
    sent of. -/
theorem ready_executeBatchOn_iff {conn : PGconn} (hc : conn.Ready) :
    (q.executeBatchOn F pq thrown conn).2.2.Ready ↔
      ¬(pq.enterPipelineMode ∧ ∃ k < q.par.rows, (thrown k).isSome ∧
        ∀ j < k, pq.sendQueryPrepared j) := by
  have hthrows : Query.Throws pq thrown q.par.rows 0 ↔ ∃ k < q.par.rows, (thrown k).isSome ∧
      ∀ j < k, pq.sendQueryPrepared j := by
    simp only [Query.Throws, Nat.zero_add]
  rw [← hthrows, not_and]
  constructor
  · intro hready hen hthrow
    exact Bool.false_ne_true (hready.1.symm.trans (executeBatchOn_of_throws hen hthrow))
  · intro h
    rw [executeBatchOn_eq hc h]
    exact hc

/-- The second row cannot be sent, and the first is refused. -/
def refuses : Libpq where
  sendQueryPrepared := (· = 0)
  getResult _ _ _ := some { status := .fatalError, tuples := [] }

theorem ready_refuses :
    (twoAmounts.executeBatchOn noFloats refuses (fun _ => none) {}).2.2.Ready :=
  (ready_executeBatchOn_iff ⟨rfl, rfl⟩).2 fun ⟨_, _, _, h, _⟩ => (by cases h)

/-- There is no memory for the text of the second row. -/
theorem not_ready : ¬∀ (F : FloatText) (pq : Libpq) (thrown : ℕ → Option String) (q : Query)
    (conn : PGconn), conn.Ready → (q.executeBatchOn F pq thrown conn).2.2.Ready := by
  intro h
  have hready := h noFloats accepts (fun k => if k = 1 then some "std::bad_alloc" else none)
    twoAmounts {} ⟨rfl, rfl⟩
  exact absurd hready.1 (by decide)

end Dbgen4.Psql
