import Dbgen4.Psql.Connection
import Dbgen4.Psql.Fetch

/-!
# Batches

A batch of parameter rows goes to the server in one pipeline, which stops at the
first row that fails; the same rows can be executed one at a time. The server is
any database here, with a state and what it answers to the execution of a
prepared statement (`Dbms`), and a pipelined execution is one to it like any
other.

When a batch succeeds, so do the single executions, and they leave the same
state (`runRows_of_batch`). But the batch counts its parameter rows, and not the
table rows that they touched: it agrees with the single executions on
`affected_rows()` exactly when the two are equally many (`batch_agrees_iff`).
-/

namespace Dbgen4.Psql

open Rtl

/-! ## One row of a buffer -/

/-- One row of the columns, as a buffer of its own. -/
def oneRow (b : Buffer) (r : Fin b.rows) : Buffer where
  rows := 1
  columns := b.columns.map fun col => ⟨col.dscr, .replicate 1 col.cells[r]⟩
  layoutGeneration := b.layoutGeneration

theorem marshalRow_oneRow (F : FloatText) (b : Buffer) (r : Fin b.rows) :
    Query.marshalRow F (oneRow b r) 0 = Query.marshalRow F b r := by
  rw [Query.marshalRow, Query.marshalRow, oneRow, List.map_map]
  refine List.map_congr_left fun col _ => ?_
  simp

/-- The query, with one row of a buffer for its parameters. -/
def Query.withRow (q : Query) (b : Buffer) (r : Fin b.rows) : Query :=
  { q with par := ⟨oneRow b r, [0]⟩ }

/-! ## The server -/

/-- A database server: what it answers to the execution of a prepared statement, and the state
    after it. -/
structure Dbms (σ : Type) where
  exec : σ → String → List (Option Text) → Option PGresult × σ

namespace Dbms

variable {σ : Type} (srv : Dbms σ) (name : String)

/-- The executions of a pipeline: those after the first that fails are not run. -/
def pipeline : List (List (Option Text)) → σ → List (Option PGresult) × σ
  | [], st => ([], st)
  | texts :: rest, st =>
    let (res, st) := srv.exec st name texts
    if resultStatus res = .fatalError then
      (res :: List.replicate rest.length (some DbPsql.pipelineAborted), st)
    else
      let (results, st) := pipeline rest st
      (res :: results, st)

/-- The number of rows that the server reports with a result. -/
def countOf (res : Option PGresult) : BitVec 64 :=
  match res with
  | some res => (parseInt 64 res.cmdTuples).getD (-1)
  | none => -1

/-- How many rows of the table each of the executions touches, one after the other. -/
def counts : List (List (Option Text)) → σ → List ℤ
  | [], _ => []
  | texts :: rest, st =>
    (countOf (srv.exec st name texts).1).toInt :: counts rest (srv.exec st name texts).2

/-- What libpq answers during a call, on the server. -/
def libpq (pq : Libpq) (st : σ) : Libpq :=
  { pq with
    execPrepared := fun name texts => (srv.exec st name texts).1
    getResult := fun name texts k => (srv.pipeline name texts st).1[k]?.join }

/-- The state after what `execute` sends. -/
def after (F : FloatText) (q : Query) (st : σ) : Request → σ
  | .nothing => st
  | .single => (srv.exec st q.stmtName (Query.marshalRow F q.par.toBuffer 0)).2
  | .batch n => (srv.pipeline q.stmtName
      ((List.range n).map (Query.marshalRow F q.par.toBuffer)) st).2

/-- `execute`, on the server. -/
def run (F : FloatText) (pq : Libpq) (q : Query) (st : σ) : Except PsqlError Unit × Query × σ :=
  let (r, q') := q.execute F (srv.libpq pq st)
  (r, q', srv.after F q st (q.request pq))

/-- Rows of a buffer executed one at a time: what each execution returns, with
    `affected_rows()` after it, and the state after all of them. -/
def runRows (F : FloatText) (pq : Libpq) (b : Buffer) :
    List (Fin b.rows) → Query → σ → List (Except PsqlError Unit × BitVec 64) × σ
  | [], _, st => ([], st)
  | r :: rest, q, st =>
    let (out, q, st) := srv.run F pq (q.withRow b r) st
    let (outs, st) := runRows F pq b rest q st
    ((out, q.affectedRows) :: outs, st)

end Dbms

/-! ## A batch that succeeds -/

/-- The server has executed a row. -/
def Good (res : Option PGresult) : Prop :=
  resultStatus res = .commandOk ∨ resultStatus res = .tuplesOk

/-- The loop over the results keeps an error, and finds one unless all are good. -/
theorem good_of_readResults {pq : Libpq} {results : List (Option PGresult)}
    {firstError : Option PsqlError} (h : (Query.readResults pq results firstError).2 = none) :
    firstError = none ∧ ∀ res ∈ results, Good res := by
  induction results generalizing firstError with
  | nil => exact ⟨h, fun _ hres => absurd hres List.not_mem_nil⟩
  | cons res rest ih =>
    obtain ⟨hfe, hrest⟩ := ih h
    obtain ⟨rfl, hres⟩ := Option.or_eq_none_iff.1 hfe
    refine ⟨rfl, fun res' hmem => ?_⟩
    rcases List.mem_cons.1 hmem with rfl | hmem
    · by_contra hbad
      rw [Good, not_or] at hbad
      rw [if_pos hbad] at hres
      cases hres
    · exact hrest res' hmem

/-- `execute` of one row that the server executes. -/
theorem execute_single {F : FloatText} {pq : Libpq} {q : Query} {res : PGresult}
    (hp : q.prepared) (hl : q.checkLayout = .ok ()) (hone : ¬(q.hasP ∧ q.par.rows > 1))
    (hx : pq.execPrepared q.stmtName (Query.marshalRow F q.par.toBuffer 0) = some res)
    (hg : Good (some res)) :
    q.execute F pq = (.ok (), { q with
      cursor :=
        { total := if res.status = .tuplesOk then res.tuples.length else 0
          next_le := Nat.zero_le _ }
      affectedRows := (parseInt 64 res.cmdTuples).getD (-1)
      rows := some res }) := by
  have hbad : ¬(res.status ≠ .tuplesOk ∧ res.status ≠ .commandOk) := fun h => hg.elim h.2 h.1
  rw [Query.execute, if_neg (not_not_intro hp), hl]
  dsimp only
  rw [if_neg hone, hx]
  dsimp only
  rw [if_neg hbad]

theorem sendRows_le (pq : Libpq) (n k : ℕ) : Query.sendRows pq n k ≤ n := by
  induction n generalizing k with
  | zero => exact Nat.le_refl 0
  | succ n ih =>
    rw [Query.sendRows]
    split
    · exact Nat.succ_le_succ (ih (k + 1))
    · exact Nat.zero_le _

/-- What is known of a batch that succeeds: it was sent whole, no result was an error, and it
    counts its rows. -/
theorem of_execute_batch {F : FloatText} {pq : Libpq} {q : Query}
    (hb : q.hasP ∧ q.par.rows > 1) (h : (q.execute F pq).1 = .ok ()) :
    q.prepared ∧ q.checkLayout = .ok () ∧ pq.enterPipelineMode ∧
      Query.sendRows pq q.par.rows 0 = q.par.rows ∧
      (Query.readResults pq ((List.range q.par.rows).map (pq.getResult q.stmtName
        ((List.range q.par.rows).map (Query.marshalRow F q.par.toBuffer)))) none).2 = none ∧
      (q.execute F pq).2.affectedRows = BitVec.ofNat 64 q.par.rows := by
  rw [Query.execute] at h ⊢
  -- Every other way through `execute` and `execute_batch` returns an error.
  by_cases hp : ¬q.prepared
  · rw [if_pos hp] at h
    cases h
  rw [if_neg hp] at h ⊢
  cases hl : q.checkLayout with
  | error e =>
    rw [hl] at h
    cases h
  | ok u =>
    rw [hl] at h
    dsimp only at h ⊢
    rw [if_pos hb] at h ⊢
    rw [Query.executeBatch] at h ⊢
    by_cases hen : ¬pq.enterPipelineMode
    · rw [if_pos hen] at h
      cases h
    rw [if_neg hen] at h ⊢
    dsimp only at h ⊢
    by_cases hs : Query.sendRows pq q.par.rows 0 < q.par.rows
    · rw [if_pos hs] at h
      cases h
    rw [if_neg hs] at h ⊢
    have hsent := Nat.le_antisymm (sendRows_le pq q.par.rows 0) (Nat.le_of_not_lt hs)
    rw [hsent] at h ⊢
    cases hr : (Query.readResults pq ((List.range q.par.rows).map (pq.getResult q.stmtName
        ((List.range q.par.rows).map (Query.marshalRow F q.par.toBuffer)))) none).2 with
    | some e =>
      rw [hr] at h
      cases h
    | none => exact ⟨not_not.1 hp, rfl, not_not.1 hen, rfl, rfl, rfl⟩

theorem map_getElem?_join {α : Type} {l : List (Option α)} {n : ℕ} (h : l.length = n) :
    (List.range n).map (fun k => l[k]?.join) = l := by
  subst h
  refine List.ext_getElem (by simp) fun k h₁ h₂ => ?_
  simp [h₂]

namespace Dbms

variable {σ : Type} {srv : Dbms σ} {name : String} {F : FloatText} {pq : Libpq} {st : σ}

theorem length_pipeline (rows : List (List (Option Text))) (st : σ) :
    (srv.pipeline name rows st).1.length = rows.length := by
  induction rows generalizing st with
  | nil => rfl
  | cons texts rest ih =>
    rw [pipeline]
    dsimp only
    split
    · simp
    · simp [ih]

theorem sendRows_libpq (n k : ℕ) :
    Query.sendRows (srv.libpq pq st) n k = Query.sendRows pq n k := by
  induction n generalizing k with
  | zero => rfl
  | succ n ih =>
    rw [Query.sendRows, Query.sendRows, ih]
    rfl

/-- What is known of a batch that succeeds: it was sent whole, every row was executed, and it
    counts its rows. -/
theorem of_run_batch {q : Query} (hb : q.hasP ∧ q.par.rows > 1)
    (h : (srv.run F pq q st).1 = .ok ()) :
    q.prepared ∧ q.checkLayout = .ok () ∧
      (∀ res ∈ (srv.pipeline q.stmtName
        ((List.range q.par.rows).map (Query.marshalRow F q.par.toBuffer)) st).1, Good res) ∧
      (srv.run F pq q st).2.1.affectedRows = BitVec.ofNat 64 q.par.rows ∧
      (srv.run F pq q st).2.2 = (srv.pipeline q.stmtName
        ((List.range q.par.rows).map (Query.marshalRow F q.par.toBuffer)) st).2 := by
  have h : (q.execute F (srv.libpq pq st)).1 = .ok () := h
  obtain ⟨hp, hl, hen, hs, hres, haff⟩ := of_execute_batch hb h
  have hreq : q.request pq = .batch q.par.rows := by
    rw [Query.request, if_neg (not_not_intro hp), hl]
    show (if q.hasP ∧ q.par.rows > 1 then
      if pq.enterPipelineMode then Request.batch (Query.sendRows pq q.par.rows 0) else .nothing
      else .single) = _
    have hen : pq.enterPipelineMode := hen
    rw [if_pos hb, if_pos hen]
    have hsend : Query.sendRows (srv.libpq pq st) q.par.rows 0 = Query.sendRows pq q.par.rows 0 :=
      sendRows_libpq _ _
    exact congrArg Request.batch (hsend.symm.trans hs)
  refine ⟨hp, hl, ?_, haff, ?_⟩
  · have hmap : (List.range q.par.rows).map ((srv.libpq pq st).getResult q.stmtName
        ((List.range q.par.rows).map (Query.marshalRow F q.par.toBuffer))) =
        (srv.pipeline q.stmtName
          ((List.range q.par.rows).map (Query.marshalRow F q.par.toBuffer)) st).1 :=
      map_getElem?_join (by rw [length_pipeline, List.length_map, List.length_range])
    rw [hmap] at hres
    exact (good_of_readResults hres).2
  · rw [run, hreq]
    rfl

/-- The query is prepared, for buffers of this layout. -/
structure Ready (q : Query) (b : Buffer) : Prop where
  prepared : q.prepared
  par : b.layoutGeneration = q.boundParLayout
  res : q.hasR → q.res.layoutGeneration = q.boundResLayout

/-- One row. -/
theorem run_withRow {q : Query} {b : Buffer} {r : Fin b.rows} (hq : Ready q b)
    (hn : q.stmtName = name) (hg : Good (srv.exec st name (Query.marshalRow F b r)).1) :
    ∃ q', srv.run F pq (q.withRow b r) st =
        (.ok (), q', (srv.exec st name (Query.marshalRow F b r)).2) ∧
      q'.affectedRows = countOf (srv.exec st name (Query.marshalRow F b r)).1 ∧
      q'.stmtName = name ∧ Ready q' b := by
  subst hn
  have hlayout : (q.withRow b r).checkLayout = .ok () := by
    rw [Query.checkLayout, if_neg fun h => h.2 hq.par, if_neg fun h => h.2 (hq.res h.1)]
  have hone : ¬((q.withRow b r).hasP ∧ (q.withRow b r).par.rows > 1) := fun h =>
    absurd h.2 (Nat.lt_irrefl 1)
  have hprep : (q.withRow b r).prepared := hq.prepared
  have hreq : (q.withRow b r).request pq = .single := by
    rw [Query.request, if_neg (not_not_intro hprep), hlayout]
    dsimp only
    rw [if_neg hone]
  have htexts : Query.marshalRow F (q.withRow b r).par.toBuffer 0 = Query.marshalRow F b r :=
    marshalRow_oneRow F b r
  cases hres : (srv.exec st q.stmtName (Query.marshalRow F b r)).1 with
  | none =>
    rw [hres] at hg
    rcases hg with h | h <;> cases h
  | some res =>
    rw [hres] at hg
    have hx : (srv.libpq pq st).execPrepared (q.withRow b r).stmtName
        (Query.marshalRow F (q.withRow b r).par.toBuffer 0) = some res := by
      rw [htexts]
      exact hres
    rw [run, hreq, after, htexts, execute_single hprep hlayout hone hx hg]
    exact ⟨_, rfl, rfl, rfl, hq.prepared, hq.par, hq.res⟩

/-- When the pipeline executes every row, so do the single executions, with the same state
    after them. -/
theorem runRows_of_good {q : Query} {b : Buffer} {rs : List (Fin b.rows)} (hq : Ready q b)
    (hn : q.stmtName = name)
    (hg : ∀ res ∈ (srv.pipeline name (rs.map fun r : Fin b.rows => Query.marshalRow F b r) st).1,
      Good res) :
    (∀ x ∈ (srv.runRows F pq b rs q st).1, x.1 = .ok ()) ∧
      (srv.runRows F pq b rs q st).2 =
        (srv.pipeline name (rs.map fun r : Fin b.rows => Query.marshalRow F b r) st).2 ∧
      (srv.runRows F pq b rs q st).1.map (·.2.toInt) =
        srv.counts name (rs.map fun r : Fin b.rows => Query.marshalRow F b r) st := by
  induction rs generalizing q st with
  | nil => exact ⟨fun x hx => absurd hx List.not_mem_nil, rfl, rfl⟩
  | cons r rest ih =>
    rw [List.map_cons, pipeline] at hg ⊢
    dsimp only at hg ⊢
    -- The row did not stop the pipeline, which would have left an error behind.
    have hne : resultStatus (srv.exec st name (Query.marshalRow F b r)).1 ≠ .fatalError := by
      intro hbad
      rw [if_pos hbad] at hg
      rcases hg _ List.mem_cons_self with h | h <;> cases hbad.symm.trans h
    rw [if_neg hne] at hg ⊢
    obtain ⟨q', hrun, hcount, hn', hq'⟩ : ∃ q', srv.run F pq (q.withRow b r) st = (.ok (), q', _) ∧
      _ := run_withRow hq hn (hg _ List.mem_cons_self)
    obtain ⟨hok, hst, hcounts⟩ := ih hq' hn' fun res hres => hg res (List.mem_cons_of_mem _ hres)
    rw [runRows, hrun]
    refine ⟨fun x hx => ?_, hst, ?_⟩
    · rcases List.mem_cons.1 hx with rfl | hx
      · rfl
      · exact hok x hx
    · show q'.affectedRows.toInt :: _ = _
      rw [hcounts, hcount, counts]

end Dbms

/-! ## The two paths -/

/-- The batch has left the state that the single executions of its rows leave, which all
    succeed, and counts what they count. -/
def BatchAgrees {σ : Type} (srv : Dbms σ) (F : FloatText) (pq : Libpq) (q : Query) (st : σ) :
    Prop :=
  let batch := srv.run F pq q st
  let single := srv.runRows F pq q.par.toBuffer (List.finRange q.par.rows) q st
  (∀ x ∈ single.1, x.1 = .ok ()) ∧ single.2 = batch.2.2 ∧
    batch.2.1.affectedRows.toInt = (single.1.map (·.2.toInt)).sum

theorem map_finRange {α : Type} (n : ℕ) (f : ℕ → α) :
    (List.finRange n).map (fun r : Fin n => f r) = (List.range n).map f := by
  rw [← List.map_coe_finRange_eq_range, List.map_map]
  rfl

/-- **The batch path and the plain path**: a batch that succeeds agrees with the single
    executions of its rows exactly when these touch as many rows of the table as there are
    parameter rows (which the batch casts to `int64_t`). -/
theorem batch_agrees_iff {σ : Type} {srv : Dbms σ} {F : FloatText} {pq : Libpq} {q : Query}
    {st : σ} (hp : q.hasP) (hn : 2 ≤ q.par.rows) (h : (srv.run F pq q st).1 = .ok ()) :
    BatchAgrees srv F pq q st ↔
      (srv.counts q.stmtName
        ((List.range q.par.rows).map (Query.marshalRow F q.par.toBuffer)) st).sum =
        (BitVec.ofNat 64 q.par.rows).toInt := by
  obtain ⟨hprep, hl, hgood, haff, hst⟩ := Dbms.of_run_batch ⟨hp, hn⟩ h
  have hready : Dbms.Ready q q.par.toBuffer := by
    rw [Query.checkLayout] at hl
    have hpar : q.par.layoutGeneration = q.boundParLayout := by
      by_contra hne
      rw [if_pos ⟨hp, hne⟩] at hl
      cases hl
    rw [if_neg fun h => h.2 hpar] at hl
    refine ⟨hprep, hpar, fun hr => ?_⟩
    by_contra hne
    rw [if_pos ⟨hr, hne⟩] at hl
    cases hl
  rw [← map_finRange] at hgood hst ⊢
  obtain ⟨hok, hst', hcounts⟩ : (∀ x ∈ (srv.runRows F pq _ _ _ _).1, x.1 = .ok ()) ∧ _ ∧ _ :=
    Dbms.runRows_of_good hready rfl hgood
  rw [BatchAgrees, hcounts, haff, hst', hst]
  exact ⟨fun hb => hb.2.2.symm, fun hb => ⟨hok, rfl, hb.symm⟩⟩

/-! ### Two rows of parameters -/

/-- A server on which each execution touches `n` rows of the table. -/
def touching (n : Field) : Dbms Unit where
  exec _ _ _ := (some ⟨.commandOk, [], n.1, "", none⟩, ())

/-- A query with one parameter, prepared for a batch of two rows. -/
def batchQuery : Query :=
  ((Query.make "delete from account where owner = $1" "dbgen4_0" (Buffer.make [amount] 2)
    (Buffer.make [] 1)).prepare { prepare := fun _ _ _ => some ⟨.commandOk, [], [], "", none⟩ }).2

/-- Each parameter row deletes one row. -/
theorem batch_agrees_one :
    BatchAgrees (touching ⟨[ascii '1'], by decide⟩) noFloats {} batchQuery () :=
  (batch_agrees_iff (by decide) (by decide) (by decide)).2 (by decide)

/-- Each deletes three: six rows are gone, and the batch counts two. -/
theorem not_batch_agrees :
    ¬∀ (σ : Type) (srv : Dbms σ) (F : FloatText) (pq : Libpq) (q : Query) (st : σ), q.hasP →
      2 ≤ q.par.rows → (srv.run F pq q st).1 = .ok () → BatchAgrees srv F pq q st := by
  intro h
  have hb := h Unit (touching ⟨[ascii '3'], by decide⟩) noFloats {} batchQuery () (by decide)
    (by decide) (by decide)
  exact absurd hb.2.2 (by decide)

end Dbgen4.Psql
