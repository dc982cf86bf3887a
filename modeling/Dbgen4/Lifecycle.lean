import Dbgen4.Db2.Handle
import Dbgen4.Db2.Layout
import Dbgen4.Psql.Fetch

/-!
# One lifecycle, two runtimes

`query<>` exists twice: over libpq (`rtl/psql/query.hpp`), where a flag says
whether the statement is prepared and the rows lie with the client, and over
ODBC (`rtl/db2/query.hpp`), where the statement handle says so and the driver
holds the cursor. A caller is promised the same behaviour of both.

Each runtime is put together with what is on its other side: the session of the
server, which refuses a statement name that it has already, or the statement of
the driver, which cannot be executed while its cursor is open, and has nothing to
fetch while it is not. What is legal there succeeds, and the rest fails.

`twins` is the system of both, given the same calls. They agree as long as the
statement is prepared once and reset only before that, is not executed while
the cursor is open, and is fetched from only as far as both have a result
(`twins_agree`).
-/

namespace Dbgen4

open Rtl

/-- A call on a query. -/
inductive LifeCall
  /-- `set_buffer_size` of the parameters, or of the results. -/
  | setParams (rows : ℕ)
  | setResults (rows : ℕ)
  | prepare
  | execute
  /-- `fetch`, and how many rows the driver reports. -/
  | fetch (reported : ℕ)
  | reset
  deriving DecidableEq, Repr

/-! ## The runtime of PostgreSQL -/

namespace Psql

/-- A query, and whether the session of its connection has a statement of its name. -/
structure QuerySession where
  query : Query
  named : Bool := false

/-- How libpq and the server answer: a name in use cannot be prepared again, and a statement that
    there is can be executed. -/
structure QuerySession.Answers (selects : Bool) (s : QuerySession) (pq : Libpq) : Prop where
  prepare : ∀ oids, resultStatus (pq.prepare s.query.stmtName s.query.sql oids) = .commandOk ↔
    s.named = false
  execPrepared : s.named → ∀ values, resultStatus (pq.execPrepared s.query.stmtName values) =
    if selects then .tuplesOk else .commandOk
  enterPipelineMode : pq.enterPipelineMode
  sendQueryPrepared : ∀ k, pq.sendQueryPrepared k
  getResult : s.named → ∀ sent k, resultStatus (pq.getResult s.query.stmtName sent k) =
    if selects then .tuplesOk else .commandOk

/-- The calls, and whether they return a value rather than an error. -/
inductive QuerySession.Step (F : FloatText) (selects : Bool) :
    QuerySession → LifeCall × Bool → QuerySession → Prop
  | setParams (s : QuerySession) (rows : ℕ) : s.query.hasP →
    Step F selects s (.setParams rows, true) { s with query.par :=
        ⟨s.query.par.setBufferSize rows, List.replicate (if rows = 0 then 1 else rows) 0⟩ }
  | setResults (s : QuerySession) (rows : ℕ) : s.query.hasR →
    Step F selects s (.setResults rows, true)
    { s with query.res := ⟨s.query.res.setBufferSize rows, s.query.res.occupied⟩ }
  | prepare (s : QuerySession) (pq : Libpq) : s.Answers selects pq →
    Step F selects s (.prepare, (s.query.prepare pq).1.isOk)
      ⟨(s.query.prepare pq).2, s.named || (s.query.prepare pq).1.isOk⟩
  | execute (s : QuerySession) (pq : Libpq) : s.Answers selects pq →
    Step F selects s (.execute, (s.query.execute F pq).1.isOk)
      { s with query := (s.query.execute F pq).2 }
  | fetch (s : QuerySession) (reported : ℕ) :
    Step F selects s (.fetch reported, (s.query.fetch F).1.isOk)
      { s with query := (s.query.fetch F).2 }
  | reset (s : QuerySession) : Step F selects s (.reset, true) { s with query := s.query.reset }

/-- A new query whose statement name is not in use. -/
def session (F : FloatText) (selects : Bool) : Lts QuerySession (LifeCall × Bool) where
  init := {s | ∃ sql stmtName par res, ∃ parRows resRows,
    s = ⟨Query.make sql stmtName (Buffer.make par parRows) (Buffer.make res resRows), false⟩}
  step := QuerySession.Step F selects

/-! ### What its calls do -/

variable {F : FloatText} {selects : Bool} {q q' : Query} {s s' : QuerySession} {pq : Libpq}

theorem checkLayout_ok_iff : q.checkLayout = .ok () ↔
    (q.hasP → q.par.layoutGeneration = q.boundParLayout) ∧
    (q.hasR → q.res.layoutGeneration = q.boundResLayout) :=
  layoutCheck_ok_iff

theorem hasP_setBufferSize (rows : ℕ) (status : List UInt16) :
    { q with par := ⟨q.par.setBufferSize rows, status⟩ }.hasP = q.hasP := by
  rw [Query.hasP, Query.hasP, isEmpty_columns, isEmpty_columns, Buffer.dscrs_setBufferSize]

theorem hasR_setBufferSize (rows occupied : ℕ) :
    { q with res := ⟨q.res.setBufferSize rows, occupied⟩ }.hasR = q.hasR := by
  rw [Query.hasR, Query.hasR, isEmpty_columns, isEmpty_columns, Buffer.dscrs_setBufferSize]

/-- A name that is not in use is prepared. -/
theorem QuerySession.Answers.prepare_eq (ha : s.Answers selects pq) (hn : s.named = false) :
    s.query.prepare pq = (.ok (), { s.query with
      prepared := true
      boundParLayout := if s.query.hasP then s.query.par.layoutGeneration
        else s.query.boundParLayout
      boundResLayout := if s.query.hasR then s.query.res.layoutGeneration
        else s.query.boundResLayout }) :=
  if_neg (not_not.2 ((ha.prepare _).2 hn))

/-- A call that leaves what is prepared, and the layouts. -/
structure SamePrepared (q q' : Query) : Prop where
  prepared : q'.prepared = q.prepared
  hasP : q'.hasP = q.hasP
  hasR : q'.hasR = q.hasR
  parGeneration : q'.par.layoutGeneration = q.par.layoutGeneration
  resGeneration : q'.res.layoutGeneration = q.res.layoutGeneration
  boundParLayout : q'.boundParLayout = q.boundParLayout
  boundResLayout : q'.boundResLayout = q.boundResLayout

theorem samePrepared_executeBatch : SamePrepared q (q.executeBatch F pq).2 := by
  rw [Query.executeBatch]
  split
  · exact ⟨rfl, rfl, rfl, rfl, rfl, rfl, rfl⟩
  · dsimp only
    split
    · exact ⟨rfl, rfl, rfl, rfl, rfl, rfl, rfl⟩
    · split <;> exact ⟨rfl, rfl, rfl, rfl, rfl, rfl, rfl⟩

theorem samePrepared_execute : SamePrepared q (q.execute F pq).2 := by
  rw [Query.execute]
  split
  · exact ⟨rfl, rfl, rfl, rfl, rfl, rfl, rfl⟩
  · split
    · exact ⟨rfl, rfl, rfl, rfl, rfl, rfl, rfl⟩
    · split
      · exact samePrepared_executeBatch
      · split
        · exact ⟨rfl, rfl, rfl, rfl, rfl, rfl, rfl⟩
        · split <;> exact ⟨rfl, rfl, rfl, rfl, rfl, rfl, rfl⟩

theorem samePrepared_fetch : SamePrepared q (q.fetch F).2 := by
  rw [Query.fetch]
  split
  · exact ⟨rfl, rfl, rfl, rfl, rfl, rfl, rfl⟩
  · split
    · exact ⟨rfl, rfl, rfl, rfl, rfl, rfl, rfl⟩
    · split
      · exact ⟨rfl, rfl, rfl, rfl, rfl, rfl, rfl⟩
      · refine ⟨rfl, rfl, ?_, rfl, layoutGeneration_fetchRows .., rfl, rfl⟩
        rw [Query.hasR, Query.hasR, isEmpty_columns, isEmpty_columns, dscrs_fetchRows]

theorem samePrepared_reset : SamePrepared q q.reset := by
  refine ⟨rfl, ?_, rfl, rfl, rfl, rfl, rfl⟩
  rw [Query.hasP, Query.hasP]
  exact congrArg not List.isEmpty_map

/-- `fetch` returns a value without results, or when the layout is the one of `prepare` and there
    are rows. -/
theorem isOk_fetch : (q.fetch F).1.isOk ↔
    q.hasR = false ∨ q.checkLayout = .ok () ∧ q.rows.isSome := by
  rw [Query.fetch]
  split
  · rename_i h
    exact iff_of_true rfl (.inl (Bool.eq_false_of_not_eq_true h))
  · rename_i hr
    rw [not_not] at hr
    split
    · rename_i e he
      refine iff_of_false Bool.false_ne_true fun h => ?_
      rcases h with h | h
      · exact Bool.false_ne_true (h.symm.trans hr)
      · cases he.symm.trans h.1
    · rename_i u hok
      split
      · rename_i hrows
        refine iff_of_false Bool.false_ne_true fun h => ?_
        rcases h with h | h
        · exact Bool.false_ne_true (h.symm.trans hr)
        · rw [hrows] at h
          cases h.2
      · rename_i res hrows
        refine iff_of_true rfl (.inr ⟨hok, ?_⟩)
        rw [hrows]
        rfl

namespace QuerySession

/-- A statement is prepared just if the server has it; one that is not was not executed. -/
structure Inv (s : QuerySession) : Prop where
  named : s.named = s.query.prepared
  rows : s.query.prepared = false → s.query.rows = none

/-- Rows that are queued succeed. -/
theorem sendRows_eq (hsend : ∀ k, pq.sendQueryPrepared k) (n k : ℕ) :
    Query.sendRows pq n k = n := by
  induction n generalizing k with
  | zero => rfl
  | succ n ih => rw [Query.sendRows, if_pos (hsend k), ih]

/-- Rows that succeed leave no error. -/
theorem readResults_ok {l : List (Option PGresult)}
    (h : ∀ res ∈ l, resultStatus res = .tuplesOk ∨ resultStatus res = .commandOk) :
    (Query.readResults pq l none).2 = none := by
  induction l with
  | nil => rfl
  | cons res rest ih =>
    have hres := h res List.mem_cons_self
    have hno : ¬(resultStatus res ≠ .commandOk ∧ resultStatus res ≠ .tuplesOk) := by
      rintro ⟨h₁, h₂⟩
      exact hres.elim h₂ h₁
    rw [Query.readResults]
    dsimp only
    rw [if_neg hno]
    exact ih fun res hmem => h res (List.mem_cons_of_mem _ hmem)

/-- A batch that can be executed succeeds. -/
theorem isOk_executeBatch (ha : s.Answers selects pq) (hn : s.named) :
    (s.query.executeBatch F pq).1.isOk := by
  have hstatus : ∀ sent, ∀ res ∈ (List.range (Query.sendRows pq s.query.par.rows 0)).map
      (pq.getResult s.query.stmtName sent),
      resultStatus res = .tuplesOk ∨ resultStatus res = .commandOk := by
    intro sent res hmem
    obtain ⟨k, -, rfl⟩ := List.mem_map.1 hmem
    rw [ha.getResult hn]
    split
    · exact .inl rfl
    · exact .inr rfl
  rw [Query.executeBatch, if_neg (not_not.2 ha.enterPipelineMode)]
  dsimp only
  rw [if_neg (by rw [sendRows_eq ha.sendQueryPrepared]; exact Nat.lt_irrefl _),
    readResults_ok (hstatus _)]
  rfl

/-- `execute` returns a value when the statement is prepared and the layout is still the same. -/
theorem isOk_execute (ha : s.Answers selects pq) (hi : s.Inv) :
    (s.query.execute F pq).1.isOk ↔ s.query.prepared ∧ s.query.checkLayout = .ok () := by
  rw [Query.execute]
  split
  · rename_i hp
    exact iff_of_false Bool.false_ne_true fun h => hp h.1
  · rename_i hp
    rw [not_not] at hp
    -- What is prepared is known to the server, so that nothing it is sent is refused.
    have hn : s.named := hi.named.trans hp
    split
    · rename_i e he
      exact iff_of_false Bool.false_ne_true fun h => by cases he.symm.trans h.2
    · rename_i u hok
      refine iff_of_true ?_ ⟨hp, hok⟩
      have hexec := ha.execPrepared hn
      split
      · exact isOk_executeBatch ha hn
      · split
        · rename_i hnone
          have h := hexec (Query.marshalRow F s.query.par.toBuffer 0)
          rw [hnone] at h
          cases selects <;> cases h
        · rename_i res hsome
          have h := hexec (Query.marshalRow F s.query.par.toBuffer 0)
          rw [hsome] at h
          rw [if_neg]
          · rfl
          · rintro ⟨h₁, h₂⟩
            cases selects with
            | true => exact h₁ h
            | false => exact h₂ h

/-- `prepare` returns a value just if the name is not in use. -/
theorem isOk_prepare (ha : s.Answers selects pq) :
    (s.query.prepare pq).1.isOk ↔ s.named = false := by
  rw [← ha.prepare (s.query.par.dscrs.map fun d => toOid d.type), Query.prepare]
  split
  · rename_i h
    exact iff_of_false Bool.false_ne_true h
  · rename_i h
    exact iff_of_true rfl (not_not.1 h)

theorem Inv.step {l : LifeCall × Bool} (h : s.Inv) (hst : Step F selects s l s') : s'.Inv := by
  cases hst with
  | setParams | setResults => exact ⟨h.named, h.rows⟩
  | prepare pq ha =>
    -- A `prepare` that the server refuses leaves both.
    rw [Query.prepare]
    split
    · refine ⟨?_, h.rows⟩
      rw [← h.named]
      exact Bool.or_false _
    · exact ⟨Bool.or_true _, fun hp => absurd hp.symm Bool.false_ne_true⟩
  | execute pq ha =>
    refine ⟨h.named.trans samePrepared_execute.prepared.symm, fun hp => ?_⟩
    have hp : s.query.prepared = false := samePrepared_execute.prepared.symm.trans hp
    rw [Query.execute, if_pos (by rw [hp]; exact Bool.false_ne_true)]
    exact h.rows hp
  | fetch reported =>
    refine ⟨h.named.trans samePrepared_fetch.prepared.symm, fun hp => ?_⟩
    have hp : s.query.prepared = false := samePrepared_fetch.prepared.symm.trans hp
    rw [Query.fetch]
    dsimp only
    split
    · exact h.rows hp
    · split
      · exact h.rows hp
      · rw [h.rows hp]
        exact h.rows hp
  | reset => exact ⟨h.named, fun _ => rfl⟩

theorem inv {tr : List (LifeCall × Bool)} (h : (session F selects).Run tr s) : s.Inv := by
  induction h with
  | init hs =>
    obtain ⟨sql, stmtName, par, res, parRows, resRows, rfl⟩ := hs
    exact ⟨rfl, fun _ => rfl⟩
  | step _ hst ih => exact ih.step hst

end QuerySession

end Psql

/-! ## The runtime of Db2 -/

namespace Db2

variable {ps rs : List BufferDscr}

/-- A query, and what the driver knows of its statement. -/
structure Statement (ps rs : List BufferDscr) where
  query : Query ps rs
  /-- A cursor is open. -/
  cursor : Bool := false
  /-- `SQL_ATTR_ROW_ARRAY_SIZE`. -/
  rowArraySize : ℕ := 0

/-- How the driver answers: a statement is executed while no cursor is open on it, and fetched
    from while one is. -/
structure Statement.Answers (s : Statement ps rs) (d : Driver) : Prop where
  alloc : succeeded d.alloc
  prepare : succeeded d.prepare
  bindParameter : ∀ i, succeeded (d.bindParameter i)
  bindCol : ∀ i, succeeded (d.bindCol i)
  execute : succeeded d.execute ∨ d.execute = noData ↔ s.cursor = false
  fetchScroll : succeeded d.fetchScroll ∨ d.fetchScroll = noData ↔ s.cursor = true
  rowsFetched : d.rowsFetched.toNat ≤ s.rowArraySize
  noData : d.fetchScroll = Db2.noData → d.rowsFetched = 0

/-- The calls, and whether they return a value rather than an error. -/
inductive Statement.Step (G : Growth) (selects : Bool) :
    Statement ps rs → LifeCall × Bool → Statement ps rs → Prop
  | setParams (s : Statement ps rs) (t rows : ℕ) : s.query.hasP →
    Step G selects s (.setParams rows, true)
      { s with query.par := s.query.par.setBufferSize G t rows }
  | setResults (s : Statement ps rs) (t rows : ℕ) : s.query.hasR →
    Step G selects s (.setResults rows, true)
      { s with query.res := s.query.res.setBufferSize G t rows }
  | prepare (s : Statement ps rs) (d : Driver) : s.Answers d →
    Step G selects s (.prepare, (s.query.prepare d).result.isOk)
      ⟨(s.query.prepare d).query, false, s.query.res.bufferSize⟩
  | execute (s : Statement ps rs) (d : Driver) : s.Answers d →
    Step G selects s (.execute, (s.query.execute d).result.isOk)
      { s with
        query := (s.query.execute d).query
        cursor := if (s.query.execute d).result.isOk then selects else s.cursor }
  | fetch (s : Statement ps rs) (d : Driver) : s.Answers d →
    Step G selects s (.fetch d.rowsFetched.toNat, (s.query.fetch d).result.isOk)
      { s with query := (s.query.fetch d).query }
  | reset (s : Statement ps rs) : Step G selects s (.reset, true)
    { s with query := s.query.reset.1, cursor := false }

/-- A new query. -/
def statement (G : Growth) (selects : Bool) (ps rs : List BufferDscr) :
    Lts (Statement ps rs) (LifeCall × Bool) where
  init := {s | ∃ t sql parRows resRows, s = ⟨.make G t ps rs sql parRows resRows, false, 0⟩}
  step := Statement.Step G selects

/-! ### What its calls do -/

variable {G : Growth} {selects : Bool} {s s' : Statement ps rs} {d : Driver}

namespace Statement

/-- A loop that binds all columns fails at none. -/
theorem bindLoop_none {bind : ℕ → BufferDscr → BufferDscrInit → Call} {ret : ℕ → SqlReturn}
    (hret : ∀ i, succeeded (ret i)) (l : List (BufferDscr × BufferDscrInit)) (i : ℕ) :
    (Query.bindLoop bind ret i l).2 = none := by
  induction l generalizing i with
  | nil => rfl
  | cons x rest ih =>
    rw [Query.bindLoop, if_pos (hret i)]
    exact ih (i + 1)

/-- `prepare` returns a value. -/
theorem prepare_ok (ha : s.Answers d) : (s.query.prepare d).result = .ok () := by
  have hpar : ∀ q : Query ps rs, (q.bindParams d d.handle).result = .ok () := by
    intro q
    rw [Query.bindParams]
    split
    · rfl
    · dsimp only
      rw [bindLoop_none ha.bindParameter]
  have hres : ∀ q : Query ps rs, (q.bindResults d d.handle).result = .ok () := by
    intro q
    rw [Query.bindResults]
    split
    · rfl
    · dsimp only
      rw [bindLoop_none ha.bindCol]
  rw [Query.prepare, if_neg (not_not.2 ha.alloc)]
  dsimp only
  rw [if_neg (not_not.2 ha.prepare), hpar]
  dsimp only
  rw [hres]

/-- `execute` returns a value when the statement is prepared, the layout is still the same and no
    cursor is open. -/
theorem isOk_execute (ha : s.Answers d) : (s.query.execute d).result.isOk ↔
    s.query.isPrepared ∧ s.query.checkLayout = .ok () ∧ s.cursor = false := by
  rw [Query.execute, Query.isPrepared]
  cases s.query.stmt with
  | none => exact iff_of_false Bool.false_ne_true fun h => by cases h.1
  | some h =>
    dsimp only
    split
    · rename_i e he
      exact iff_of_false Bool.false_ne_true fun h => by cases he.symm.trans h.2.1
    · rename_i u hok
      rw [← ha.execute]
      split
      · rename_i hfail
        exact iff_of_false Bool.false_ne_true fun h => h.2.2.elim hfail.1 hfail.2
      · rename_i hfail
        refine iff_of_true rfl ⟨rfl, hok, ?_⟩
        by_contra h
        exact hfail (not_or.1 h)

/-- `fetch` returns a value when the statement is prepared and the layout is still the same and,
    if there are results, a cursor is open and no more rows are reported than the buffer has. -/
theorem isOk_fetch (ha : s.Answers d) : (s.query.fetch d).result.isOk ↔
    s.query.isPrepared ∧ s.query.checkLayout = .ok () ∧ (s.query.hasR →
      s.cursor ∧ d.rowsFetched.toNat ≤ s.query.res.bufferSize) := by
  have hsize : (s.query.res.driverWrite fun c r => d.cells c r (rs.get c)).bufferSize =
      s.query.res.bufferSize := (GeneratedBuffer.Write.driverWrite _ _).samePlaces.bufferSize
  rw [Query.fetch, Query.isPrepared]
  cases s.query.stmt with
  | none => exact iff_of_false Bool.false_ne_true fun h => by cases h.1
  | some h =>
    dsimp only
    split
    · rename_i e he
      exact iff_of_false Bool.false_ne_true fun h => by cases he.symm.trans h.2.1
    · rename_i u hok
      split
      · rename_i hr
        exact iff_of_true rfl ⟨rfl, hok, fun h => absurd h hr⟩
      · rename_i hr
        rw [not_not] at hr
        rw [hsize]
        split
        · -- At the end of the rows none are reported.
          rename_i hdone
          refine iff_of_true rfl ⟨rfl, hok, fun _ => ⟨ha.fetchScroll.1 (.inr hdone), ?_⟩⟩
          rw [ha.noData hdone]
          exact Nat.zero_le _
        · rename_i hdone
          split
          · rename_i hfail
            refine iff_of_false Bool.false_ne_true fun h => ?_
            exact (ha.fetchScroll.2 (h.2.2 hr).1).elim hfail hdone
          · rename_i hsucceeded
            rw [not_not] at hsucceeded
            have hopen := ha.fetchScroll.1 (.inl hsucceeded)
            split
            · rename_i hmore
              exact iff_of_false Bool.false_ne_true fun h => Nat.not_lt.2 (h.2.2 hr).2 hmore
            · rename_i hle
              exact iff_of_true rfl ⟨rfl, hok, fun _ => ⟨hopen, Nat.not_lt.1 hle⟩⟩

end Statement

end Db2

/-! ## Both -/

/-- The two runtimes of a statement. -/
abbrev Twins (ps rs : List BufferDscr) := Psql.QuerySession × Db2.Statement ps rs

/-- Both runtimes of a statement, which has parameters and results, or not, on both sides; `selects`
    tells whether it opens a cursor. -/
def twins (F : Psql.FloatText) (G : Growth) (selects : Bool) (ps rs : List BufferDscr) :
    Lts (Twins ps rs) (LifeCall × Bool × Bool) :=
  (Psql.session F selects).lockstep (Db2.statement G selects ps rs)
    fun s s' => s.query.hasP = s'.query.hasP ∧ s.query.hasR = s'.query.hasR

/-- A call that both are given. -/
theorem twins_step {F : Psql.FloatText} {G : Growth} {selects : Bool} {ps rs : List BufferDscr}
    {s s' : Psql.QuerySession} {t t' : Db2.Statement ps rs} {call : LifeCall} {ok ok' : Bool}
    (hs : Psql.QuerySession.Step F selects s (call, ok) s')
    (ht : Db2.Statement.Step G selects t (call, ok') t') :
    (twins F G selects ps rs).step (s, t) (call, ok, ok') (s', t') := ⟨hs, ht⟩

/-- What a call must find for both runtimes to answer alike, of a query of which they agree. -/
def AnswersAlike {ps rs : List BufferDscr} (s : Twins ps rs) : LifeCall → Prop
  | .setParams _ | .setResults _ => True
  | .prepare | .reset => s.2.query.isPrepared = false
  | .execute => s.2.query.isPrepared → s.2.query.checkLayout = .ok () → s.2.cursor = false
  | .fetch reported =>
    if s.2.query.hasR then s.2.query.isPrepared → s.2.query.checkLayout = .ok () →
      (s.1.query.rows.isSome ↔ s.2.cursor ∧ reported ≤ s.2.query.res.bufferSize)
    else s.2.query.isPrepared ∧ s.2.query.checkLayout = .ok ()

/-- Both answered with a value, or both with an error, and they agree whether the statement is
    prepared. -/
def Agree {ps rs : List BufferDscr} (l : LifeCall × Bool × Bool) (s : Twins ps rs) : Prop :=
  l.2.1 = l.2.2 ∧ s.1.query.prepared = s.2.query.isPrepared

variable {F : Psql.FloatText} {G : Growth} {selects : Bool} {ps rs : List BufferDscr}
  {s s' : Twins ps rs} {l : LifeCall × Bool × Bool} {tr : List (LifeCall × Bool × Bool)}

/-- Both runtimes have parameters and results, have them resized, and have the statement prepared,
    as often. -/
structure Coupled (s : Twins ps rs) : Prop where
  hasP : s.1.query.hasP = s.2.query.hasP
  hasR : s.1.query.hasR = s.2.query.hasR
  prepared : s.1.query.prepared = s.2.query.isPrepared
  parGeneration : s.1.query.par.layoutGeneration = s.2.query.par.layoutGeneration
  resGeneration : s.1.query.res.layoutGeneration = s.2.query.res.layoutGeneration
  boundParLayout : s.1.query.boundParLayout = s.2.query.boundParLayout
  boundResLayout : s.1.query.boundResLayout = s.2.query.boundResLayout

namespace Coupled

/-- The layout check says the same on both sides. -/
theorem checkLayout_iff (h : Coupled s) :
    s.1.query.checkLayout = .ok () ↔ s.2.query.checkLayout = .ok () := by
  rw [Psql.checkLayout_ok_iff, Db2.Query.checkLayout_ok_iff, h.hasP, h.hasR, h.parGeneration,
    h.resGeneration, h.boundParLayout, h.boundResLayout]

/-- Calls that leave the layouts and, on both sides alike, what is prepared. -/
theorem of_same {q : Psql.Query} {q' : Db2.Query ps rs} {named cursor : Bool} {rowArraySize : ℕ}
    (h : Coupled s) (hq : Psql.SamePrepared s.1.query q) (hq' : s.2.query.SameLayout q')
    (hp : q.prepared = q'.isPrepared) : Coupled (⟨q, named⟩, ⟨q', cursor, rowArraySize⟩) where
  hasP := hq.hasP.trans h.hasP
  hasR := hq.hasR.trans h.hasR
  prepared := hp
  parGeneration := (hq.parGeneration.trans h.parGeneration).trans hq'.par.layoutGeneration.symm
  resGeneration := (hq.resGeneration.trans h.resGeneration).trans hq'.res.layoutGeneration.symm
  boundParLayout := (hq.boundParLayout.trans h.boundParLayout).trans hq'.boundParLayout.symm
  boundResLayout := (hq.boundResLayout.trans h.boundResLayout).trans hq'.boundResLayout.symm

/-- The answers are alike just if the call finds what it must; then both sides stay coupled. -/
def Alike (l : LifeCall × Bool × Bool) (s s' : Twins ps rs) : Prop :=
  (Agree l s' ↔ AnswersAlike s l.1) ∧ (Agree l s' → Coupled s')

theorem step_setParams (h : Coupled s) {ok ok' : Bool} {rows : ℕ}
    (hst : (twins F G selects ps rs).step s (.setParams rows, ok, ok') s') :
    Alike (.setParams rows, ok, ok') s s' := by
  obtain ⟨a, b⟩ := s
  obtain ⟨a', b'⟩ := s'
  obtain ⟨hpsql, hdb2⟩ : Psql.QuerySession.Step F selects a (.setParams rows, ok) a' ∧
    Db2.Statement.Step G selects b (.setParams rows, ok') b' := hst
  have hprepared : a.query.prepared = b.query.isPrepared := h.prepared
  cases hpsql with
  | setParams rows hp =>
    cases hdb2 with
    | setParams t rows hp' =>
      refine ⟨iff_of_true ⟨rfl, hprepared⟩ trivial, fun _ => ?_⟩
      refine ⟨?_, h.hasR, h.prepared, congrArg (· + 1) h.parGeneration, h.resGeneration,
        h.boundParLayout, h.boundResLayout⟩
      exact (Psql.hasP_setBufferSize ..).trans h.hasP

theorem step_setResults (h : Coupled s) {ok ok' : Bool} {rows : ℕ}
    (hst : (twins F G selects ps rs).step s (.setResults rows, ok, ok') s') :
    Alike (.setResults rows, ok, ok') s s' := by
  obtain ⟨a, b⟩ := s
  obtain ⟨a', b'⟩ := s'
  obtain ⟨hpsql, hdb2⟩ : Psql.QuerySession.Step F selects a (.setResults rows, ok) a' ∧
    Db2.Statement.Step G selects b (.setResults rows, ok') b' := hst
  have hprepared : a.query.prepared = b.query.isPrepared := h.prepared
  cases hpsql with
  | setResults rows hr =>
    cases hdb2 with
    | setResults t rows hr' =>
      refine ⟨iff_of_true ⟨rfl, hprepared⟩ trivial, fun _ => ?_⟩
      refine ⟨h.hasP, ?_, h.prepared, h.parGeneration, congrArg (· + 1) h.resGeneration,
        h.boundParLayout, h.boundResLayout⟩
      exact (Psql.hasR_setBufferSize ..).trans h.hasR

/-- Both sides prepare a statement that is not prepared; one that is, the server refuses. -/
theorem step_prepare (h : Coupled s) (hi : s.1.Inv) {ok ok' : Bool}
    (hst : (twins F G selects ps rs).step s (.prepare, ok, ok') s') :
    Alike (.prepare, ok, ok') s s' := by
  obtain ⟨a, b⟩ := s
  obtain ⟨a', b'⟩ := s'
  obtain ⟨hpsql, hdb2⟩ : Psql.QuerySession.Step F selects a (.prepare, ok) a' ∧
    Db2.Statement.Step G selects b (.prepare, ok') b' := hst
  have hprepared : a.query.prepared = b.query.isPrepared := h.prepared
  cases hpsql with
  | prepare pq ha =>
    cases hdb2 with
    | prepare d ha' =>
      have hok := Db2.Statement.prepare_ok ha'
      cases hb : b.query.isPrepared with
      | false =>
        -- The name is new to the server: both are prepared, with the same numbers of resizes.
        have hnamed : a.named = false := (hi.named.trans hprepared).trans hb
        have hagree : Agree (.prepare, (a.query.prepare pq).1.isOk, (b.query.prepare d).result.isOk)
            (⟨(a.query.prepare pq).2, a.named || (a.query.prepare pq).1.isOk⟩,
              ⟨(b.query.prepare d).query, false, b.query.res.bufferSize⟩) := by
          refine ⟨?_, ?_⟩
          · rw [ha.prepare_eq hnamed, hok]
            rfl
          · rw [ha.prepare_eq hnamed, (b.query.prepare_ok d hok).1, b.query.binding_eq]
            rfl
        refine ⟨iff_of_true hagree hb, fun hagree => ?_⟩
        rw [ha.prepare_eq hnamed] at hagree ⊢
        obtain ⟨hpar, hres⟩ := b.query.samePlaces_prepare d
        refine ⟨h.hasP, h.hasR, hagree.2, ?_, ?_, ?_, ?_⟩
        · exact h.parGeneration.trans hpar.layoutGeneration.symm
        · exact h.resGeneration.trans hres.layoutGeneration.symm
        · rw [(b.query.bound_prepare d hok).1, ← h.hasP, ← h.parGeneration, ← h.boundParLayout]
        · rw [(b.query.bound_prepare d hok).2, ← h.hasR, ← h.resGeneration, ← h.boundResLayout]
      | true =>
        -- The server refuses the name, and the driver prepares a new handle.
        have hnamed : a.named = true := (hi.named.trans hprepared).trans hb
        have hno : ¬Agree (.prepare, (a.query.prepare pq).1.isOk, (b.query.prepare d).result.isOk)
            (⟨(a.query.prepare pq).2, a.named || (a.query.prepare pq).1.isOk⟩,
              ⟨(b.query.prepare d).query, false, b.query.res.bufferSize⟩) := by
          intro hagree
          have hsame := hagree.1
          rw [hok] at hsame
          have hfree := (Psql.QuerySession.isOk_prepare ha).1 hsame
          exact Bool.false_ne_true (hfree.symm.trans hnamed)
        refine ⟨iff_of_false hno fun hfree => ?_, fun hagree => absurd hagree hno⟩
        exact Bool.false_ne_true (hfree.symm.trans hb)

/-- An open cursor keeps only one of them from executing. -/
theorem step_execute (h : Coupled s) (hi : s.1.Inv) {ok ok' : Bool}
    (hst : (twins F G selects ps rs).step s (.execute, ok, ok') s') :
    Alike (.execute, ok, ok') s s' := by
  obtain ⟨a, b⟩ := s
  obtain ⟨a', b'⟩ := s'
  obtain ⟨hpsql, hdb2⟩ : Psql.QuerySession.Step F selects a (.execute, ok) a' ∧
    Db2.Statement.Step G selects b (.execute, ok') b' := hst
  have hlayout := h.checkLayout_iff
  have hprepared : a.query.prepared = b.query.isPrepared := h.prepared
  cases hpsql with
  | execute pq ha =>
    cases hdb2 with
    | execute d ha' =>
      have hleft : Psql.SamePrepared a.query (a.query.execute F pq).2 :=
        Psql.samePrepared_execute
      have hstmt : (b.query.execute d).query.isPrepared = b.query.isPrepared :=
        congrArg Option.isSome (b.query.stmt_execute d)
      have hsame := (hleft.prepared.trans hprepared).trans hstmt.symm
      refine ⟨?_, fun _ => h.of_same hleft (b.query.sameLayout_execute d) hsame⟩
      refine (and_iff_left hsame).trans ?_
      rw [Bool.eq_iff_iff, Psql.QuerySession.isOk_execute ha hi, Db2.Statement.isOk_execute ha',
        hprepared, hlayout, AnswersAlike]
      refine ⟨fun h hp hl => (h.1 ⟨hp, hl⟩).2.2, fun h => ⟨fun ⟨hp, hl⟩ => ?_, fun h' => ?_⟩⟩
      · exact ⟨hp, hl, h hp hl⟩
      · exact ⟨h'.1, h'.2.1⟩

theorem step_fetch (h : Coupled s) (hi : s.1.Inv) {ok ok' : Bool} {reported : ℕ}
    (hst : (twins F G selects ps rs).step s (.fetch reported, ok, ok') s') :
    Alike (.fetch reported, ok, ok') s s' := by
  obtain ⟨a, b⟩ := s
  obtain ⟨a', b'⟩ := s'
  obtain ⟨hpsql, hdb2⟩ : Psql.QuerySession.Step F selects a (.fetch reported, ok) a' ∧
    Db2.Statement.Step G selects b (.fetch reported, ok') b' := hst
  have hlayout := h.checkLayout_iff
  have hprepared : a.query.prepared = b.query.isPrepared := h.prepared
  cases hpsql with
  | fetch reported =>
    cases hdb2 with
    | fetch d ha' =>
      have hleft := Psql.samePrepared_fetch (F := F) (q := a.query)
      have hstmt : (b.query.fetch d).query.isPrepared = b.query.isPrepared :=
        congrArg Option.isSome (b.query.stmt_fetch d)
      have hsame := (hleft.prepared.trans hprepared).trans hstmt.symm
      refine ⟨?_, fun _ => h.of_same hleft (b.query.sameLayout_fetch d) hsame⟩
      refine (and_iff_left hsame).trans ?_
      rw [Bool.eq_iff_iff, Psql.isOk_fetch, Db2.Statement.isOk_fetch ha', hlayout, h.hasR,
        AnswersAlike]
      -- A statement that is not prepared has no rows.
      have hrows : a.query.rows.isSome → b.query.isPrepared := by
        intro hsome
        rw [← hprepared]
        by_contra hp
        rw [hi.rows (Bool.eq_false_of_not_eq_true hp)] at hsome
        cases hsome
      cases b.query.hasR with
      | true =>
        simp only [Bool.true_eq_false, false_or, forall_const, if_true]
        refine ⟨fun h hp hl => ⟨fun hr => ?_, fun hc => ?_⟩, fun h => ⟨fun ⟨hl, hr⟩ => ?_,
          fun ⟨hp, hl, hc⟩ => ?_⟩⟩
        · exact (h.1 ⟨hl, hr⟩).2.2
        · exact (h.2 ⟨hp, hl, hc⟩).2
        · exact ⟨hrows hr, hl, (h (hrows hr) hl).1 hr⟩
        · exact ⟨hl, (h hp hl).2 hc⟩
      | false => simp

theorem step_reset (h : Coupled s) {ok ok' : Bool}
    (hst : (twins F G selects ps rs).step s (.reset, ok, ok') s') :
    Alike (.reset, ok, ok') s s' := by
  obtain ⟨a, b⟩ := s
  obtain ⟨a', b'⟩ := s'
  obtain ⟨hpsql, hdb2⟩ : Psql.QuerySession.Step F selects a (.reset, ok) a' ∧
    Db2.Statement.Step G selects b (.reset, ok') b' := hst
  have hprepared : a.query.prepared = b.query.isPrepared := h.prepared
  cases hpsql with
  | reset =>
    cases hdb2 with
    | reset =>
      refine ⟨(and_iff_right rfl).trans ?_, fun hagree => ?_⟩
      · exact (congrArg (· = false) hprepared).to_iff
      · exact h.of_same Psql.samePrepared_reset b.query.sameLayout_reset hagree.2

/-- A call answers alike, and leaves both sides prepared or not, just if it finds what it must;
    then they stay coupled. -/
theorem step (h : Coupled s) (hi : s.1.Inv) (hst : (twins F G selects ps rs).step s l s') :
    (Agree l s' ↔ AnswersAlike s l.1) ∧ (Agree l s' → Coupled s') := by
  obtain ⟨call, ok, ok'⟩ := l
  cases call with
  | setParams rows => exact h.step_setParams hst
  | setResults rows => exact h.step_setResults hst
  | prepare => exact h.step_prepare hi hst
  | execute => exact h.step_execute hi hst
  | fetch reported => exact h.step_fetch hi hst
  | reset => exact h.step_reset hst

end Coupled

theorem coupled (h : ((twins F G selects ps rs).restrict fun s l => AnswersAlike s l.1).Run tr s) :
    Coupled s := by
  induction h with
  | init hs =>
    obtain ⟨⟨_, _, _, _, _, _, hpsql⟩, ⟨_, _, _, _, hdb2⟩, hp, hr⟩ := hs
    rw [hpsql, hdb2] at hp hr
    refine ⟨?_, ?_, ?_, ?_, ?_, ?_, ?_⟩ <;> rw [hpsql, hdb2]
    · exact hp
    · exact hr
    all_goals rfl
  | step hr hst ih =>
    obtain ⟨hagree, hcoupled⟩ := ih.step (Psql.QuerySession.inv hr.of_restrict.fst) hst.1
    exact hcoupled (hagree.2 hst.2)

/-- **The two runtimes agree** after each call, on whether it returned a value and on whether the
    statement is prepared, in every run whose calls find what they must. After such a run, they
    agree after a further call just if it does. -/
theorem twins_agree
    (h : ((twins F G selects ps rs).restrict fun s l => AnswersAlike s l.1).Run tr s) :
    (∀ l ∈ tr, l.2.1 = l.2.2) ∧ s.1.query.prepared = s.2.query.isPrepared ∧
    ∀ l s', (twins F G selects ps rs).step s l s' → (Agree l s' ↔ AnswersAlike s l.1) := by
  refine ⟨?_, (coupled h).prepared, fun l s' hst => ?_⟩
  · induction h with
    | init => exact fun _ hl => by cases hl
    | step hr hst ih =>
      have hstep := (coupled hr).step (Psql.QuerySession.inv hr.of_restrict.fst) hst.1
      intro l hl
      rcases List.mem_cons.1 hl with rfl | hl
      · exact (hstep.1.2 hst.2).1
      · exact ih l hl
  · exact ((coupled h).step (Psql.QuerySession.inv h.of_restrict.fst) hst).1

/-! ### One query of amounts -/

/-- A server with one amount, whose session has the statement name or not. -/
def amountServer (named : Bool) : Psql.Libpq where
  prepare _ _ _ := some ⟨if named then .fatalError else .commandOk, [], [],
    if named then "ERROR:  prepared statement already exists" else "",
    if named then some "42P05" else none⟩
  execPrepared _ _ := some ⟨.tuplesOk, [Psql.seven], [], "", none⟩
  sendQueryPrepared _ := true
  getResult _ _ _ := some ⟨.tuplesOk, [Psql.seven], [], "", none⟩

theorem answers_amountServer (s : Psql.QuerySession) : s.Answers true (amountServer s.named) where
  prepare _ := by cases hs : s.named <;> simp [amountServer, Psql.resultStatus]
  execPrepared _ _ := rfl
  enterPipelineMode := rfl
  sendQueryPrepared _ := rfl
  getResult _ _ _ := rfl

/-- A driver with one amount, with a cursor open or not. -/
def amountDriver (cursor : Bool) : Db2.Driver where
  execute := if cursor then Db2.sqlError else 0
  fetchScroll := if cursor then 0 else Db2.sqlError
  rowsFetched := if cursor then 1 else 0

theorem answers_amountDriver (s : Db2.Statement ps rs) (h : s.cursor → 1 ≤ s.rowArraySize) :
    s.Answers (amountDriver s.cursor) := by
  cases hs : s.cursor with
  | false => exact ⟨rfl, rfl, fun _ => rfl, fun _ => rfl, by rw [hs]; decide, by rw [hs]; decide,
      Nat.zero_le _, by decide⟩
  | true => exact ⟨rfl, rfl, fun _ => rfl, fun _ => rfl, by rw [hs]; decide, by rw [hs]; decide,
      h hs, by decide⟩

/-- Both runtimes of a query of amounts. -/
def amounts : Lts (Twins [] [Psql.amount]) (LifeCall × Bool × Bool) :=
  twins Psql.noFloats .exact true [] [Psql.amount]

/-- New queries. -/
def newAmounts : Twins [] [Psql.amount] :=
  (⟨.make "select amount from t" "dbgen4_0" (.make [] 1) (.make [Psql.amount] 1), false⟩,
    ⟨.make .exact 0 [] [Psql.amount] "select amount from t" 1 1, false, 0⟩)

theorem newAmounts_init : newAmounts ∈ amounts.init :=
  ⟨⟨_, _, [], [Psql.amount], 1, 1, rfl⟩, ⟨0, _, 1, 1, rfl⟩, rfl, rfl⟩

/-- Both are prepared, executed and fetched from. -/
theorem twins_agree_fetched : ∃ s, (amounts.restrict fun s l => AnswersAlike s l.1).Run
      [(.fetch 1, true, true), (.execute, true, true), (.prepare, true, true)] s ∧
    s.1.query.prepared = true ∧ s.1.query.prepared = s.2.query.isPrepared := by
  have h := Lts.Run.step (A := amounts.restrict fun s l => AnswersAlike s l.1)
    (.init newAmounts_init) ⟨twins_step (.prepare _ _ (answers_amountServer _))
      (.prepare _ _ (answers_amountDriver _ fun h => by cases h)), rfl⟩
  have h := h.step ⟨twins_step (.execute _ _ (answers_amountServer _))
    (.execute _ _ (answers_amountDriver _ fun h => by cases h)), fun _ _ => rfl⟩
  have h := h.step ⟨twins_step (.fetch _ 1)
    (.fetch _ _ (answers_amountDriver _ fun _ => Nat.le_refl 1)),
    fun _ _ => iff_of_true rfl ⟨rfl, Nat.le_refl 1⟩⟩
  exact ⟨_, h, rfl, (twins_agree h).2.1⟩

/-- Prepared again, as the error after a resize demands, one runtime returns an error and the
    other one a value; after a reset only one is prepared. -/
theorem not_twins_agree :
    (∃ s, amounts.Run
      [(.prepare, false, true), (.setResults 10, true, true), (.prepare, true, true)] s) ∧
    ∃ s, amounts.Run [(.reset, true, true), (.prepare, true, true)] s ∧
      s.1.query.prepared = true ∧ s.2.query.isPrepared = false := by
  have h := Lts.Run.step (A := amounts) (.init newAmounts_init)
    (twins_step (.prepare _ _ (answers_amountServer _))
      (.prepare _ _ (answers_amountDriver _ fun h => by cases h)))
  have hresized := h.step (twins_step (.setResults _ 10 rfl) (.setResults _ 2 10 rfl))
  have hagain := hresized.step (twins_step (.prepare _ _ (answers_amountServer _))
    (.prepare _ _ (answers_amountDriver _ fun h => by cases h)))
  exact ⟨⟨_, hagain⟩, _, h.step (twins_step (.reset _) (.reset _)), rfl, rfl⟩

end Dbgen4
