import Dbgen4.Psql.Fetch

/-!
# A result set, window by window

`execute` keeps the result of a statement whole, and each `fetch` copies as many of its
rows into the buffer as the buffer has. So the fetches that follow an execute walk through
the result set in its order, a window at a time, and at its end there is nothing to fetch
until the next execute (`walks_of_execute`).
-/

namespace Dbgen4.Psql

open Rtl

variable {F : FloatText} {tr : List Event} {q q' : Query} {b next : ℕ} {rows : List Row}

namespace Query

/-- The result set of the last execute: a command has no rows, and a batch leaves none. -/
def resultSet (q : Query) : Option (List Row) :=
  q.rows.map fun res => if res.status = .tuplesOk then res.tuples else []

/-- The query after `k` more calls of `fetch`. -/
def fetches (F : FloatText) : ℕ → Query → Query
  | 0, q => q
  | k + 1, q => ((fetches F k q).fetch F).2

/-- A buffer of `b` rows, and the first `next` of the rows of the result set have been
    fetched. -/
structure Stands (q : Query) (b : ℕ) (rows : List Row) (next : ℕ) : Prop where
  hasR : q.hasR
  layout : q.checkLayout = .ok ()
  size : q.res.rows = b
  resultSet : q.resultSet = some rows
  total : q.cursor.total = rows.length
  next : q.cursor.next = next

/-- The fetches walk through the rows: the `k`th delivers the `k`th window of `b` rows, of those
    that there are, and says whether it has delivered any; the rows it delivers are those in the
    buffer. -/
structure Walks (F : FloatText) (q : Query) (b : ℕ) (rows : List Row) : Prop where
  pos : 1 ≤ b
  fetch : ∀ k, ((q.fetches F k).fetch F).1 = .ok (decide (k * b < rows.length))
  delivered : ∀ k, (q.fetches F k).delivered = (rows.drop (k * b)).take b
  occupied : ∀ k, (q.fetches F (k + 1)).res.occupied = min b (rows.length - k * b)
  stored : ∀ k r row, ((rows.drop (k * b)).take b)[r]? = some row → ∀ c d old,
    (q.fetches F k).res.cell c r = some ⟨d, old⟩ →
    (q.fetches F (k + 1)).res.cell c r = some ⟨d, fetchCell F d (row.field c) old⟩
  once : ∀ k, (List.range k).flatMap (fun i => (q.fetches F i).delivered) = rows.take (k * b)

end Query

open Query

/-! ## One fetch -/

/-- The window of the cursor. -/
theorem Query.Stands.window_eq (h : q.Stands b rows next) {res : PGresult}
    (hres : q.rows = some res) : q.window res = (rows.drop next).take b := by
  have hrows := h.resultSet
  rw [Query.resultSet, hres, Option.map_some, Option.some_inj] at hrows
  refine List.ext_getElem? fun r => ?_
  rw [window, List.getElem?_map, count, h.total, h.next, h.size, List.getElem?_take,
    List.getElem?_drop]
  by_cases hr : r < min (rows.length - next) b
  · rw [List.getElem?_range hr, if_pos (by omega)]
    -- A result with rows to deliver is one of tuples.
    have hlt : next + r < rows.length := by omega
    split at hrows
    · subst hrows
      rw [Option.map_some, List.getElem?_eq_getElem hlt]
      rfl
    · rw [← hrows] at hlt
      cases hlt
  · rw [List.getElem?_eq_none (by rw [List.length_range]; omega), Option.map_none]
    split
    · rw [List.getElem?_eq_none (by omega)]
    · rfl

theorem Query.Stands.exists_rows (h : q.Stands b rows next) : ∃ res, q.rows = some res := by
  obtain ⟨res, hres, -⟩ := Option.map_eq_some_iff.1 h.resultSet
  exact ⟨res, hres⟩

theorem Query.Stands.delivered_eq (h : q.Stands b rows next) :
    q.delivered = (rows.drop next).take b := by
  obtain ⟨res, hres⟩ := h.exists_rows
  rw [delivered, if_neg (by rw [h.hasR]; simp), h.layout, hres]
  exact h.window_eq hres

/-- What a fetch returns and makes of the query, where there is a result set to fetch from. -/
theorem Query.Stands.fetch_eq (h : q.Stands b rows next) {res : PGresult}
    (hres : q.rows = some res) : q.fetch F = (.ok (decide (0 < q.count)), { q with
      res := ⟨fetchRows F (q.window res) 0 q.res.toBuffer, q.count⟩
      cursor := q.cursor.advance q.count (Nat.min_le_left _ _)
      rowsFetched := q.count }) := by
  rw [fetch, if_neg (by rw [h.hasR]; simp), h.layout]
  dsimp only
  split
  · rename_i hnone
    cases hnone.symm.trans hres
  · rename_i res' hres'
    obtain rfl := Option.some.inj (hres'.symm.trans hres)
    rfl

/-- **One fetch** moves on by a window. -/
theorem Query.Stands.after_fetch (F : FloatText) (h : q.Stands b rows next) :
    (q.fetch F).2.Stands b rows (min (next + b) rows.length) := by
  obtain ⟨res, hres⟩ := h.exists_rows
  have hle := q.cursor.next_le
  have hr : (q.fetch F).2.hasR := by
    rw [Query.hasR, isEmpty_columns, res_fetch, dscrs_fetchRows, ← isEmpty_columns]
    exact h.hasR
  rw [h.fetch_eq hres] at hr ⊢
  exact {
    hasR := hr
    layout := by
      have hlayout := h.layout
      rw [checkLayout, h.hasR] at hlayout
      rw [checkLayout, hr]
      dsimp only
      rw [layoutGeneration_fetchRows]
      exact hlayout
    size := (rows_fetchRows _ _ _).trans h.size
    resultSet := h.resultSet
    total := h.total
    next := by
      rw [h.total, h.next] at hle
      dsimp only [Cursor.advance]
      rw [count, h.total, h.next, h.size]
      omega }

/-! ## Whole walks -/

theorem stands_fetches (h : q.Stands b rows 0) (k : ℕ) :
    (q.fetches F k).Stands b rows (min (k * b) rows.length) := by
  induction k with
  | zero => rwa [Nat.zero_mul, Nat.zero_min]
  | succ k ih =>
    have := ih.after_fetch F
    rwa [show min (min (k * b) rows.length + b) rows.length = min ((k + 1) * b) rows.length by
      rw [Nat.succ_mul]; omega] at this

/-- Beyond the end there is nothing, wherever the cursor is. -/
theorem drop_min_length (rows : List Row) (n : ℕ) :
    rows.drop (min n rows.length) = rows.drop n := by
  rcases Nat.le_total n rows.length with h | h
  · rw [Nat.min_eq_left h]
  · rw [Nat.min_eq_right h, List.drop_length, List.drop_eq_nil_of_le h]

theorem delivered_fetches (h : q.Stands b rows 0) (k : ℕ) :
    (q.fetches F k).delivered = (rows.drop (k * b)).take b := by
  rw [(stands_fetches h k).delivered_eq, drop_min_length]

theorem Query.Stands.walks (h : q.Stands b rows 0) (hb : 1 ≤ b) : q.Walks F b rows where
  pos := hb
  fetch k := by
    have hk := stands_fetches (F := F) h k
    obtain ⟨res, hres⟩ := hk.exists_rows
    rw [hk.fetch_eq hres]
    refine congrArg Except.ok (decide_eq_decide.2 ?_)
    rw [count, hk.total, hk.next, hk.size]
    omega
  delivered := delivered_fetches h
  occupied k := by
    have hk := stands_fetches (F := F) h k
    obtain ⟨res, hres⟩ := hk.exists_rows
    rw [fetches, hk.fetch_eq hres]
    dsimp only
    rw [count, hk.total, hk.next, hk.size]
    omega
  stored k r row hrow c d old hold := by
    rw [fetches, res_fetch, cell_fetchRows, hold, delivered_fetches h k, Option.map_some,
      if_neg (Nat.not_lt_zero r), Nat.sub_zero, hrow]
  once k := by
    induction k with
    | zero => rw [Nat.zero_mul]; rfl
    | succ k ih =>
      rw [List.range_succ, List.flatMap_append, ih, List.flatMap_cons, List.flatMap_nil,
        List.append_nil, delivered_fetches h k, Nat.succ_mul, List.take_add]

/-! ## After an execute -/

/-- A buffer has a row at least. -/
theorem one_le_rows (h : (query F).Run tr q) : 1 ≤ q.res.rows := by
  refine h.invariant (I := fun _ q => 1 ≤ q.res.rows) ?_ ?_
  · rintro _ ⟨sql, stmtName, par, res, parRows, resRows, rfl⟩
    show 1 ≤ if resRows = 0 then 1 else resRows
    split <;> omega
  · intro tr q e q' _ hq hst
    cases hst with
    | prepare pq => rwa [res_prepare]
    | execute pq => rwa [res_execute]
    | fetch => rwa [res_fetch, rows_fetchRows]
    | reset => exact hq
    | resize rows =>
      show 1 ≤ if rows = 0 then 1 else rows
      split <;> omega
    | write par h => exact hq

/-- What a successful execute that leaves a result set makes of the query. -/
theorem stands_of_execute {pq : Libpq} (hr : q.hasR) (h : q.execute F pq = (.ok (), q'))
    (hrows : q'.resultSet = some rows) : q'.Stands q.res.rows rows 0 := by
  rw [execute] at h
  split at h
  · cases h
  · split at h
    · cases h
    · rename_i hlayout
      split at h
      · -- A batch that succeeds leaves no result set.
        rw [executeBatch] at h
        split at h
        · cases h
        · dsimp only at h
          split at h
          · cases h
          · split at h
            · cases h
            · cases h
              cases hrows
      · split at h
        · cases h
        · rename_i res _
          split at h
          · cases h
          · cases h
            rw [resultSet, Option.map_some, Option.some_inj] at hrows
            exact {
              hasR := hr
              layout := hlayout
              size := rfl
              resultSet := congrArg some hrows
              total := by
                rw [← hrows]
                dsimp only
                split <;> rfl
              next := rfl }

/-- A batch leaves no result set, and the next fetch says so. -/
theorem fetch_of_resultSet_none (hr : q.hasR) (hlayout : q.checkLayout = .ok ())
    (hnone : q.resultSet = none) :
    q.fetch F = (.error ⟨"no result set - execute first", "", .fatalError⟩, q) := by
  rw [fetch, if_neg (by rw [hr]; simp), hlayout, Option.map_eq_none_iff.1 hnone]

/-- **Windowed fetch**: after an execute, whatever was called before, the fetches walk through its
    result set. -/
theorem walks_of_execute (hrun : (query F).Run tr q) (pq : Libpq) (hr : q.hasR)
    (h : q.execute F pq = (.ok (), q')) (hrows : q'.resultSet = some rows) :
    q'.Walks F q.res.rows rows :=
  (stands_of_execute hr h hrows).walks (one_le_rows hrun)

/-- A query for the amounts of a table, with a buffer of two rows. -/
def inPairs (rows : List Row) : Query :=
  ((Query.make "select amount from t order by id" "dbgen4_0" (Buffer.make [] 1)
    (Buffer.make [amount] 2)).prepare (table rows)).2

/-- Three rows, in windows of two. -/
theorem walks_inPairs :
    ((inPairs [seven, [none], seven]).execute noFloats (table [seven, [none], seven])).2.Walks
      noFloats 2 [seven, [none], seven] :=
  walks_of_execute (.step (.init ⟨_, _, [], [amount], 1, 2, rfl⟩) (.prepare _ (table _)))
    (table [seven, [none], seven]) rfl rfl rfl

end Dbgen4.Psql
