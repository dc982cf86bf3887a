import Dbgen4.Psql.Query

/-!
# What a fetch says is NULL

`fetch` marks a cell NULL when the server value is NULL or cannot be converted.
Whether it takes the mark away again depends on the category of the column: the
strings write their length into the indicator, the atomic types and the
structures leave it alone. So a cell of these, once NULL, stays NULL until the
buffer is resized (`isNull_iff_leftNull`), and a fetch reports NULLs exactly as
long as it delivers no value there (`nullsExact_iff`).
-/

namespace Dbgen4.Psql

open Rtl

variable {F : FloatText} {tr : List Event} {q q' : Query}

/-! ## One cell -/

/-- The text can be converted to a value of the column. -/
def convertible (F : FloatText) (d : BufferDscr) (text : Text) : Bool :=
  match d.category with
  | .atomic => (storeAtomic F d.type text).isSome
  | .cString => true
  | .bString => true
  | .struct => (storeStructure d.type text).isSome
  | .wString => false

/-- The server value is NULL or could not be converted. -/
def isNullOrBad (F : FloatText) (d : BufferDscr) : Option Field → Bool
  | none => true
  | some text => !convertible F d text.1

/-- Storing a value in a column of this category leaves the indicator alone. -/
def keepsIndicator : SqlCat → Bool
  | .atomic | .struct => true
  | _ => false

theorem storeValue_eq_none_iff {d : BufferDscr} (cell : d.Cell) (text : Text) :
    storeValue F d cell text = none ↔ convertible F d text = false := by
  obtain ⟨name, cat, t, size, hcat⟩ := d
  cases cat <;> simp [storeValue, storeCell, convertible]

theorem length_hexPairs_le (capacity : ℕ) (t : Text) : (hexPairs capacity t).length ≤ t.length := by
  fun_induction hexPairs capacity t with
  | case1 capacity c d t b hb ih => simp only [List.length_cons]; omega
  | case2 => simp
  | case3 => simp

theorem length_decodeBytea_le (t : Text) (capacity : ℕ) :
    (decodeBytea t capacity).length ≤ t.length := by
  rw [decodeBytea.eq_def]
  split
  · split
    · refine (length_hexPairs_le _ _).trans ?_
      simp only [List.length_cons]
      omega
    · exact length_hexPairs_le _ _
  · exact length_hexPairs_le _ _

/-- What a cell says after a value was stored in it. -/
theorem isNull_of_storeValue {d : BufferDscr} {cell new : d.Cell} {text : Field}
    (h : storeValue F d cell text.1 = some new) :
    new.isNull = (keepsIndicator d.category && cell.isNull) := by
  obtain ⟨name, cat, t, size, hcat⟩ := d
  cases cat with
  | atomic | struct =>
    obtain ⟨v, _, rfl⟩ := Option.map_eq_some_iff.1 h
    rfl
  | cString =>
    obtain rfl := Option.some.inj h
    refine beq_false_of_ne (nullData_ne_ofNat ?_)
    exact (Nat.min_le_left _ _).trans_lt text.2
  | bString =>
    obtain rfl := Option.some.inj h
    refine beq_false_of_ne (nullData_ne_ofNat ?_)
    exact (length_decodeBytea_le _ _).trans_lt text.2
  | wString => cases h

/-- **One cell.** After `fetch` it says NULL if the server value is NULL or bad, and also if
    it said so before and its column keeps the indicator. -/
theorem isNull_fetchCell (d : BufferDscr) (field : Option Field) (cell : d.Cell) :
    (Query.fetchCell F d field cell).isNull =
      (isNullOrBad F d field || (keepsIndicator d.category && cell.isNull)) := by
  cases field with
  | none => rfl
  | some text =>
    cases hs : storeValue F d cell text.1 with
    | none =>
      have hbad := (storeValue_eq_none_iff cell text.1).1 hs
      simp [Query.fetchCell, hs, isNullOrBad, hbad, Cell.isNull]
    | some new =>
      have hgood : convertible F d text.1 = true := by
        by_contra hbad
        rw [(storeValue_eq_none_iff cell text.1).2 (Bool.eq_false_of_not_eq_true hbad)] at hs
        cases hs
      simp [Query.fetchCell, hs, isNullOrBad, hgood, isNull_of_storeValue hs]

/-! ## The loops -/

/-- One row changed in every column. -/
theorem cellAt_modify {rows : ℕ} (cols : List (Column rows)) (row : Row) (r₀ c r : ℕ) :
    Column.cellAt (cols.mapIdx fun c col =>
        col.modify r₀ (Query.fetchCell F col.dscr (row.field c))) c r =
      (Column.cellAt cols c r).map fun x =>
        if r = r₀ then ⟨x.1, Query.fetchCell F x.1 (row.field c) x.2⟩ else x := by
  rw [Column.cellAt, Column.cellAt, List.getElem?_mapIdx]
  cases cols[c]? with
  | none => rfl
  | some col =>
    by_cases hr : r < rows
    · by_cases hr₀ : r = r₀
      · subst hr₀
        simp [Column.modify, hr]
      · simp [Column.modify, hr, hr₀]
    · simp [Column.modify, hr]

/-- The inner loop writes one row. -/
theorem cell_fetchRow (row : Row) (r₀ : ℕ) (b : Buffer) (c r : ℕ) :
    (Query.fetchRow F row r₀ b).cell c r = (b.cell c r).map fun x =>
      if r = r₀ then ⟨x.1, Query.fetchCell F x.1 (row.field c) x.2⟩ else x :=
  cellAt_modify b.columns row r₀ c r

/-- The outer loop writes the rows of the window, from `r₀` on. -/
theorem cell_fetchRows (window : List Row) (r₀ : ℕ) (b : Buffer) (c r : ℕ) :
    (Query.fetchRows F window r₀ b).cell c r = (b.cell c r).map fun x =>
      if r < r₀ then x
      else match window[r - r₀]? with
        | some row => ⟨x.1, Query.fetchCell F x.1 (row.field c) x.2⟩
        | none => x := by
  induction window generalizing r₀ b with
  | nil =>
    rw [Query.fetchRows]
    cases b.cell c r <;> simp
  | cons row window ih =>
    rw [Query.fetchRows, ih, cell_fetchRow]
    cases b.cell c r with
    | none => rfl
    | some x =>
      -- Row `r₀` is the one that is written first; the others are up to the rest of the loop.
      rcases Nat.lt_trichotomy r r₀ with h | h | h
      · simp [h, Nat.lt_succ_of_lt h, Nat.ne_of_lt h]
      · subst h
        simp
      · obtain ⟨k, rfl⟩ := Nat.exists_eq_add_of_lt h
        have hlt : ¬r₀ + k + 1 < r₀ + 1 := by omega
        have hne : r₀ + k + 1 ≠ r₀ := by omega
        have hsub : r₀ + k + 1 - r₀ = k + 1 := by omega
        have hsub' : r₀ + k + 1 - (r₀ + 1) = k := by omega
        simp [hlt, hne, hsub, hsub', Nat.not_lt_of_lt h]

/-- **The loops.** What a cell of the buffer says after them. -/
theorem isNull_fetchRows (window : List Row) {b : Buffer} {c : ℕ} {d : BufferDscr}
    (hd : b.dscrs[c]? = some d) (r : ℕ) :
    (Query.fetchRows F window 0 b).isNull c r = (b.isNull c r).map fun old =>
      match window[r]? with
      | some row => isNullOrBad F d (row.field c) || (keepsIndicator d.category && old)
      | none => old := by
  rw [Buffer.isNull, Buffer.isNull, cell_fetchRows]
  cases hcell : b.cell c r with
  | none => rfl
  | some x =>
    obtain rfl : x.1 = d := Option.some.inj ((b.dscr_of_cell hcell).symm.trans hd)
    cases window[r]? with
    | none => simp
    | some row => simp [isNull_fetchCell]

@[simp] theorem dscrs_fetchRow (row : Row) (r : ℕ) (b : Buffer) :
    (Query.fetchRow F row r b).dscrs = b.dscrs := by
  refine List.ext_getElem? fun c => ?_
  simp only [Query.fetchRow, Buffer.dscrs, List.getElem?_map, List.getElem?_mapIdx, Option.map_map]
  rfl

@[simp] theorem dscrs_fetchRows (window : List Row) (r : ℕ) (b : Buffer) :
    (Query.fetchRows F window r b).dscrs = b.dscrs := by
  induction window generalizing r b with
  | nil => rfl
  | cons row window ih => rw [Query.fetchRows, ih, dscrs_fetchRow]

@[simp] theorem rows_fetchRows (window : List Row) (r : ℕ) (b : Buffer) :
    (Query.fetchRows F window r b).rows = b.rows := by
  induction window generalizing r b with
  | nil => rfl
  | cons row window ih => rw [Query.fetchRows, ih, Query.fetchRow]

theorem layoutGeneration_fetchRows (window : List Row) (r : ℕ) (b : Buffer) :
    (Query.fetchRows F window r b).layoutGeneration = b.layoutGeneration := by
  induction window generalizing r b with
  | nil => rfl
  | cons row window ih => rw [Query.fetchRows, ih, Query.fetchRow]

/-- Whether there are columns is told by their descriptions. -/
theorem isEmpty_columns (b : Buffer) : b.columns.isEmpty = b.dscrs.isEmpty := List.isEmpty_map.symm

/-! ## Whole runs -/

/-- Since the buffer was resized last, a fetch has left NULL in row `r` of column `c`. -/
def NullLeft (F : FloatText) (d : BufferDscr) (c r : ℕ) : List Event → Prop
  | [] => False
  | .fetch window :: tr =>
    (∃ row, window[r]? = some row ∧ isNullOrBad F d (row.field c)) ∨ NullLeft F d c r tr
  | .resize :: _ => False
  | .prepare :: tr | .execute :: tr | .reset :: tr | .write :: tr => NullLeft F d c r tr

theorem res_executeBatch (q : Query) (pq : Libpq) : (q.executeBatch F pq).2.res = q.res := by
  rw [Query.executeBatch]
  split
  · rfl
  · dsimp only
    split
    · rfl
    · split <;> rfl

theorem res_execute (q : Query) (pq : Libpq) : (q.execute F pq).2.res = q.res := by
  rw [Query.execute]
  split
  · rfl
  · split
    · rfl
    · split
      · exact res_executeBatch q pq
      · split
        · rfl
        · split <;> rfl

theorem res_prepare (q : Query) (pq : Libpq) : (q.prepare pq).2.res = q.res := by
  rw [Query.prepare]
  split <;> rfl

/-- `fetch` writes the rows it delivers. -/
theorem res_fetch (q : Query) :
    (q.fetch F).2.res.toBuffer = Query.fetchRows F q.delivered 0 q.res.toBuffer := by
  rw [Query.fetch, Query.delivered]
  by_cases hr : ¬q.hasR
  · rw [if_pos hr, if_pos hr]
    rfl
  · rw [if_neg hr, if_neg hr]
    cases q.checkLayout with
    | error e => rfl
    | ok u => cases q.rows <;> rfl

theorem length_delivered_le (q : Query) : q.delivered.length ≤ q.res.rows := by
  rw [Query.delivered]
  split
  · exact Nat.zero_le _
  · split
    · rw [Query.window, List.length_map, List.length_range]
      exact Nat.min_le_right _ _
    · exact Nat.zero_le _

/-- The columns are fixed. -/
theorem Query.Step.dscrs_eq {e : Event} (h : Query.Step F q e q') : q'.res.dscrs = q.res.dscrs := by
  cases h with
  | prepare pq => rw [res_prepare]
  | execute pq => rw [res_execute]
  | fetch => rw [res_fetch, dscrs_fetchRows]
  | reset => rfl
  | resize rows => exact Buffer.dscrs_setBufferSize _ rows
  | write par h => rfl

/-- **NULLs stay.** In every run, a cell of a column that keeps its indicator says NULL if and
    only if a fetch has left NULL there since the buffer was resized. -/
theorem isNull_iff_nullLeft (hr : (query F).Run tr q) {c : ℕ} {d : BufferDscr}
    (hd : q.res.dscrs[c]? = some d) (hk : keepsIndicator d.category) (r : ℕ) :
    q.res.isNull c r = some true ↔ NullLeft F d c r tr := by
  induction hr with
  | init hi =>
    obtain ⟨sql, stmtName, par, res, parRows, resRows, rfl⟩ := hi
    exact iff_of_false (Buffer.isNull_setBufferSize _ resRows c r) id
  | @step tr q q' e hr hst ih =>
    have hd₀ : q.res.dscrs[c]? = some d := by rwa [← Query.Step.dscrs_eq hst]
    have ih := ih hd₀
    cases hst with
    | prepare pq => rwa [res_prepare]
    | execute pq => rwa [res_execute]
    | reset => exact ih
    | write par h => exact ih
    | resize rows => exact iff_of_false (Buffer.isNull_setBufferSize _ rows c r) id
    | fetch =>
      rw [res_fetch, isNull_fetchRows _ hd₀, NullLeft]
      by_cases hrows : r < q.res.rows
      · obtain ⟨x, hx⟩ := Buffer.cell_isSome _ hd₀ hrows
        have hold : q.res.isNull c r = some x.isNull := congrArg (Option.map _) hx
        rw [hold, Option.some_inj] at ih
        rw [hold, ← ih]
        cases q.delivered[r]? with
        | none => simp
        | some row => simp [hk]
      · -- A row that the buffer does not have is not delivered, nor is it ever NULL.
        have hnone : q.delivered[r]? = none :=
          List.getElem?_eq_none ((length_delivered_le q).trans (Nat.le_of_not_lt hrows))
        rw [Buffer.isNull_eq_none _ _ (Nat.le_of_not_lt hrows)] at ih ⊢
        rw [← ih, hnone]
        simp

/-- The buffer reports NULLs exactly: of every row delivered and every column, it says NULL if
    and only if the server value is NULL or could not be converted. -/
def NullsExact (F : FloatText) (q q' : Query) : Prop :=
  ∀ c d r row, q.res.dscrs[c]? = some d → q.delivered[r]? = some row →
    q'.res.isNull c r = some (isNullOrBad F d (row.field c))

/-- No value is delivered to a cell which keeps its indicator and where a fetch has left
    NULL. -/
def Unmarked (F : FloatText) (tr : List Event) (q : Query) : Prop :=
  ∀ c d r row, q.res.dscrs[c]? = some d → q.delivered[r]? = some row →
    keepsIndicator d.category → isNullOrBad F d (row.field c) = false → ¬NullLeft F d c r tr

/-- **A fetch reports NULLs exactly** if and only if it delivers no value of an atomic type or a
    structure to a cell where an earlier fetch has left NULL. -/
theorem nullsExact_iff (hr : (query F).Run tr q) {more : Bool}
    (hf : q.fetch F = (.ok more, q')) : NullsExact F q q' ↔ Unmarked F tr q := by
  have hres : q'.res.toBuffer = Query.fetchRows F q.delivered 0 q.res.toBuffer := by
    rw [← res_fetch, hf]
  refine forall₄_congr fun c d r row => forall₂_congr fun hd hrow => ?_
  have hlt : r < q.res.rows :=
    (List.getElem?_eq_some_iff.1 hrow).1.trans_le (length_delivered_le q)
  obtain ⟨x, hx⟩ := Buffer.cell_isSome _ hd hlt
  have hold : q.res.isNull c r = some x.isNull := congrArg (Option.map _) hx
  rw [hres, isNull_fetchRows _ hd, hold, hrow, Option.map_some]
  dsimp only
  cases hk : keepsIndicator d.category with
  | false => simp
  | true =>
    have hleft := isNull_iff_nullLeft hr hd hk r
    rw [hold, Option.some_inj] at hleft
    rw [← hleft]
    cases isNullOrBad F d (row.field c) <;> simp

/-! ### Two rows, a window of one -/

/-- A column of integers. -/
def amount : BufferDscr := ⟨"amount", .atomic, .integer, 4, rfl⟩

/-- The number 7. -/
def seven : Row := [some ⟨[ascii '7'], by decide⟩]

/-- A server whose table has these rows. -/
def table (rows : List Row) : Libpq where
  prepare _ _ _ := some ⟨.commandOk, [], [], "", none⟩
  execPrepared _ _ := some ⟨.tuplesOk, rows, [], "", none⟩

/-- A query for them, with a buffer of one row. -/
def executed (rows : List Row) : Query :=
  (((Query.make "select amount from t order by id" "dbgen4_0" (Buffer.make [] 1)
    (Buffer.make [amount] 1)).prepare (table rows)).2.execute noFloats (table rows)).2

/-- The first row has been fetched. -/
def fetched (rows : List Row) : Query := ((executed rows).fetch noFloats).2

theorem run_executed (rows : List Row) :
    (query noFloats).Run [.execute, .prepare] (executed rows) :=
  .step (.step (.init ⟨_, _, [], [amount], 1, 1, rfl⟩) (.prepare _ (table rows)))
    (.execute _ (table rows))

theorem run_fetched (first second : Row) :
    (query noFloats).Run [.fetch [first], .execute, .prepare] (fetched [first, second]) :=
  .step (run_executed [first, second]) (.fetch (executed [first, second]))

/-- A NULL after a number is reported. -/
theorem nullsExact_sevenNull :
    NullsExact noFloats (fetched [seven, [none]]) ((fetched [seven, [none]]).fetch noFloats).2 := by
  refine (nullsExact_iff (run_fetched seven [none]) rfl).2 ?_
  intro c d r row _ hrow _ hgood
  rcases r with _ | r
  · obtain rfl : [none] = row := Option.some.inj hrow
    rcases c with _ | c <;> cases hgood
  · cases hrow

/-- A number after a NULL is not: the NULL of the first window shows through. -/
theorem not_nullsExact :
    ¬∀ (F : FloatText) (tr : List Event) (q q' : Query) (more : Bool), (query F).Run tr q →
      q.fetch F = (.ok more, q') → NullsExact F q q' := by
  intro h
  have hexact := h noFloats _ _ ((fetched [[none], seven]).fetch noFloats).2 true
    (run_fetched [none] seven) rfl 0 amount 0 seven rfl rfl
  exact absurd hexact (by decide)

end Dbgen4.Psql
