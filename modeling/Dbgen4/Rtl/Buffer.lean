import Dbgen4.Rtl.Column

/-!
# Generated buffers, column by column

A generated parameter or result buffer (`config/buf_hpp.jinja`,
`config/buf_cpp.jinja`) has, for each column, an array of values and an array of
indicators, all with the same number of rows; here the two arrays are one array
of cells. A buffer is resized as a whole, and counts how often it has been
(`layoutGeneration`).
-/

namespace Dbgen4.Rtl

/-- The arrays of one column. -/
structure Column (rows : ℕ) where
  dscr : BufferDscr
  cells : Vector dscr.Cell rows

/-- A generated buffer. -/
structure Buffer where
  /-- `buffer_size()`. -/
  rows : ℕ
  columns : List (Column rows)
  layoutGeneration : UInt64

namespace Column

variable {rows : ℕ}

/-- `rows` value-initialised rows, with the indicator 0. -/
def zero (rows : ℕ) (d : BufferDscr) : Column rows :=
  ⟨d, .replicate rows ⟨Slot.zero d.type d.columnSize.toNat d.category, 0⟩⟩

/-- Change the cell of one row. -/
def modify (col : Column rows) (r : ℕ) (f : col.dscr.Cell → col.dscr.Cell) : Column rows :=
  ⟨col.dscr, col.cells.mapIdx fun i cell => if i = r then f cell else cell⟩

/-- The cell of a column and a row. -/
def cellAt (cols : List (Column rows)) (c r : ℕ) : Option ((d : BufferDscr) × d.Cell) :=
  cols[c]?.bind fun col => col.cells[r]?.map fun cell => ⟨col.dscr, cell⟩

/-- Set every indicator to `null_data`. -/
def setNull (col : Column rows) : Column rows :=
  ⟨col.dscr, col.cells.map fun cell => { cell with indicator := nullData }⟩

end Column

namespace Buffer

/-- The description of the columns (`buffer_description_const()`). -/
def dscrs (b : Buffer) : List BufferDscr := b.columns.map (·.dscr)

/-- The cell of a column and a row. -/
def cell (b : Buffer) (c r : ℕ) : Option ((d : BufferDscr) × d.Cell) := Column.cellAt b.columns c r

/-- The generated null getter of a column; nothing when there is no such row. -/
def isNull (b : Buffer) (c r : ℕ) : Option Bool := (b.cell c r).map fun x => x.2.isNull

/-- `resize_storage`: every array is assigned `rows` value-initialised entries. -/
def resizeStorage (b : Buffer) (rows : ℕ) : Buffer :=
  { b with rows := rows, columns := b.dscrs.map (Column.zero rows) }

/-- `set_buffer_size`. -/
def setBufferSize (b : Buffer) (rows : ℕ) : Buffer :=
  let b := b.resizeStorage (if rows = 0 then 1 else rows)
  { b with layoutGeneration := b.layoutGeneration + 1 }

/-- The generated constructor. -/
def make (ds : List BufferDscr) (rows : ℕ) : Buffer :=
  setBufferSize ⟨0, ds.map (Column.zero 0), 0⟩ rows

/-- Where there is a cell. -/
theorem cell_isSome (b : Buffer) {c r : ℕ} {d : BufferDscr} (hd : b.dscrs[c]? = some d)
    (hr : r < b.rows) : ∃ x : d.Cell, b.cell c r = some ⟨d, x⟩ := by
  rw [dscrs, List.getElem?_map, Option.map_eq_some_iff] at hd
  obtain ⟨col, hcol, rfl⟩ := hd
  exact ⟨col.cells[r], by simp [cell, Column.cellAt, hcol, hr]⟩

/-- A cell is one of its column. -/
theorem dscr_of_cell (b : Buffer) {c r : ℕ} {x : (d : BufferDscr) × d.Cell}
    (h : b.cell c r = some x) : b.dscrs[c]? = some x.1 := by
  obtain ⟨col, hcol, hx⟩ := Option.bind_eq_some_iff.1 h
  obtain ⟨cell, _, rfl⟩ := Option.map_eq_some_iff.1 hx
  rw [dscrs, List.getElem?_map, hcol]
  rfl

/-- Beyond the rows there is no cell. -/
theorem isNull_eq_none (b : Buffer) (c : ℕ) {r : ℕ} (hr : b.rows ≤ r) : b.isNull c r = none := by
  simp [isNull, cell, Column.cellAt, hr]

@[simp] theorem dscrs_setBufferSize (b : Buffer) (rows : ℕ) :
    (b.setBufferSize rows).dscrs = b.dscrs := by
  simp [setBufferSize, resizeStorage, dscrs, Column.zero, Function.comp_def]

/-- Value-initialised columns say nowhere NULL. -/
theorem isNull_zero (ds : List BufferDscr) (rows : ℕ) (g : UInt64) (c r : ℕ) :
    isNull ⟨rows, ds.map (Column.zero rows), g⟩ c r ≠ some true := by
  intro h
  simp only [isNull, cell, Column.cellAt, List.getElem?_map, Option.map_eq_some_iff,
    Option.bind_eq_some_iff] at h
  obtain ⟨_, ⟨_, ⟨d, _, rfl⟩, cell, hcell, rfl⟩, hx⟩ := h
  obtain ⟨hr, rfl⟩ := Vector.getElem?_eq_some_iff.1 hcell
  simp only [Column.zero, Vector.getElem_replicate] at hx
  exact absurd (show (nullData == 0) = true from hx) (by decide)

/-- After a resize nothing says NULL. -/
theorem isNull_setBufferSize (b : Buffer) (rows c r : ℕ) :
    (b.setBufferSize rows).isNull c r ≠ some true :=
  isNull_zero b.dscrs _ _ c r

end Buffer

end Dbgen4.Rtl
