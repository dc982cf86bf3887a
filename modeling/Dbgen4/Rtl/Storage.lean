import Dbgen4.Rtl.SetValue
import Dbgen4.StdVector

/-!
# Generated buffers, and where their arrays lie

A generated buffer (`config/buf_hpp.jinja`, `config/buf_cpp.jinja`) once more,
now with the storage of its arrays: for each column a vector of values and one
of indicators and, for parameters, one of row statuses; the pointers into them
that it publishes for the backend (`buffer_description_init()`); and the rows,
which refer to the slots of the vectors (`row_wise()`).

A vector moves when it outgrows its block. A block is named after the operation
that allocated it, the operations of a program being numbered from 1, and the
array it was for; so the same block is the same storage, and one that was freed
does not come back.

The setters and the driver change the arrays where they are (`Write`). A call of
a string setter that stores past the arrays of its column (`Overruns`) is no
such change: what there is afterwards, here and elsewhere, nothing says.
-/

namespace Dbgen4.Rtl

/-- The arrays of a buffer. -/
inductive ArrayId
  | values (c : ℕ)
  | lens (c : ℕ)
  | rowStatus
  deriving DecidableEq, Repr

/-- The arrays of the buffers of a class. -/
inductive ArrayOf (ds : List BufferDscr) (isParam : Bool)
  | values (c : Fin ds.length)
  | lens (c : Fin ds.length)
  | rowStatus (h : isParam)

/-- Which array it is. -/
def ArrayOf.id {ds : List BufferDscr} {isParam : Bool} : ArrayOf ds isParam → ArrayId
  | .values c => .values c
  | .lens c => .lens c
  | .rowStatus _ => .rowStatus

/-- A block of memory; the operation 0 allocates none. -/
structure Block where
  epoch : ℕ
  array : ArrayId
  deriving DecidableEq, Repr

/-- The size of a slot of a column in bytes. -/
def BufferDscr.slotSize (d : BufferDscr) : ℕ :=
  match d.category with
  | .atomic | .struct => d.type.cppType.size
  | .cString | .wString => (d.columnSize.toNat + 1) * d.type.cppType.size
  | .bString => d.columnSize.toNat * d.type.cppType.size

/-- The slots of a column. -/
abbrev BufferDscr.Slot (d : BufferDscr) : Type := Rtl.Slot d.category d.type d.columnSize.toNat

/-- What a getter of the column returns, and its setter takes. -/
abbrev BufferDscr.Value (d : BufferDscr) : Type := Rtl.Value d.category d.type

/-- A call that writes to a parameter buffer. -/
inductive ParamWrite (ds : List BufferDscr)
  | set (c : Fin ds.length) (v : (ds.get c).Value) (row : ℕ)
  | setNull (c : Fin ds.length) (row : ℕ)
  | resetAllNull

/-- The arrays of one column. -/
structure ColumnArrays (d : BufferDscr) where
  values : StdVector Block d.Slot
  lens : StdVector Block Int32

/-- `buffer_dscr_init`; a pointer to the first element of a block is that block. -/
structure BufferDscrInit where
  valuePtr : Block
  indicatorPtr : Block
  stride : ℕ
  deriving DecidableEq, Repr

/-- What a `row_t` refers to in one column: an element of a block each. -/
structure ColumnRef where
  value : Block × ℕ
  isNull : Block × ℕ
  deriving DecidableEq, Repr

/-- A generated buffer with the columns `ds`: a parameter buffer, or a result buffer. -/
structure GeneratedBuffer (ds : List BufferDscr) (isParam : Bool) where
  columns : (c : Fin ds.length) → ColumnArrays (ds.get c)
  /-- `row_status_` of a parameter buffer. -/
  rowStatus : isParam → StdVector Block UInt16
  dscrInit : List BufferDscrInit
  rowWise : List (Fin ds.length → ColumnRef)
  /-- `occupied_` of a result buffer. -/
  occupied : ℕ
  layoutGeneration : UInt64

namespace ColumnArrays

variable (G : Growth) (t c : ℕ) {d : BufferDscr}

/-- The vectors of the column `c` are assigned other elements by the operation `t`. -/
def store (col : ColumnArrays d) (values : List d.Slot) (lens : List Int32) : ColumnArrays d :=
  ⟨col.values.store G ⟨t, .values c⟩ values, col.lens.store G ⟨t, .lens c⟩ lens⟩

/-- The defaulted copy construction. -/
def copy (col : ColumnArrays d) : ColumnArrays d :=
  ⟨col.values.copy ⟨t, .values c⟩, col.lens.copy ⟨t, .lens c⟩⟩

/-- Before its first resize a column has no storage. -/
def empty : ColumnArrays d := ⟨.empty ⟨0, .values c⟩, .empty ⟨0, .lens c⟩⟩

/-- `rows` value-initialised entries. -/
def assign (col : ColumnArrays d) (rows : ℕ) : ColumnArrays d :=
  col.store G t c (List.replicate rows (Slot.zero d.type d.columnSize.toNat d.category))
    (List.replicate rows 0)

end ColumnArrays

namespace GeneratedBuffer

variable (G : Growth) (t : ℕ) {ds : List BufferDscr} {isParam : Bool}
  (b : GeneratedBuffer ds isParam)

/-- `buffer_size()`. -/
def bufferSize : ℕ := if h : 0 < ds.length then (b.columns ⟨0, h⟩).values.size else 0

/-- `is_batch`. -/
def isBatch : Bool := b.bufferSize > 1

/-- The pointers to the arrays. -/
def description : List BufferDscrInit :=
  List.ofFn fun c =>
    ⟨(b.columns c).values.block, (b.columns c).lens.block, (ds.get c).slotSize⟩

/-- `buffer_description_init`. -/
def bufferDescriptionInit : List BufferDscrInit × GeneratedBuffer ds isParam :=
  (b.description, { b with dscrInit := b.description })

/-- The slots of a row. -/
def slots (row : ℕ) (c : Fin ds.length) : ColumnRef :=
  ⟨((b.columns c).values.block, row), ((b.columns c).lens.block, row)⟩

/-- `rebuild_row_wise`. -/
def rebuildRowWise : GeneratedBuffer ds isParam :=
  { b with rowWise := (List.range b.bufferSize).map b.slots }

/-- `resize_storage`. -/
def resizeStorage (rows : ℕ) : GeneratedBuffer ds isParam :=
  let b : GeneratedBuffer ds isParam := { b with
    columns := fun c => (b.columns c).assign G t c rows
    rowStatus := fun h => (b.rowStatus h).store G ⟨t, .rowStatus⟩ (List.replicate rows 0) }
  b.bufferDescriptionInit.2.rebuildRowWise

/-- How many rows `set_buffer_size` makes. -/
def atLeastOne (rows : ℕ) : ℕ := if rows = 0 then 1 else rows

/-- `set_buffer_size`. -/
def setBufferSize (rows : ℕ) : GeneratedBuffer ds isParam :=
  let b := b.resizeStorage G t (atLeastOne rows)
  { b with layoutGeneration := b.layoutGeneration + 1 }

/-- The generated constructor. -/
def make (ds : List BufferDscr) (isParam : Bool) (rows : ℕ) : GeneratedBuffer ds isParam :=
  setBufferSize G t
    { columns := fun c => .empty c
      rowStatus := fun _ => .empty ⟨0, .rowStatus⟩
      dscrInit := []
      rowWise := []
      occupied := 0
      layoutGeneration := 0 } rows

/-- The defaulted copy constructor. -/
def copy : GeneratedBuffer ds isParam :=
  { b with
    columns := fun c => (b.columns c).copy t c
    rowStatus := fun h => (b.rowStatus h).copy ⟨t, .rowStatus⟩ }

/-- The defaulted copy assignment. -/
def copyAssign (src : GeneratedBuffer ds isParam) : GeneratedBuffer ds isParam :=
  { src with
    columns := fun c =>
      (b.columns c).store G t c (src.columns c).values.data (src.columns c).lens.data
    rowStatus := fun h => (b.rowStatus h).store G ⟨t, .rowStatus⟩ (src.rowStatus h).data }

/-- Change the elements of the arrays in place. -/
def modify (values : (c : Fin ds.length) → ℕ → (ds.get c).Slot → (ds.get c).Slot)
    (lens : Fin ds.length → ℕ → Int32 → Int32) : GeneratedBuffer ds isParam :=
  { b with
    columns := fun c =>
      ⟨(b.columns c).values.modify (values c), (b.columns c).lens.modify (lens c)⟩ }

/-- What a setter stores in the rows of its column. -/
def set (c : Fin ds.length) (s : CellStore (ds.get c).Slot) : GeneratedBuffer ds isParam :=
  b.modify (fun c' r x => if h : c = c' then h ▸ s.slot r (h ▸ x) else x)
    fun c' r i => if c' = c then s.len r i else i

/-- A generated null setter. -/
def setNull (c : Fin ds.length) (row : ℕ) : GeneratedBuffer ds isParam :=
  b.modify (fun _ _ x => x) fun c' r i => if c' = c ∧ r = row then nullData else i

/-- What the driver writes through the pointers to the arrays. -/
def driverWrite (cells : (c : Fin ds.length) → ℕ → Option (ds.get c).Cell) :
    GeneratedBuffer ds isParam :=
  b.modify (fun c r x => ((cells c r).map (·.slot)).getD x)
    fun c r i => ((cells c r).map (·.indicator)).getD i

/-- `clear_row_status`. -/
def clearRowStatus : GeneratedBuffer ds isParam :=
  { b with rowStatus := fun h => (b.rowStatus h).modify fun _ _ => 0 }

/-- What the driver writes to the row status, in place. -/
def driverStatus (f : ℕ → UInt16 → UInt16) : GeneratedBuffer ds isParam :=
  { b with rowStatus := fun h => (b.rowStatus h).modify f }

/-- `reset_all_null`. -/
def resetAllNull : GeneratedBuffer ds isParam :=
  (b.modify (fun _ _ x => x) fun _ _ _ => nullData).clearRowStatus

/-- A call, which throws before it has written anything or not at all: the setters of plain values
    and the null setters go through `at()`, the setters of strings through `rtl::set_value`. -/
def write : ParamWrite ds → Except OutOfRange (GeneratedBuffer ds isParam)
  | .set c v row =>
    match attrSetterCode (ds.get c).category v row (b.columns c).values.size with
    | .ok s => .ok (b.set c s)
    | .error e => .error e
  | .setNull c row => if row < (b.columns c).lens.size then .ok (b.setNull c row) else .error .at
  | .resetAllNull => .ok b.resetAllNull

/-- The buffer after a call, if it has not stored past the arrays. -/
def after (w : ParamWrite ds) : GeneratedBuffer ds isParam :=
  match b.write w with
  | .ok b' => b'
  | .error _ => b

/-- The call stores past the arrays of its column. -/
def Overruns : ParamWrite ds → Prop
  | .set c v row => v.Overruns (ds.get c).columnSize.toNat row (b.columns c).values.size
  | .setNull _ _ => False
  | .resetAllNull => False

/-- The generated getter of a column, of the whole slot. -/
def value (c : Fin ds.length) (row : ℕ) : Option (ds.get c).Slot := (b.columns c).values.data[row]?

/-- The indicator of a column. -/
def len (c : Fin ds.length) (row : ℕ) : Option Int32 := (b.columns c).lens.data[row]?

/-- `row()`. -/
def row (r : ℕ) : Option (Fin ds.length → ColumnRef) := b.rowWise[r]?

/-- Where an array is. -/
def place : ArrayOf ds isParam → Block × ℕ
  | .values c => (b.columns c).values.place
  | .lens c => (b.columns c).lens.place
  | .rowStatus h => (b.rowStatus h).place

/-- How many entries an array has room for. -/
def capacity : ArrayOf ds isParam → ℕ
  | .values c => (b.columns c).values.capacity
  | .lens c => (b.columns c).lens.capacity
  | .rowStatus h => (b.rowStatus h).capacity

/-- All arrays have as many entries as `buffer_size()` says, which is one at least. -/
structure Sized : Prop where
  pos : 1 ≤ b.bufferSize
  arrays : ∀ a, (b.place a).2 = b.bufferSize
  rowWise : b.rowWise.length = b.bufferSize

/-- Every row refers to the slots of this buffer. -/
def OwnRows : Prop := b.rowWise = (List.range b.bufferSize).map b.slots

/-! ## Changes in place -/

/-- What changes the elements of the arrays, and not where they are. A result buffer has no
    setters. -/
inductive Write : GeneratedBuffer ds isParam → GeneratedBuffer ds isParam → Prop
  | call (b : GeneratedBuffer ds isParam) (w : ParamWrite ds) : isParam → ¬b.Overruns w →
    Write b (b.after w)
  | clearRowStatus (b : GeneratedBuffer ds isParam) : Write b b.clearRowStatus
  | bufferDescriptionInit (b : GeneratedBuffer ds isParam) : Write b b.bufferDescriptionInit.2
  | driverWrite (b : GeneratedBuffer ds isParam)
      (cells : (c : Fin ds.length) → ℕ → Option (ds.get c).Cell) :
    Write b (b.driverWrite cells)
  | driverStatus (b : GeneratedBuffer ds isParam) (f : ℕ → UInt16 → UInt16) :
    Write b (b.driverStatus f)

/-- All arrays of two buffers are at the same places, and the rows refer to the same slots. -/
structure SamePlaces (b b' : GeneratedBuffer ds isParam) : Prop where
  arrays : ∀ a, b'.place a = b.place a
  rowWise : b'.rowWise = b.rowWise
  layoutGeneration : b'.layoutGeneration = b.layoutGeneration

variable {G t b} {b' : GeneratedBuffer ds isParam}

theorem SamePlaces.modify (values : (c : Fin ds.length) → ℕ → (ds.get c).Slot → (ds.get c).Slot)
    (lens : Fin ds.length → ℕ → Int32 → Int32) : b.SamePlaces (b.modify values lens) := by
  refine ⟨fun a => ?_, rfl, rfl⟩
  cases a with
  | values c => exact StdVector.place_modify _
  | lens c => exact StdVector.place_modify _
  | rowStatus h => rfl

theorem SamePlaces.driverStatus (f : ℕ → UInt16 → UInt16) : b.SamePlaces (b.driverStatus f) := by
  refine ⟨fun a => ?_, rfl, rfl⟩
  cases a with
  | values c => rfl
  | lens c => rfl
  | rowStatus h => exact StdVector.place_modify f

theorem SamePlaces.trans {b'' : GeneratedBuffer ds isParam} (h : b.SamePlaces b')
    (h' : b'.SamePlaces b'') : b.SamePlaces b'' where
  arrays a := (h'.arrays a).trans (h.arrays a)
  rowWise := h'.rowWise.trans h.rowWise
  layoutGeneration := h'.layoutGeneration.trans h.layoutGeneration

theorem SamePlaces.resetAllNull : b.SamePlaces b.resetAllNull :=
  .trans (.modify _ _) (.driverStatus _)

theorem SamePlaces.after (w : ParamWrite ds) : b.SamePlaces (b.after w) := by
  have hrefl : b.SamePlaces b := ⟨fun _ => rfl, rfl, rfl⟩
  rw [GeneratedBuffer.after]
  cases w with
  | set c v row =>
    rw [write]
    cases attrSetterCode (ds.get c).category v row (b.columns c).values.size with
    | ok s => exact .modify _ _
    | error e => exact hrefl
  | setNull c row =>
    rw [write]
    by_cases h : row < (b.columns c).lens.size
    · rw [if_pos h]
      exact .modify _ _
    · rw [if_neg h]
      exact hrefl
  | resetAllNull => exact .resetAllNull

theorem Write.samePlaces (h : Write b b') : b.SamePlaces b' := by
  cases h with
  | call w => exact .after w
  | clearRowStatus => exact .driverStatus _
  | bufferDescriptionInit => exact ⟨fun _ => rfl, rfl, rfl⟩
  | driverWrite => exact .modify _ _
  | driverStatus f => exact .driverStatus f

theorem bufferSize_eq (hds : 0 < ds.length) : b.bufferSize = (b.place (.values ⟨0, hds⟩)).2 :=
  dif_pos hds

theorem SamePlaces.bufferSize (h : b.SamePlaces b') : b'.bufferSize = b.bufferSize := by
  by_cases hds : 0 < ds.length
  · rw [bufferSize_eq hds, bufferSize_eq hds]
    exact congrArg Prod.snd (h.arrays _)
  · rw [GeneratedBuffer.bufferSize, GeneratedBuffer.bufferSize, dif_neg hds, dif_neg hds]

theorem SamePlaces.slots (h : b.SamePlaces b') : b'.slots = b.slots := by
  funext row c
  rw [GeneratedBuffer.slots, GeneratedBuffer.slots]
  have hv : (b'.columns c).values.block = _ := congrArg Prod.fst (h.arrays (.values c))
  have hl : (b'.columns c).lens.block = _ := congrArg Prod.fst (h.arrays (.lens c))
  rw [hv, hl]
  rfl

theorem SamePlaces.sized (h : b.SamePlaces b') (hb : b.Sized) : b'.Sized where
  pos := by
    rw [h.bufferSize]
    exact hb.pos
  arrays a := by
    rw [h.bufferSize, h.arrays]
    exact hb.arrays a
  rowWise := by
    rw [h.bufferSize, h.rowWise]
    exact hb.rowWise

theorem SamePlaces.ownRows (h : b.SamePlaces b') (hb : b.OwnRows) : b'.OwnRows := by
  rw [OwnRows, h.rowWise, h.bufferSize, h.slots]
  exact hb

/-! ## Resizes -/

theorem bufferSize_setBufferSize (hds : 0 < ds.length) (rows : ℕ) :
    (b.setBufferSize G t rows).bufferSize = atLeastOne rows := by
  rw [bufferSize_eq hds]
  exact StdVector.size_store.trans List.length_replicate

theorem ownRows_setBufferSize (rows : ℕ) : (b.setBufferSize G t rows).OwnRows := rfl

theorem sized_setBufferSize (hds : 0 < ds.length) (rows : ℕ) :
    (b.setBufferSize G t rows).Sized where
  pos := by
    rw [bufferSize_setBufferSize hds, atLeastOne]
    split <;> omega
  arrays a := by
    rw [bufferSize_setBufferSize hds]
    cases a <;> exact StdVector.size_store.trans List.length_replicate
  rowWise := by
    rw [ownRows_setBufferSize rows, List.length_map, List.length_range]

/-! ## Copies -/

theorem size_copy (a : ArrayOf ds isParam) : ((b.copy t).place a).2 = (b.place a).2 := by
  cases a <;> rfl

/-- A copy has storage of its own. -/
theorem block_copy (a : ArrayOf ds isParam) : ((b.copy t).place a).1 = ⟨t, a.id⟩ := by
  cases a <;> rfl

theorem sized_copy (hb : b.Sized) : (b.copy t).Sized where
  pos := hb.pos
  arrays a := (size_copy a).trans (hb.arrays a)
  rowWise := hb.rowWise

theorem size_copyAssign (a : ArrayOf ds isParam) :
    ((b.copyAssign G t b').place a).2 = (b'.place a).2 := by
  cases a <;> exact StdVector.size_store

theorem bufferSize_copyAssign : (b.copyAssign G t b').bufferSize = b'.bufferSize := by
  by_cases hds : 0 < ds.length
  · rw [bufferSize_eq hds, bufferSize_eq hds, size_copyAssign]
  · rw [GeneratedBuffer.bufferSize, GeneratedBuffer.bufferSize, dif_neg hds, dif_neg hds]

theorem sized_copyAssign (hb' : b'.Sized) : (b.copyAssign G t b').Sized where
  pos := by
    rw [bufferSize_copyAssign]
    exact hb'.pos
  arrays a := by
    rw [bufferSize_copyAssign, size_copyAssign]
    exact hb'.arrays a
  rowWise := by
    rw [bufferSize_copyAssign]
    exact hb'.rowWise

/-- A buffer that is assigned itself does not change. -/
theorem copyAssign_self : b.copyAssign G t b = b := by
  have hself : ∀ {α : Type} (v : StdVector Block α) (new : Block), v.store G new v.data = v := by
    intro α v new
    rw [StdVector.store, dif_pos v.length_le]
  have hcolumn : ∀ {d : BufferDscr} (c : ℕ) (col : ColumnArrays d),
      col.store G t c col.values.data col.lens.data = col := by
    intro d c col
    rw [ColumnArrays.store, hself, hself]
  simp only [copyAssign, hcolumn, hself]

/-! ## Blocks -/

/-- The arrays of a buffer are in the blocks of another one, or in blocks that the operation `t`
    allocated. -/
def StoredAt (t : ℕ) (b b' : GeneratedBuffer ds isParam) : Prop :=
  ∀ a, (b'.place a).1 = (b.place a).1 ∨ (b'.place a).1 = ⟨t, a.id⟩

theorem SamePlaces.storedAt (h : b.SamePlaces b') (t : ℕ) : StoredAt t b b' :=
  fun a => .inl (congrArg Prod.fst (h.arrays a))

theorem block_store_or {α : Type} (v : StdVector Block α) (new : Block) (xs : List α) :
    (v.store G new xs).block = v.block ∨ (v.store G new xs).block = new := by
  rw [StdVector.block_store]
  split
  · exact .inl rfl
  · exact .inr rfl

theorem storedAt_setBufferSize (rows : ℕ) : StoredAt t b (b.setBufferSize G t rows) := by
  intro a
  cases a <;> exact block_store_or ..

theorem storedAt_copyAssign : StoredAt t b (b.copyAssign G t b') := by
  intro a
  cases a <;> exact block_store_or ..

/-- A buffer that is resized keeps an array at a place that is not new, just if it has room there
    and is there already. -/
theorem place_setBufferSize_eq_iff {rows : ℕ} {a : ArrayOf ds isParam} {R : Block × ℕ}
    (hR : R.1.epoch < t) : (b.setBufferSize G t rows).place a = R ↔
      atLeastOne rows ≤ b.capacity a ∧ (b.place a).1 = R.1 ∧ atLeastOne rows = R.2 := by
  have hne : ∀ id, (⟨t, id⟩ : Block) ≠ R.1 := fun id h => Nat.ne_of_gt hR (congrArg Block.epoch h)
  -- Each array is stored by `assign()`, and has as many entries as there are rows.
  cases a
  all_goals
    refine (StdVector.place_store_eq_iff (hne _)).trans ?_
    rw [List.length_replicate]
    exact Iff.rfl

theorem place_copyAssign_eq_iff {a : ArrayOf ds isParam} {R : Block × ℕ} (hR : R.1.epoch < t) :
    (b.copyAssign G t b').place a = R ↔
      (b'.place a).2 ≤ b.capacity a ∧ (b.place a).1 = R.1 ∧ (b'.place a).2 = R.2 := by
  have hne : ∀ id, (⟨t, id⟩ : Block) ≠ R.1 := fun id h => Nat.ne_of_gt hR (congrArg Block.epoch h)
  cases a <;> exact StdVector.place_store_eq_iff (hne _)

/-- A new buffer has allocated all its arrays. -/
theorem block_make (ds : List BufferDscr) (isParam : Bool) (rows : ℕ) (a : ArrayOf ds isParam) :
    ((make G t ds isParam rows).place a).1 = ⟨t, a.id⟩ := by
  -- There is at least one row, and no storage before.
  have hpos : ¬atLeastOne rows ≤ 0 := by
    rw [atLeastOne]
    split <;> omega
  cases a <;> refine StdVector.block_store.trans (if_neg ?_) <;> rwa [List.length_replicate]

end GeneratedBuffer

/-- The layout check of both runtimes: of the numbers of resizes that matter, each is the one
    recorded. -/
theorem layoutCheck_ok_iff {ε : Type} {p r : Prop} [Decidable p] [Decidable r]
    {n bound m bound' : UInt64} {e e' : ε} :
    (if p ∧ n ≠ bound then .error e else if r ∧ m ≠ bound' then .error e' else .ok ()) =
      Except.ok () ↔ (p → n = bound) ∧ (r → m = bound') := by
  split
  · rename_i h
    exact iff_of_false (fun h => by cases h) fun h' => h.2 (h'.1 h.1)
  · rename_i hpar
    split
    · rename_i h
      exact iff_of_false (fun h => by cases h) fun h' => h.2 (h'.2 h.1)
    · rename_i hres
      exact iff_of_true rfl ⟨fun h => not_not.1 fun hne => hpar ⟨h, hne⟩,
        fun h => not_not.1 fun hne => hres ⟨h, hne⟩⟩

end Dbgen4.Rtl
