import Dbgen4.Rtl.SqlTypes

/-!
# Parameter buffers

A generated parameter buffer (`config/buf_hpp.jinja`, `config/buf_cpp.jinja`)
stores its columns as arrays: for each column, the value array, `stride` bytes
a row, and the array of length/null indicators. Here the arrays are the bytes
as they lie, and a buffer carries the proof that all of them have its number of
rows, so that a buffer with arrays of different lengths cannot be built.
-/

namespace Dbgen4.Rtl

/-- One column of a buffer. -/
structure ParamColumn where
  /-- The distance in bytes between two rows of the value array. -/
  stride : Nat
  /-- The value array, bytes as they lie. -/
  values : List UInt8
  /-- The length/null indicator of each row. -/
  indicators : List Int32
  deriving DecidableEq, Repr

/-- The arrays of the column have `rows` rows. -/
def ParamColumn.Sized (rows : Nat) (c : ParamColumn) : Prop :=
  c.values.length = c.stride * rows ∧ c.indicators.length = rows

/-- A parameter buffer: its columns, all with the same number of rows. -/
@[ext] structure ParamBuffer where
  /-- `buffer_size()`. -/
  rows : Nat
  columns : List ParamColumn
  sized : ∀ c ∈ columns, c.Sized rows
  deriving DecidableEq, Repr

namespace ParamBuffer

/-- What the generated class fixes of a buffer: the strides of its columns. -/
def strides (b : ParamBuffer) : List Nat := b.columns.map (·.stride)

/-- `resize_storage`: every array is assigned `rows` zero entries. -/
def resizeStorage (strides : List Nat) (rows : Nat) : ParamBuffer where
  rows := rows
  columns := strides.map fun n => ⟨n, List.replicate (n * rows) 0, List.replicate rows 0⟩
  sized c hc := by
    obtain ⟨n, _, rfl⟩ := List.mem_map.1 hc
    exact ⟨List.length_replicate, List.length_replicate⟩

/-- `parameter_root::set_buffer_size`; also what the generated constructor does. -/
def setBufferSize (strides : List Nat) (rows : Nat) : ParamBuffer :=
  resizeStorage strides (if rows = 0 then 1 else rows)

@[simp] theorem strides_setBufferSize (strides : List Nat) (rows : Nat) :
    (setBufferSize strides rows).strides = strides := by
  simp [setBufferSize, resizeStorage, ParamBuffer.strides, Function.comp_def]

/-- Two buffers of the same generated class with the same number of rows. -/
def SameShape (b b' : ParamBuffer) : Prop := b.strides = b'.strides ∧ b.rows = b'.rows

theorem SameShape.refl (b : ParamBuffer) : b.SameShape b := ⟨rfl, rfl⟩

theorem SameShape.trans {a b c : ParamBuffer} (h : a.SameShape b) (h' : b.SameShape c) :
    a.SameShape c :=
  ⟨h.1.trans h'.1, h.2.trans h'.2⟩

/-- Without columns, there is nothing in a buffer but its number of rows. -/
theorem SameShape.eq_of_strides_nil {b b' : ParamBuffer} (h : b.SameShape b')
    (hb : b.strides = []) : b = b' := by
  have h₁ : b.columns = [] := List.map_eq_nil_iff.1 hb
  have h₂ : b'.columns = [] := List.map_eq_nil_iff.1 (h.1.symm.trans hb)
  exact ParamBuffer.ext h.2 (h₁.trans h₂.symm)

end ParamBuffer

end Dbgen4.Rtl
