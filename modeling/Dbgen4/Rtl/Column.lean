import Mathlib.Algebra.Group.Int.Defs
import Mathlib.Algebra.Group.Nat.Defs
import Dbgen4.Rtl.SqlTypes

/-!
# Columns and their cells

A generated buffer describes each of its columns at compile time
(`buffer_dscr_const` of `rtl/buffer_dscr.hpp`), and stores a row of it in a
*cell*: a slot of the column's storage type and a length/null indicator. The
storage type follows from the category and the type, so that a cell of the
wrong kind for its column cannot be built.
-/

namespace Dbgen4.Rtl

/-- `buffer_dscr_const`. The generator takes the category of a column from its type. -/
structure BufferDscr where
  name : String
  category : SqlCat
  type : SqlType
  /-- Width in characters or bytes. -/
  columnSize : UInt32
  category_eq : category = type.category

/-- The values of a C++ type; floating-point values as their bits. -/
@[reducible] def CppType.Elem : CppType → Type
  | .int8 => BitVec 8
  | .int16 => BitVec 16
  | .int32 => BitVec 32
  | .int64 => BitVec 64
  | .float => UInt32
  | .double => UInt64
  | .bool => Bool
  | .char => UInt8
  | .wchar => UInt32
  | .uint8 => UInt8
  | .date => Date
  | .time => Time
  | .timestamp => Timestamp
  | .guid => Guid
  | .interval => Interval
  | .void => Unit

/-- A value-initialised element. -/
def CppType.zero : (c : CppType) → c.Elem
  | .int8 => 0#8
  | .int16 => 0#16
  | .int32 => 0#32
  | .int64 => 0#64
  | .float => 0
  | .double => 0
  | .bool => false
  | .char => 0
  | .wchar => 0
  | .uint8 => 0
  | .date => ⟨0, 0, 0⟩
  | .time => ⟨0, 0, 0⟩
  | .timestamp => ⟨0, 0, 0, 0, 0, 0, 0⟩
  | .guid => ⟨0, 0, 0, .replicate 8 0⟩
  | .interval => ⟨0, 0, .replicate 5 0⟩
  | .void => ()

/-- The size of a C++ type in bytes. A `bool` is stored as a `uint8_t`. -/
def CppType.size : CppType → ℕ
  | .int8 | .bool | .char | .uint8 => 1
  | .int16 => 2
  | .int32 | .float | .wchar => 4
  | .int64 | .double => 8
  | .date | .time => 6
  | .timestamp | .guid => 16
  | .interval => 28
  | .void => 0

/-- The storage of one row of a column (`attr_storage_type`). The arrays of characters
    have room for a terminator. -/
@[reducible] def Slot (cat : SqlCat) (t : SqlType) (size : ℕ) : Type :=
  match cat with
  | .atomic => t.cppType.Elem
  | .cString => Vector UInt8 (size + 1)
  | .wString => Vector UInt32 (size + 1)
  | .bString => Vector UInt8 size
  | .struct => t.cppType.Elem

/-- A value-initialised slot. -/
def Slot.zero (t : SqlType) (size : ℕ) : (cat : SqlCat) → Slot cat t size
  | .atomic => t.cppType.zero
  | .cString => .replicate (size + 1) 0
  | .wString => .replicate (size + 1) 0
  | .bString => .replicate size 0
  | .struct => t.cppType.zero

/-- One row of a column: its slot and its length/null indicator. -/
structure Cell (cat : SqlCat) (t : SqlType) (size : ℕ) where
  slot : Slot cat t size
  indicator : Int32

/-- The cells of a column. -/
abbrev BufferDscr.Cell (d : BufferDscr) : Type := Rtl.Cell d.category d.type d.columnSize.toNat

/-! ## Getters -/

/-- The cast of an indicator to `size_t`. -/
def asSize (i : Int32) : ℕ := (i.toInt % 2 ^ 64).toNat

/-- The type of what the generated getter of a column returns. -/
@[reducible] def Value (cat : SqlCat) (t : SqlType) : Type :=
  match cat with
  | .atomic => t.cppType.Elem
  | .cString => List UInt8
  | .wString => List UInt32
  | .bString => List UInt8
  | .struct => t.cppType.Elem

namespace Cell

/-- The generated null getter. -/
def isNull {cat : SqlCat} {t : SqlType} {size : ℕ} (cell : Cell cat t size) : Bool :=
  nullData == cell.indicator

/-- The generated length getter. -/
def length {cat : SqlCat} {t : SqlType} {size : ℕ} (cell : Cell cat t size) : ℕ :=
  if nullData = cell.indicator then 0 else asSize cell.indicator

/-- The generated getter: a string is the first `length` elements of its array. -/
def value {t : SqlType} {size : ℕ} : {cat : SqlCat} → (cell : Cell cat t size) → Value cat t
  | .atomic, cell => cell.slot
  | .cString, cell => (Vector.toList (n := size + 1) cell.slot).take cell.length
  | .wString, cell => (Vector.toList (n := size + 1) cell.slot).take cell.length
  | .bString, cell => (Vector.toList (n := size) cell.slot).take cell.length
  | .struct, cell => cell.slot

end Cell

/-! ## Indicators -/

/-- A length that an `int32_t` holds is no null indicator. -/
theorem nullData_ne_ofNat {n : ℕ} (h : n < 2 ^ 31) : nullData ≠ Int32.ofNat n := by
  intro he
  have hn := congrArg Int32.toInt he
  rw [Int32.toInt_ofNat_of_lt h] at hn
  exact absurd (show (-1 : ℤ) = n from hn) (by omega)

/-- The length getter returns a length that an `int32_t` holds. -/
theorem Cell.length_ofNat {cat : SqlCat} {t : SqlType} {size n : ℕ} (slot : Slot cat t size)
    (h : n < 2 ^ 31) : Cell.length ⟨slot, Int32.ofNat n⟩ = n := by
  refine (if_neg (nullData_ne_ofNat h)).trans ?_
  rw [asSize, Int32.toInt_ofNat_of_lt h]
  omega

/-! ## Arrays -/

/-- Copy bytes to the front of an array, as `memcpy` does. -/
def overwrite {n : ℕ} (a : Vector UInt8 n) (bs : List UInt8) : Vector UInt8 n :=
  Vector.ofFn fun i => bs.getD i a[i]

/-- The bytes copied are the first ones of the array. -/
theorem take_overwrite {n : ℕ} (a : Vector UInt8 n) {bs : List UInt8} (h : bs.length ≤ n) :
    (overwrite a bs).toList.take bs.length = bs := by
  refine List.ext_getElem (by simp [h]) fun i h₁ h₂ => ?_
  simp [overwrite, List.getElem?_eq_getElem h₂]

end Dbgen4.Rtl
