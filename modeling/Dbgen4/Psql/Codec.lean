import Dbgen4.Psql.Text
import Dbgen4.Rtl.Column

/-!
# Storing and loading a cell

The runtime owns the copying between the texts libpq hands out and the slots of
a generated buffer: `storeValue` writes a server value into a cell,
`loadValue` renders a cell for the server. Both choose by the category of the
column and then by its type. What is loaded can be stored again, into any cell
of the column, and is the same value there (`storeValue_loadValue`).

Floating-point values are converted by `std::from_chars` and `fmt`; they are a
parameter, and the round trip is not about them.
-/

namespace Dbgen4.Psql

open Rtl Numeral

/-- The conversions of floating-point values, as their bits. -/
structure FloatText where
  parseFloat : Text → Option UInt32
  parseDouble : Text → Option UInt64
  formatFloat : UInt32 → Text
  formatDouble : UInt64 → Text

/-! ## Storing -/

/-- `store_atomic`; `none` when it returns false, having written nothing. -/
def storeAtomic (F : FloatText) (t : SqlType) (text : Text) : Option t.cppType.Elem :=
  match t with
  | .smallint => parseInt 16 text
  | .integer => parseInt 32 text
  | .bigint => parseInt 64 text
  | .tinyInt => parseInt 8 text
  | .real => F.parseFloat text
  | .float => F.parseDouble text
  | .double => F.parseDouble text
  | .bit => some (text.head?.any fun c => c == ascii 't' || c == ascii 'T' || c == ascii '1')
  | _ => none

/-- `store_structure`; intervals are not converted. -/
def storeStructure (t : SqlType) (text : Text) : Option t.cppType.Elem :=
  match t with
  | .date => parseDate text
  | .typeDate => parseDate text
  | .time => parseTime text
  | .typeTime => parseTime text
  | .timestamp => parseTimestamp text
  | .typeTimestamp => parseTimestamp text
  | .guid => parseGuid text
  | _ => none

/-- `store_c_string`: a longer value is truncated, and terminated. -/
def storeCString {t : SqlType} {size : ℕ} (cell : Cell .cString t size) (text : Text) :
    Cell .cString t size :=
  let n := min text.length size
  ⟨overwrite cell.slot (text.take n ++ [0]), Int32.ofNat n⟩

/-- `store_b_string`. -/
def storeBString {t : SqlType} {size : ℕ} (cell : Cell .bString t size) (text : Text) :
    Cell .bString t size :=
  let bytes := decodeBytea text size
  ⟨overwrite cell.slot bytes, Int32.ofNat bytes.length⟩

/-- What `store_value` does to a cell; the atomic types and the structures leave its
    indicator alone. -/
def storeCell (F : FloatText) {t : SqlType} {size : ℕ} :
    {cat : SqlCat} → Cell cat t size → Text → Option (Cell cat t size)
  | .atomic, cell, text => (storeAtomic F t text).map fun v => ⟨v, cell.indicator⟩
  | .cString, cell, text => some (storeCString cell text)
  | .bString, cell, text => some (storeBString cell text)
  | .struct, cell, text => (storeStructure t text).map fun v => ⟨v, cell.indicator⟩
  | .wString, _, _ => none

/-- `store_value`: copy a server value into a cell; `none` when it returns false, having
    written nothing. -/
def storeValue (F : FloatText) (d : BufferDscr) (cell : d.Cell) (text : Text) : Option d.Cell :=
  storeCell F cell text

theorem storeCell_atomic {F : FloatText} {t : SqlType} {size : ℕ} (cell : Cell .atomic t size)
    {text : Text} {v : t.cppType.Elem} (h : storeAtomic F t text = some v) :
    storeCell F cell text = some ⟨v, cell.indicator⟩ := by
  rw [storeCell, h, Option.map_some]

theorem storeCell_struct (F : FloatText) {t : SqlType} {size : ℕ} (cell : Cell .struct t size)
    {text : Text} {v : t.cppType.Elem} (h : storeStructure t text = some v) :
    storeCell F cell text = some ⟨v, cell.indicator⟩ := by
  rw [storeCell, h, Option.map_some]

/-! ## Loading -/

/-- A boolean, as `load_atomic` writes it. -/
def loadBool (b : Bool) : Text :=
  if b then [ascii 't', ascii 'r', ascii 'u', ascii 'e']
  else [ascii 'f', ascii 'a', ascii 'l', ascii 's', ascii 'e']

/-- `load_atomic`. -/
def loadAtomic (F : FloatText) (t : SqlType) (v : t.cppType.Elem) : Text :=
  match t with
  | .smallint => decimal (BitVec.toInt (n := 16) v)
  | .integer => decimal (BitVec.toInt (n := 32) v)
  | .bigint => decimal (BitVec.toInt (n := 64) v)
  | .tinyInt => decimal (BitVec.toInt (n := 8) v)
  | .real => F.formatFloat v
  | .float => F.formatDouble v
  | .double => F.formatDouble v
  | .bit => loadBool v
  | _ => []

/-- `load_structure`. -/
def loadStructure (t : SqlType) (v : t.cppType.Elem) : Text :=
  match t with
  | .date => formatDate v
  | .typeDate => formatDate v
  | .time => formatTime v
  | .typeTime => formatTime v
  | .timestamp => formatTimestamp v
  | .typeTimestamp => formatTimestamp v
  | .guid => formatGuid v
  | _ => []

/-- The bytes of a string that `load_c_string` and `load_b_string` send: as many as the
    indicator says, and no more than the column has. -/
def loadBytes {n : ℕ} (a : Vector UInt8 n) (indicator : Int32) (size : ℕ) : List UInt8 :=
  a.toList.take (min (asSize indicator) size)

/-- What `load_value` makes of a cell. -/
def loadCell (F : FloatText) {t : SqlType} {size : ℕ} : {cat : SqlCat} → Cell cat t size → Text
  | .atomic, cell => loadAtomic F t cell.slot
  | .cString, cell => loadBytes (n := size + 1) cell.slot cell.indicator size
  | .bString, cell => encodeBytea (loadBytes (n := size) cell.slot cell.indicator size)
  | .struct, cell => loadStructure t cell.slot
  | .wString, _ => []

/-- `load_value`: render a cell as text for the server. -/
def loadValue (F : FloatText) (d : BufferDscr) (cell : d.Cell) : Text := loadCell F cell

/-! ## What is loaded can be stored -/

/-- The types whose values survive the round trip: all the codec converts but the
    floating-point ones. -/
def RoundTrips (t : SqlType) : Prop :=
  t.category = .cString ∨ t.category = .bString ∨
    t ∈ [.tinyInt, .smallint, .integer, .bigint, .bit] ∨
    t ∈ [.date, .typeDate, .time, .typeTime, .timestamp, .typeTimestamp, .guid]

/-- A structure whose fields print in the width of their format. -/
def StructFits (t : SqlType) (v : t.cppType.Elem) : Prop :=
  match t with
  | .date => DateFits v
  | .typeDate => DateFits v
  | .time => TimeFits v
  | .typeTime => TimeFits v
  | .timestamp => TimestampFits v
  | .typeTimestamp => TimestampFits v
  | _ => True

/-- A cell with a value of its column: of a string, the indicator is the length. -/
def Fits {t : SqlType} {size : ℕ} : {cat : SqlCat} → Cell cat t size → Prop
  | .cString, cell => 0 ≤ cell.indicator.toInt ∧ cell.indicator.toInt ≤ size
  | .bString, cell => 0 ≤ cell.indicator.toInt ∧ cell.indicator.toInt ≤ size
  | .struct, cell => StructFits t cell.slot
  | _, _ => True

theorem storeAtomic_loadAtomic (F : FloatText) {t : SqlType}
    (ht : t ∈ [.tinyInt, .smallint, .integer, .bigint, .bit]) (v : t.cppType.Elem) :
    storeAtomic F t (loadAtomic F t v) = some v := by
  simp only [List.mem_cons, List.not_mem_nil, or_false] at ht
  rcases ht with rfl | rfl | rfl | rfl | rfl
  · exact parseInt_decimal (w := 8) v
  · exact parseInt_decimal (w := 16) v
  · exact parseInt_decimal (w := 32) v
  · exact parseInt_decimal (w := 64) v
  · cases (v : Bool) <;> rfl

theorem storeStructure_loadStructure {t : SqlType}
    (ht : t ∈ [.date, .typeDate, .time, .typeTime, .timestamp, .typeTimestamp, .guid])
    {v : t.cppType.Elem} (hv : StructFits t v) : storeStructure t (loadStructure t v) = some v := by
  simp only [List.mem_cons, List.not_mem_nil, or_false] at ht
  rcases ht with rfl | rfl | rfl | rfl | rfl | rfl | rfl
  · exact parseDate_formatDate hv
  · exact parseDate_formatDate hv
  · exact parseTime_formatTime hv
  · exact parseTime_formatTime hv
  · exact parseTimestamp_formatTimestamp hv
  · exact parseTimestamp_formatTimestamp hv
  · exact parseGuid_formatGuid v

/-- An indicator that is a length is one as `size_t`, and back. -/
theorem ofNat_asSize {i : Int32} (h : 0 ≤ i.toInt) : Int32.ofNat (asSize i) = i := by
  have hlt := i.toInt_lt
  have hsize : (asSize i : ℤ) = i.toInt := by rw [asSize]; omega
  refine Int32.toInt_inj.1 ?_
  rw [Int32.toInt_ofNat_of_lt (by omega), hsize]

/-- A length is no null indicator. -/
theorem length_of_nonneg {cat : SqlCat} {t : SqlType} {size : ℕ} (slot : Slot cat t size)
    {i : Int32} (h : 0 ≤ i.toInt) : Cell.length ⟨slot, i⟩ = asSize i := by
  refine if_neg fun hnull => ?_
  rw [← show nullData = i from hnull] at h
  exact absurd h (by decide)

section strings

variable {n size : ℕ} {a : Vector UInt8 n} {i : Int32}

/-- The number of bytes sent is the length. -/
theorem length_loadBytes (h₀ : 0 ≤ i.toInt) (h : i.toInt ≤ size) (hn : size ≤ n) :
    (loadBytes a i size).length = asSize i := by
  have hlt := i.toInt_lt
  have hsize : (asSize i : ℤ) = i.toInt := by rw [asSize]; omega
  rw [loadBytes, List.length_take, Vector.length_toList]
  omega

/-- The bytes sent are the string. -/
theorem loadBytes_eq (h₀ : 0 ≤ i.toInt) (h : i.toInt ≤ size) :
    loadBytes a i size = a.toList.take (asSize i) := by
  have hlt := i.toInt_lt
  have hsize : (asSize i : ℤ) = i.toInt := by rw [asSize]; omega
  rw [loadBytes, Nat.min_eq_left (by omega)]

/-- Bytes copied to an array, with or without a terminator, are read from it. -/
theorem take_overwrite_append (a : Vector UInt8 n) (bs rest : List UInt8)
    (h : (bs ++ rest).length ≤ n) :
    (overwrite a (bs ++ rest)).toList.take bs.length = bs := by
  have hall := take_overwrite a h
  calc (overwrite a (bs ++ rest)).toList.take bs.length
      = ((overwrite a (bs ++ rest)).toList.take (bs ++ rest).length).take bs.length := by
        rw [List.take_take, Nat.min_eq_left (by simp)]
    _ = bs := by rw [hall, List.take_left]

end strings

/-- A character string survives, in whatever cell it is stored. -/
theorem storeCString_loadCell (F : FloatText) {t : SqlType} {size : ℕ}
    {cell : Cell .cString t size} (old : Cell .cString t size) (h : Fits cell) :
    (storeCString old (loadCell F cell)).value = cell.value ∧
      (storeCString old (loadCell F cell)).indicator = cell.indicator := by
  obtain ⟨a, i⟩ := cell
  obtain ⟨h₀, h⟩ := h
  have hlen : (loadBytes a i size).length = asSize i := length_loadBytes h₀ h (by omega)
  have hle : (loadBytes a i size).length ≤ size := (List.length_take_le _ _).trans (by omega)
  have hnew : storeCString old (loadBytes a i size) =
      ⟨overwrite old.slot (loadBytes a i size ++ [0]), i⟩ := by
    rw [storeCString, Nat.min_eq_left hle, List.take_length, hlen, ofNat_asSize h₀]
  rw [loadCell, hnew]
  refine ⟨?_, rfl⟩
  calc (overwrite old.slot (loadBytes a i size ++ [0])).toList.take (Cell.length ⟨_, i⟩)
      = loadBytes a i size := by
        rw [length_of_nonneg _ h₀, ← hlen, take_overwrite_append _ _ _ (by simpa using hle)]
    _ = a.toList.take (Cell.length ⟨a, i⟩) := by
        rw [length_of_nonneg a h₀, loadBytes_eq h₀ h]

/-- A binary string survives, in whatever cell it is stored. -/
theorem storeBString_loadCell (F : FloatText) {t : SqlType} {size : ℕ}
    {cell : Cell .bString t size} (old : Cell .bString t size) (h : Fits cell) :
    (storeBString old (loadCell F cell)).value = cell.value ∧
      (storeBString old (loadCell F cell)).indicator = cell.indicator := by
  obtain ⟨a, i⟩ := cell
  obtain ⟨h₀, h⟩ := h
  have hlen : (loadBytes a i size).length = asSize i := length_loadBytes h₀ h le_rfl
  have hle : (loadBytes a i size).length ≤ size := (List.length_take_le _ _).trans (by omega)
  have hnew : storeBString old (encodeBytea (loadBytes a i size)) =
      ⟨overwrite old.slot (loadBytes a i size), i⟩ := by
    rw [storeBString, decodeBytea_encodeBytea, List.take_of_length_le hle, hlen, ofNat_asSize h₀]
  rw [loadCell, hnew]
  refine ⟨?_, rfl⟩
  calc (overwrite old.slot (loadBytes a i size)).toList.take (Cell.length ⟨_, i⟩)
      = loadBytes a i size := by rw [length_of_nonneg _ h₀, ← hlen, take_overwrite _ hle]
    _ = a.toList.take (Cell.length ⟨a, i⟩) := by
        rw [length_of_nonneg a h₀, loadBytes_eq h₀ h]

theorem mem_of_atomic {t : SqlType} (h : t.category = .atomic) (ht : RoundTrips t) :
    t ∈ [.tinyInt, .smallint, .integer, .bigint, .bit] := by
  cases t <;> simp_all [RoundTrips, SqlType.category]

theorem mem_of_struct {t : SqlType} (h : t.category = .struct) (ht : RoundTrips t) :
    t ∈ [.date, .typeDate, .time, .typeTime, .timestamp, .typeTimestamp, .guid] := by
  cases t <;> simp_all [RoundTrips, SqlType.category]

theorem category_ne_wString {t : SqlType} (ht : RoundTrips t) : t.category ≠ .wString := by
  cases t <;> simp_all [RoundTrips, SqlType.category]

/-- **Round trip.** What is loaded from a cell of a column can be stored into any cell of it,
    and has the same value there, a string with the same indicator. -/
theorem storeValue_loadValue (F : FloatText) (d : BufferDscr) (hd : RoundTrips d.type)
    (cell old : d.Cell) (h : Fits cell) :
    ∃ new, storeValue F d old (loadValue F d cell) = some new ∧ new.value = cell.value ∧
      (d.category = .cString ∨ d.category = .bString → new.indicator = cell.indicator) := by
  obtain ⟨name, cat, t, size, hcat⟩ := d
  cases cat with
  | atomic =>
    refine ⟨⟨cell.slot, old.indicator⟩, ?_, rfl, fun h => ?_⟩
    · exact storeCell_atomic old (storeAtomic_loadAtomic F (mem_of_atomic hcat.symm hd) cell.slot)
    · rcases h with h | h <;> cases h
  | struct =>
    refine ⟨⟨cell.slot, old.indicator⟩, ?_, rfl, fun h => ?_⟩
    · exact storeCell_struct F old (storeStructure_loadStructure (mem_of_struct hcat.symm hd) h)
    · rcases h with h | h <;> cases h
  | cString =>
    obtain ⟨hvalue, hind⟩ := storeCString_loadCell F old h
    exact ⟨_, rfl, hvalue, fun _ => hind⟩
  | bString =>
    obtain ⟨hvalue, hind⟩ := storeBString_loadCell F old h
    exact ⟨_, rfl, hvalue, fun _ => hind⟩
  | wString => exact absurd hcat.symm (category_ne_wString hd)

/-- A column of timestamps. -/
def createdAt : BufferDscr := ⟨"created_at", .struct, .typeTimestamp, 16, rfl⟩

/-- Conversions for a program without floating-point columns. -/
def noFloats : FloatText := ⟨fun _ => none, fun _ => none, fun _ => [], fun _ => []⟩

/-- A timestamp, to the nanosecond, stored over another one. -/
theorem storeValue_loadValue_timestamp :
    ∃ new, storeValue noFloats createdAt ⟨⟨1999, 12, 31, 23, 59, 59, 999999999⟩, nullData⟩
        (loadValue noFloats createdAt ⟨⟨2026, 7, 31, 13, 45, 7, 1000⟩, 16⟩) = some new ∧
      Cell.value new = Cell.value (⟨⟨2026, 7, 31, 13, 45, 7, 1000⟩, 16⟩ : createdAt.Cell) ∧
      (createdAt.category = .cString ∨ createdAt.category = .bString → new.indicator = 16) :=
  storeValue_loadValue noFloats createdAt (by unfold RoundTrips; decide)
    ⟨⟨2026, 7, 31, 13, 45, 7, 1000⟩, 16⟩ ⟨⟨1999, 12, 31, 23, 59, 59, 999999999⟩, nullData⟩
    (show TimestampFits _ from
      ⟨by decide, by decide, by decide, by decide, by decide, by decide, by decide⟩)

end Dbgen4.Psql
