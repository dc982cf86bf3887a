import Mathlib.Data.List.TakeDrop
import Dbgen4.Numeral
import Dbgen4.Psql.Codec

/-!
# Describing a statement

What the generator learns from a PostgreSQL server about the columns and
parameters of a statement: the translation of type OIDs, and the width it gives a
column (`psql/psql_types.hpp`), which the generator puts into the buffer and the
runtime then cuts the texts of the server to (`store_c_string`).

The width is that of the declaration, in characters, and that of the buffer is in
bytes; a `numeric` has a fixed one. Which values are stored whole, and of which
columns all are, is `storedWhole_iff`.
-/

namespace Dbgen4.Psql

open Rtl Numeral

/-! ## Types and widths -/

/-- `psql::from_oid`. -/
def fromOid (oid : UInt32) : SqlType :=
  match oid with
  | 16 => .bit
  | 21 => .smallint
  | 23 => .integer
  | 20 => .bigint
  | 26 => .bigint
  | 700 => .real
  | 701 => .double
  | 18 => .char
  | 1042 => .char
  | 19 => .varChar
  | 1043 => .varChar
  | 25 => .longVarChar
  | 114 => .longVarChar
  | 3802 => .longVarChar
  | 142 => .xml
  | 1700 => .numeric
  | 17 => .varBinary
  | 1560 => .varBinary
  | 1562 => .varBinary
  | 1082 => .typeDate
  | 1083 => .typeTime
  | 1266 => .typeTime
  | 1114 => .typeTimestamp
  | 1184 => .typeTimestamp
  | 1186 => .intervalDayToSecond
  | 2950 => .guid
  | _ => .unknown

/-- `psql::column_width`. -/
def columnWidth (oid : UInt32) (typmod size : Int32) : UInt32 :=
  match oid with
  | 1042 => if 4 < typmod.toInt then typmod.toUInt32 - 4 else 0
  | 1043 => if 4 < typmod.toInt then typmod.toUInt32 - 4 else 0
  | 1700 => 64
  | 2950 => 36
  | 25 => 0
  | 114 => 0
  | 3802 => 0
  | 142 => 0
  | 17 => 0
  | 1560 => 0
  | 1562 => 0
  | 19 => 0
  | _ => if 0 < size.toInt then size.toUInt32 else 0

/-- `psql::column_scale`. -/
def columnScale (oid : UInt32) (typmod : Int32) : Int16 :=
  if oid ≠ 1700 ∨ typmod.toInt < 4 then 0
  else ((typmod.toUInt32 - 4) &&& 0xffff).toUInt16.toInt16

/-- A result column, as libpq describes it: `PQfname`, `PQftype`, `PQfmod` and `PQfsize`. -/
structure PGattribute where
  name : String
  type : UInt32
  typmod : Int32
  size : Int32
  deriving DecidableEq

/-- What `PQdescribePrepared` returns. -/
structure PGdescription where
  paramTypes : List UInt32
  columns : List PGattribute
  deriving DecidableEq

/-- The description of a parameter in `get_sql_metadata`. -/
def paramDscr (i : ℕ) (oid : UInt32) : MetaDscr where
  index := Int16.ofNat (i + 1)
  name := s!"par_{i + 1}"
  type := fromOid oid
  nativeType := oid.toInt32
  size := columnWidth oid (-1) (-1)
  digits := 0
  nullable := 1

/-- The description of a result column in `get_sql_metadata`. -/
def columnDscr (i : ℕ) (a : PGattribute) : MetaDscr where
  index := Int16.ofNat (i + 1)
  name := a.name.map Char.toLower
  type := fromOid a.type
  nativeType := a.type.toInt32
  size := columnWidth a.type a.typmod a.size
  digits := columnScale a.type a.typmod
  nullable := 1

/-- The metadata of a statement. -/
def PGdescription.metadata (desc : PGdescription) : QryMetadata where
  columns := desc.columns.mapIdx columnDscr
  params := desc.paramTypes.mapIdx paramDscr

/-! ## Declared columns -/

/-- A column declared with a width. -/
inductive Declared
  /-- `char(n)`. -/
  | char (n : ℕ) (pos : 0 < n) (lt : n + 4 < 2 ^ 31)
  /-- `varchar(n)`. -/
  | varchar (n : ℕ) (pos : 0 < n) (lt : n + 4 < 2 ^ 31)
  /-- `numeric(p,s)`. -/
  | numeric (p s : ℕ) (pos : 0 < p)

namespace Declared

/-- The OID of its type. -/
def oid : Declared → UInt32
  | char .. => 1042
  | varchar .. => 1043
  | numeric .. => 1700

/-- The modifier of its type. -/
def typmod : Declared → Int32
  | char n .. | varchar n .. => Int32.ofNat (n + 4)
  | numeric p s _ => Int32.ofNat ((p <<< 16 ||| s) + 4)

/-- The description in the generated buffer, where the yaml file gives the column no width. -/
def dscr (col : Declared) (name : String) : BufferDscr where
  name := name
  category := .cString
  type := fromOid col.oid
  columnSize := columnWidth col.oid col.typmod (-1)
  category_eq := by cases col <;> rfl

/-- A value of the column. That of a `numeric` has its digits before and after the point, and may
    be `NaN`. -/
def Value : Declared → Type
  | char n .. => {cs : List Char // cs.length = n}
  | varchar n .. => {cs : List Char // cs.length ≤ n}
  | numeric p _ _ => Option {c : ℤ // c.natAbs < 10 ^ p}

/-- A number with `s` digits after the point, as the server prints it. -/
def numericText (s : ℕ) (c : ℤ) : Text :=
  (if c < 0 then [ascii '-'] else []) ++ numeral 10 (c.natAbs / 10 ^ s) ++
    if s = 0 then [] else ascii '.' :: fixed 10 s (c.natAbs % 10 ^ s)

/-- The text that the server sends for a value. -/
def text : (col : Declared) → col.Value → Text
  | char .., cs => cs.val.flatMap String.utf8EncodeChar
  | varchar .., cs => cs.val.flatMap String.utf8EncodeChar
  | numeric .., none => [ascii 'N', ascii 'a', ascii 'N']
  | numeric _ s _, some c => numericText s c.val

/-- The value is stored whole: the getter returns the text of the server. -/
def StoredWhole (F : FloatText) (col : Declared) (name : String) (cell : (col.dscr name).Cell)
    (v : col.Value) : Prop :=
  ∃ cell' : (col.dscr name).Cell, storeValue F (col.dscr name) cell (col.text v) = some cell' ∧
    Cell.value cell' = col.text v

/-- The text of the value fits the width. -/
def Fits : (col : Declared) → col.Value → Prop
  | char n .., cs => (cs.val.map Char.utf8Size).sum ≤ n
  | varchar n .., cs => (cs.val.map Char.utf8Size).sum ≤ n
  | numeric .., none => True
  | numeric _ s _, some c =>
    (if c.val < 0 then 1 else 0) + (numeral 10 (c.val.natAbs / 10 ^ s)).length +
      (if s = 0 then 0 else s + 1) ≤ 64

/-- The texts of all values fit the width: of a character column never, of a `numeric` when its
    longest number does. -/
def AllFit : Declared → Prop
  | char .. | varchar .. => False
  | numeric p s _ => 1 + max 1 (p - s) + (if s = 0 then 0 else s + 1) ≤ 64

/-! ### Storing a text -/

/-- A text is stored up to the width of the column. -/
theorem value_storeCString {t : SqlType} {size : ℕ} (cell : Cell .cString t size) (text : Text)
    (hsize : size < 2 ^ 31) : (storeCString cell text).value = text.take size := by
  have hlt : min text.length size < 2 ^ 31 := by omega
  have hlen : min text.length size = (text.take size).length := by
    rw [List.length_take, Nat.min_comm]
  have htake : text.take (min text.length size) = text.take size := by
    rw [Nat.min_comm, ← List.take_take, List.take_length]
  calc (storeCString cell text).value
      = (overwrite cell.slot (text.take size ++ [0])).toList.take (text.take size).length := by
        rw [storeCString, htake]
        change List.take (Cell.length _) _ = _
        rw [Cell.length_ofNat _ hlt, hlen]
    _ = text.take size := take_overwrite_append _ _ _ (by simp)

theorem columnWidth_of_typmod {oid : UInt32} (h : oid = 1042 ∨ oid = 1043) {n : ℕ} (pos : 0 < n)
    (lt : n + 4 < 2 ^ 31) (size : Int32) :
    (columnWidth oid (Int32.ofNat (n + 4)) size).toNat = n := by
  have hint : (Int32.ofNat (n + 4)).toInt = (n + 4 : ℕ) := Int32.toInt_ofNat_of_lt lt
  have hwidth : ((Int32.ofNat (n + 4)).toUInt32 - 4).toNat = n := by
    have huint : (Int32.ofNat (n + 4)).toUInt32 = UInt32.ofNat (n + 4) := rfl
    have hnat : (UInt32.ofNat (n + 4)).toNat = n + 4 :=
      UInt32.toNat_ofNat_of_lt' (Nat.lt_of_lt_of_le lt (by decide))
    rw [huint, UInt32.toNat_sub_of_le, hnat]
    · exact Nat.add_sub_cancel n 4
    · rw [UInt32.le_iff_toNat_le, hnat]
      exact Nat.le_add_left 4 n
  rcases h with rfl | rfl
  · exact (congrArg UInt32.toNat (if_pos (by rw [hint]; omega))).trans hwidth
  · exact (congrArg UInt32.toNat (if_pos (by rw [hint]; omega))).trans hwidth

/-- The width in the generated buffer. -/
def width : Declared → ℕ
  | char n .. | varchar n .. => n
  | numeric .. => 64

theorem columnSize_dscr (col : Declared) (name : String) :
    (col.dscr name).columnSize.toNat = col.width := by
  cases col with
  | char n pos lt => exact columnWidth_of_typmod (.inl rfl) pos lt (-1)
  | varchar n pos lt => exact columnWidth_of_typmod (.inr rfl) pos lt (-1)
  | numeric => rfl

theorem width_lt (col : Declared) : col.width < 2 ^ 31 := by
  cases col with
  | char n pos lt => exact Nat.lt_of_add_right_lt lt
  | varchar n pos lt => exact Nat.lt_of_add_right_lt lt
  | numeric => exact show 64 < 2 ^ 31 by decide

/-- A text is stored whole just if it has no more bytes than the width. -/
theorem storedWhole_iff_length {F : FloatText} {col : Declared} {name : String}
    {cell : (col.dscr name).Cell} {v : col.Value} :
    StoredWhole F col name cell v ↔ (col.text v).length ≤ col.width := by
  have hvalue : (storeCString cell (col.text v)).value = (col.text v).take col.width := by
    rw [← columnSize_dscr col name]
    exact value_storeCString _ _ ((columnSize_dscr col name).symm ▸ col.width_lt)
  constructor
  · rintro ⟨cell', hstore, hwhole⟩
    cases Option.some.inj hstore
    exact (List.take_eq_self_iff _).1 (hvalue.symm.trans hwhole)
  · intro h
    exact ⟨_, rfl, hvalue.trans (List.take_of_length_le h)⟩

/-! ### The lengths of texts -/

theorem length_flatMap_utf8EncodeChar (cs : List Char) :
    (cs.flatMap String.utf8EncodeChar).length = (cs.map Char.utf8Size).sum := by
  rw [List.length_flatMap]
  simp only [String.length_utf8EncodeChar]

theorem length_numericText (s : ℕ) (c : ℤ) : (numericText s c).length =
    (if c < 0 then 1 else 0) + (numeral 10 (c.natAbs / 10 ^ s)).length +
      (if s = 0 then 0 else s + 1) := by
  rw [numericText, List.length_append, List.length_append]
  split <;> split <;> simp

theorem length_text_le_iff (col : Declared) (v : col.Value) :
    (col.text v).length ≤ col.width ↔ col.Fits v := by
  cases col with
  | char => exact iff_of_eq (congrArg (· ≤ _) (length_flatMap_utf8EncodeChar _))
  | varchar => exact iff_of_eq (congrArg (· ≤ _) (length_flatMap_utf8EncodeChar _))
  | numeric p s pos =>
    cases v with
    | none => exact iff_of_true (show 3 ≤ 64 by omega) trivial
    | some c => exact iff_of_eq (congrArg (· ≤ _) (length_numericText _ _))

/-- The digits before the point of the numbers of a `numeric(p,s)`, -/
theorem length_numeral_div_le {p s n : ℕ} (h : n < 10 ^ p) :
    (numeral 10 (n / 10 ^ s)).length ≤ max 1 (p - s) := by
  refine (length_numeral_le (by omega) (by omega) _).2 (Nat.div_lt_of_lt_mul ?_)
  calc n < 10 ^ p := h
    _ ≤ 10 ^ (s + max 1 (p - s)) := Nat.pow_le_pow_right (by omega) (by omega)
    _ = 10 ^ s * 10 ^ max 1 (p - s) := Nat.pow_add ..

/-- and those of the largest one. -/
theorem length_numeral_div_largest {p s : ℕ} :
    max 1 (p - s) ≤ (numeral 10 ((10 ^ p - 1) / 10 ^ s)).length := by
  have hpos : 0 < (numeral 10 ((10 ^ p - 1) / 10 ^ s)).length :=
    List.length_pos_iff.2 (numeral_ne_nil 10 _)
  by_contra hlt
  -- It would have fewer digits than there are positions before the point.
  have hlt : (numeral 10 ((10 ^ p - 1) / 10 ^ s)).length ≤ p - s - 1 := by omega
  have hps : p = (p - s - 1) + 1 + s := by omega
  have hdiv := (length_numeral_le (by omega) (by omega) _).1 hlt
  have hlow : 10 ^ (p - s - 1) ≤ (10 ^ p - 1) / 10 ^ s := by
    refine (Nat.le_div_iff_mul_le (Nat.pow_pos (by omega))).2 ?_
    have hpow : 10 ^ (p - s - 1) * 10 ^ s * 10 = 10 ^ p := by
      conv_rhs => rw [hps, Nat.pow_add, Nat.pow_succ]
      ring
    have : 0 < 10 ^ (p - s - 1) * 10 ^ s := by positivity
    omega
  exact Nat.not_lt.2 hlow hdiv

/-- Of which columns all texts fit. -/
theorem allFit_iff (col : Declared) : (∀ v, col.Fits v) ↔ col.AllFit := by
  cases col with
  | char n pos lt =>
    refine iff_of_false (fun h => ?_) id
    have hn : (List.map Char.utf8Size (List.replicate n 'é')).sum ≤ n :=
      h ⟨List.replicate n 'é', List.length_replicate⟩
    rw [List.map_replicate, List.sum_replicate_nat] at hn
    have : n * 2 ≤ n := hn
    omega
  | varchar n pos lt =>
    refine iff_of_false (fun h => ?_) id
    have hn : (List.map Char.utf8Size (List.replicate n 'é')).sum ≤ n :=
      h ⟨List.replicate n 'é', Nat.le_of_eq List.length_replicate⟩
    rw [List.map_replicate, List.sum_replicate_nat] at hn
    have : n * 2 ≤ n := hn
    omega
  | numeric p s pos =>
    constructor
    · intro h
      have hpow : 1 < 10 ^ p := Nat.one_lt_pow (by omega) (by omega)
      have habs : (-(10 ^ p - 1 : ℕ) : ℤ).natAbs = 10 ^ p - 1 := by omega
      have hlargest : (if (-(10 ^ p - 1 : ℕ) : ℤ) < 0 then 1 else 0) +
          (numeral 10 ((-(10 ^ p - 1 : ℕ) : ℤ).natAbs / 10 ^ s)).length +
            (if s = 0 then 0 else s + 1) ≤ 64 := h (some ⟨-(10 ^ p - 1 : ℕ), by omega⟩)
      rw [habs, if_pos (by omega)] at hlargest
      have hdigits := length_numeral_div_largest (p := p) (s := s)
      show 1 + max 1 (p - s) + (if s = 0 then 0 else s + 1) ≤ 64
      omega
    · rintro (h : 1 + max 1 (p - s) + (if s = 0 then 0 else s + 1) ≤ 64) v
      cases v with
      | none => trivial
      | some c =>
        have hdigits := length_numeral_div_le (s := s) c.property
        show (if c.val < 0 then 1 else 0) + (numeral 10 (c.val.natAbs / 10 ^ s)).length +
          (if s = 0 then 0 else s + 1) ≤ 64
        split <;> omega

end Declared

/-- **Which texts are stored whole**: a value of a declared column whose text fits the width in
    bytes, and no other; and of which columns all values are. -/
theorem storedWhole_iff (F : FloatText) (col : Declared) (name : String)
    (cell : (col.dscr name).Cell) :
    (∀ v, col.StoredWhole F name cell v ↔ col.Fits v) ∧
      ((∀ v, col.StoredWhole F name cell v) ↔ col.AllFit) := by
  have h : ∀ v, col.StoredWhole F name cell v ↔ col.Fits v := fun v =>
    Declared.storedWhole_iff_length.trans (col.length_text_le_iff v)
  exact ⟨h, (forall_congr' h).trans col.allFit_iff⟩

/-- A letter that is two bytes long in a `varchar(1)`, and a number of seventy digits in a
    `numeric(70,0)`. -/
theorem not_storedWhole :
    (∀ cell, ¬Declared.StoredWhole noFloats (.varchar 1 (by decide) (by decide)) "initial" cell
      ⟨['é'], by decide⟩) ∧
    ∀ cell, ¬Declared.StoredWhole noFloats (.numeric 70 0 (by decide)) "amount" cell
      (some ⟨10 ^ 69, by decide⟩) := by
  refine ⟨fun cell h => ?_, fun cell h => ?_⟩
  · have hlen : 2 ≤ 1 := (Declared.length_text_le_iff ..).1 (Declared.storedWhole_iff_length.1 h)
    exact absurd hlen (by decide)
  · have hlen : 0 + (numeral 10 (10 ^ 69 / 10 ^ 0)).length + 0 ≤ 64 :=
      (Declared.length_text_le_iff ..).1 (Declared.storedWhole_iff_length.1 h)
    rw [Nat.zero_add, Nat.add_zero, length_numeral_le (by decide) (by decide)] at hlen
    exact absurd hlen (by decide)

end Dbgen4.Psql
