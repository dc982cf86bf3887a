import Dbgen4.Psql.Query
import Dbgen4.StdVector

/-!
# A row of parameters as pointers to C strings

`marshal_row` renders a row of the parameter buffer into strings, and hands libpq pointers
to their characters. A short string has its characters in itself, and they move when the
vector of the strings is reallocated; so the pointers are taken once more when it does not
grow any more (`readPtr_marshalMemory`). libpq gets no lengths and reads each text up to its first
NUL: a character string which has one does not arrive in full (`rowSent_iff`).
-/

namespace Dbgen4.Psql

open Rtl Numeral

/-! ## Strings and pointers to their characters -/

/-- A `std::string`: its text, and the allocation that holds it unless it is a short one. The
    allocation goes with the string when it is moved. -/
structure StdString where
  text : Text
  heap : Option ℕ

/-- A new string; up to `short` characters it keeps in itself. -/
def StdString.make (short i : ℕ) (text : Text) : StdString :=
  ⟨text, if text.length ≤ short then none else some i⟩

/-- A `const char*`: to what is inside an element of a vector, or to an allocation. -/
inductive CharPtr
  | inside (block index : ℕ)
  | heap (i : ℕ)
  deriving DecidableEq, Repr

/-- `holders`. -/
abbrev Holders := StdVector ℕ StdString

namespace Holders

variable (h : Holders)

/-- `c_str()` of an element. -/
def ptr (i : ℕ) : Option CharPtr :=
  h.data[i]?.map fun s => match s.heap with
    | none => .inside h.block i
    | some a => .heap a

/-- The text that a pointer leads to; none when it dangles. -/
def target : CharPtr → Option Text
  | .inside block i =>
    if block = h.block then (h.data[i]?.filter fun s => s.heap = none).map (·.text) else none
  | .heap a => (h.data.find? fun s => s.heap = some a).map (·.text)

/-- What libpq reads: the text up to its first NUL. -/
def readPtr (p : CharPtr) : Option Text := (h.target p).map Query.cStr

end Holders

/-! ## marshal_row -/

/-- The vectors that `marshal_row` fills. -/
structure Marshalled where
  holders : Holders
  values : List (Option CharPtr)

/-- Before the first column: `reserve(n)` on empty vectors. -/
def Marshalled.start (G : Growth) (n : ℕ) : Marshalled := ⟨(StdVector.empty 0).reserve G 1 n, []⟩

/-- The text of a column; of a null column there is none. -/
def holderText (F : FloatText) (c : (d : BufferDscr) × d.Cell) : Text :=
  if c.2.indicator = nullData then [] else loadValue F c.1 c.2

/-- The first loop of `marshal_row`, one column. -/
def marshalColumn (G : Growth) (short : ℕ) (F : FloatText) (m : Marshalled)
    (c : (d : BufferDscr) × d.Cell) : Marshalled :=
  let i := m.holders.size
  let holders : Holders := m.holders.push G (i + 2) (.make short i (holderText F c))
  ⟨holders, m.values ++ [if c.2.indicator = nullData then none else holders.ptr i]⟩

/-- `marshal_row`: the second loop takes the pointers again. -/
def marshalMemory (G : Growth) (short : ℕ) (F : FloatText)
    (cells : List ((d : BufferDscr) × d.Cell)) : Marshalled :=
  let m := cells.foldl (marshalColumn G short F) (.start G cells.length)
  { m with values := m.values.mapIdx fun i p => p.bind fun _ => m.holders.ptr i }

/-- The cells of a row of a buffer. -/
def rowCells (b : Buffer) (row : Fin b.rows) : List ((d : BufferDscr) × d.Cell) :=
  b.columns.map fun col => ⟨col.dscr, col.cells.get row⟩

/-! ## What the pointers lead to -/

section

variable {G : Growth} {short : ℕ} {F : FloatText}

/-- The pointer to a string leads to its text. -/
theorem target_ptr {h : Holders} {texts : List Text}
    (hdata : h.data = texts.mapIdx (StdString.make short)) {i : ℕ} {text : Text}
    (hi : texts[i]? = some text) : ∃ p, h.ptr i = some p ∧ h.target p = some text := by
  have hget : h.data[i]? = some (StdString.make short i text) := by
    rw [hdata, List.getElem?_mapIdx, hi, Option.map_some]
  by_cases hshort : text.length ≤ short
  · have hmake : StdString.make short i text = ⟨text, none⟩ := by rw [StdString.make, if_pos hshort]
    refine ⟨.inside h.block i, ?_, ?_⟩
    · rw [Holders.ptr, hget, hmake, Option.map_some]
    · rw [Holders.target, if_pos rfl, hget, hmake]
      rfl
  · have hmake : StdString.make short i text = ⟨text, some i⟩ := by
      rw [StdString.make, if_neg hshort]
    refine ⟨.heap i, ?_, ?_⟩
    · rw [Holders.ptr, hget, hmake, Option.map_some]
    · -- No string before this one has its allocation.
      have hfind : h.data.find? (fun s => s.heap = some i) = some ⟨text, some i⟩ := by
        obtain ⟨hlt, hat⟩ := List.getElem?_eq_some_iff.1 hget
        refine List.find?_eq_some_iff_getElem.2 ⟨by simp, i, hlt, hat.trans hmake, fun j hj => ?_⟩
        simp only [hdata, List.getElem_mapIdx, StdString.make]
        split
        · simp
        · simp
          omega
      rw [Holders.target, hfind, Option.map_some]

/-- The strings hold the texts of the columns, in order, and null pointers stand for NULL. -/
structure Holds (short : ℕ) (F : FloatText) (cells : List ((d : BufferDscr) × d.Cell))
    (m : Marshalled) : Prop where
  data : m.holders.data = (cells.map (holderText F)).mapIdx (StdString.make short)
  isSome : m.values.map Option.isSome = cells.map fun c => decide (c.2.indicator ≠ nullData)

theorem Holds.size {cells : List ((d : BufferDscr) × d.Cell)} {m : Marshalled}
    (h : Holds short F cells m) : m.holders.size = cells.length := by
  rw [StdVector.size, h.data, List.length_mapIdx, List.length_map]

/-- One column more. -/
theorem Holds.column {cells : List ((d : BufferDscr) × d.Cell)} {m : Marshalled}
    (h : Holds short F cells m) (c : (d : BufferDscr) × d.Cell) :
    Holds short F (cells ++ [c]) (marshalColumn G short F m c) := by
  have hdata : (marshalColumn G short F m c).holders.data =
      ((cells ++ [c]).map (holderText F)).mapIdx (StdString.make short) := by
    rw [marshalColumn, StdVector.data_push, h.data, h.size, List.map_append, List.map_singleton,
      List.mapIdx_append, List.length_map]
    simp
  refine ⟨hdata, ?_⟩
  have hlast : ((cells ++ [c]).map (holderText F))[cells.length]? = some (holderText F c) := by simp
  obtain ⟨p, hp, -⟩ := target_ptr hdata hlast
  rw [marshalColumn] at hp ⊢
  rw [h.size] at hp ⊢
  simp only at hp ⊢
  rw [List.map_append, List.map_append, h.isSome, hp]
  by_cases hnull : c.2.indicator = nullData <;> simp [hnull]

/-- After the first loop. -/
theorem holds_loop (G : Growth) (short : ℕ) (F : FloatText)
    (cells : List ((d : BufferDscr) × d.Cell)) (n : ℕ) :
    Holds short F cells (cells.foldl (marshalColumn G short F) (.start G n)) := by
  induction cells using List.reverseRecOn with
  | nil => exact ⟨StdVector.data_reserve _, rfl⟩
  | append_singleton cells c ih =>
    rw [List.foldl_append]
    exact ih.column c

theorem length_values (G : Growth) (short : ℕ) (F : FloatText)
    (cells : List ((d : BufferDscr) × d.Cell)) :
    (marshalMemory G short F cells).values.length = cells.length := by
  have hholds := holds_loop G short F cells cells.length
  have hlen := congrArg List.length hholds.isSome
  rw [List.length_map, List.length_map] at hlen
  rw [marshalMemory, List.length_mapIdx, hlen]

/-- What libpq finds for a column: nothing for NULL, and else the text up to its first NUL. -/
theorem readPtr_values (G : Growth) (short : ℕ) (F : FloatText)
    (cells : List ((d : BufferDscr) × d.Cell)) {i : ℕ} {c : (d : BufferDscr) × d.Cell}
    (hc : cells[i]? = some c) :
    (c.2.indicator = nullData ∧ (marshalMemory G short F cells).values[i]? = some none) ∨
      c.2.indicator ≠ nullData ∧ ∃ p, (marshalMemory G short F cells).values[i]? = some (some p) ∧
        (marshalMemory G short F cells).holders.readPtr p =
          some (Query.cStr (loadValue F c.1 c.2)) := by
  have hholds := holds_loop G short F cells cells.length
  have htext : (cells.map (holderText F))[i]? = some (holderText F c) := by
    rw [List.getElem?_map, hc, Option.map_some]
  obtain ⟨p, hp, htarget⟩ := target_ptr hholds.data htext
  have hsome := congrArg (·[i]?) hholds.isSome
  simp only [List.getElem?_map, hc, Option.map_some, Option.map_eq_some_iff] at hsome
  obtain ⟨q, hq, hnull⟩ := hsome
  have hvalue : (marshalMemory G short F cells).values[i]? = some (q.bind fun _ => some p) := by
    rw [marshalMemory, List.getElem?_mapIdx, hq, Option.map_some, ← hp]
  by_cases hind : c.2.indicator = nullData
  · have hnone : q = none := by simpa [hind] using hnull
    exact .inl ⟨hind, by rw [hvalue, hnone, Option.bind_none]⟩
  · obtain ⟨q, rfl⟩ : ∃ q', q = some q' := Option.isSome_iff_exists.1 (by simpa [hind] using hnull)
    refine .inr ⟨hind, p, hvalue, ?_⟩
    have hread : (marshalMemory G short F cells).holders.target p = some (holderText F c) := htarget
    rw [Holders.readPtr, hread, holderText, if_neg hind, Option.map_some]

/-- What libpq reads through the pointers is what the row is in the texts of its columns. -/
theorem readPtr_marshalMemory (G : Growth) (short : ℕ) (F : FloatText) (b : Buffer)
    (row : Fin b.rows) :
    (marshalMemory G short F (rowCells b row)).values.map
        (fun p => p.bind (marshalMemory G short F (rowCells b row)).holders.readPtr) =
      Query.marshalRow F b row := by
  refine List.ext_getElem? fun i => ?_
  have hmarshal : (Query.marshalRow F b row)[i]? =
      (rowCells b row)[i]?.map fun c => Query.marshalCell F c.1 c.2 := by
    rw [Query.marshalRow, rowCells, List.getElem?_map, List.getElem?_map, Option.map_map]
    refine congrArg (b.columns[i]?.map ·) (funext fun col => ?_)
    exact congrArg (Option.bind · _) (Vector.getElem?_eq_getElem row.isLt)
  rw [hmarshal, List.getElem?_map]
  cases hc : (rowCells b row)[i]? with
  | none =>
    have hlen : (marshalMemory G short F (rowCells b row)).values.length =
        (rowCells b row).length := length_values G short F _
    rw [List.getElem?_eq_none_iff.2 (hlen ▸ List.getElem?_eq_none_iff.1 hc)]
    rfl
  | some c =>
    rcases readPtr_values G short F (rowCells b row) hc with ⟨hnull, hvalue⟩ | ⟨hnull, p, hval, hp⟩
    · rw [hvalue, Option.map_some, Option.map_some, Option.bind_none, Query.marshalCell,
        if_pos hnull]
    · rw [hval, Option.map_some, Option.map_some, Option.bind_some, hp, Query.marshalCell,
        if_neg hnull]

end

/-! ## Texts without NUL -/

theorem cStr_eq_self_iff {t : Text} : Query.cStr t = t ↔ 0 ∉ t := by
  rw [Query.cStr, List.takeWhile_eq_self_iff]
  simp only [ne_eq, decide_not, Bool.not_eq_eq_eq_not, Bool.not_true, decide_eq_false_iff_not]
  exact ⟨fun h hz => h 0 hz rfl, fun h c hc hz => h (hz ▸ hc)⟩

theorem digit_ne_zero {d : ℕ} (h : d < 16) : digit d ≠ 0 := by
  revert h d
  decide

theorem zero_notMem_fixed {w n : ℕ} : 0 ∉ fixed 10 w n := fun h => by
  obtain ⟨d, hd, hz⟩ := mem_fixed (by omega) h
  exact digit_ne_zero (by omega) hz.symm

theorem zero_notMem_hexDigits {w n : ℕ} : 0 ∉ fixed 16 w n := fun h => by
  obtain ⟨d, hd, hz⟩ := mem_fixed (by omega) h
  exact digit_ne_zero hd hz.symm

theorem zero_notMem_pad {w n : ℕ} : 0 ∉ pad w (numeral 10 n) := fun h => by
  rcases List.mem_append.1 h with h | h
  · exact digit_ne_zero (by omega) (List.eq_of_mem_replicate h).symm
  · rw [numeral_eq_fixed (by omega)] at h
    exact zero_notMem_fixed h

theorem zero_notMem_decimal (v : ℤ) : 0 ∉ decimal v := by
  have hdigits : 0 ∉ numeral 10 v.natAbs := by
    rw [numeral_eq_fixed (by omega)]
    exact zero_notMem_fixed
  rw [decimal]
  split
  · exact List.not_mem_cons_of_ne_of_not_mem (by decide) hdigits
  · exact hdigits

theorem zero_notMem_zeroPadded (w : ℕ) (v : ℤ) : 0 ∉ zeroPadded w v := by
  rw [zeroPadded]
  split
  · exact List.not_mem_cons_of_ne_of_not_mem (by decide) zero_notMem_pad
  · exact zero_notMem_pad

theorem zero_notMem_ascii : (0 : UInt8) ≠ ascii '-' ∧ (0 : UInt8) ≠ ascii ':' ∧
    (0 : UInt8) ≠ ascii ' ' ∧ (0 : UInt8) ≠ ascii '.' := by decide

theorem zero_notMem_formatDate (v : Date) : 0 ∉ formatDate v := by
  simp [formatDate, zero_notMem_zeroPadded, zero_notMem_ascii]

theorem zero_notMem_formatTime (v : Time) : 0 ∉ formatTime v := by
  simp [formatTime, zero_notMem_zeroPadded, zero_notMem_ascii]

theorem zero_notMem_formatTimestamp (v : Timestamp) : 0 ∉ formatTimestamp v := by
  simp [formatTimestamp, zero_notMem_zeroPadded, zero_notMem_ascii]

theorem zero_notMem_formatGuid (v : Guid) : 0 ∉ formatGuid v := by
  rw [formatGuid, Guid.format_eq]
  simp [zero_notMem_hexDigits, zero_notMem_ascii]

theorem zero_notMem_encodeBytea (bytes : List UInt8) : 0 ∉ encodeBytea bytes := by
  have hprefix : 0 ∉ [ascii '\\', ascii 'x'] := by decide
  have hpairs : 0 ∉ bytes.flatMap fun b => hex 2 b.toNat := fun h => by
    obtain ⟨b, -, hb⟩ := List.mem_flatMap.1 h
    rw [hex_byte] at hb
    exact zero_notMem_hexDigits hb
  exact fun h => (List.mem_append.1 h).elim hprefix hpairs

/-- The conversions of floating-point values print no NUL. -/
structure FloatText.Printable (F : FloatText) : Prop where
  formatFloat (v : UInt32) : 0 ∉ F.formatFloat v
  formatDouble (v : UInt64) : 0 ∉ F.formatDouble v

theorem zero_notMem_loadBool (b : Bool) : 0 ∉ loadBool b := by
  revert b
  decide

theorem zero_notMem_loadAtomic {F : FloatText} (hF : F.Printable) (t : SqlType)
    (v : t.cppType.Elem) : 0 ∉ loadAtomic F t v := by
  unfold loadAtomic
  split
  · exact zero_notMem_decimal _
  · exact zero_notMem_decimal _
  · exact zero_notMem_decimal _
  · exact zero_notMem_decimal _
  · exact hF.formatFloat _
  · exact hF.formatDouble _
  · exact hF.formatDouble _
  · exact zero_notMem_loadBool _
  · exact List.not_mem_nil

theorem zero_notMem_loadStructure (t : SqlType) (v : t.cppType.Elem) :
    0 ∉ loadStructure t v := by
  unfold loadStructure
  split
  · exact zero_notMem_formatDate _
  · exact zero_notMem_formatDate _
  · exact zero_notMem_formatTime _
  · exact zero_notMem_formatTime _
  · exact zero_notMem_formatTimestamp _
  · exact zero_notMem_formatTimestamp _
  · exact zero_notMem_formatGuid _
  · exact List.not_mem_nil

/-- A character string has no NUL among the characters that its indicator and the width of its
    column make part of it. -/
def NoNul {t : SqlType} {size : ℕ} : {cat : SqlCat} → Cell cat t size → Prop
  | .cString, cell => ∀ j < min (asSize cell.indicator) size,
      (cell.slot : Vector UInt8 (size + 1))[j]? ≠ some 0
  | _, _ => True

theorem notMem_take_iff {n k : ℕ} {a : Vector UInt8 n} {c : UInt8} :
    c ∉ a.toList.take k ↔ ∀ j < k, a[j]? ≠ some c := by
  simp only [List.mem_iff_getElem?, List.getElem?_take, not_exists]
  refine forall_congr' fun j => ?_
  split
  · rename_i hj
    simp [hj]
  · rename_i hj
    simp [hj]

/-- Only the text of a character string can have a NUL. -/
theorem zero_notMem_loadCell {F : FloatText} (hF : F.Printable) {t : SqlType} {size : ℕ}
    {cat : SqlCat} (cell : Cell cat t size) : 0 ∉ loadCell F cell ↔ NoNul cell := by
  cases cat with
  | atomic => exact iff_of_true (zero_notMem_loadAtomic hF t cell.slot) trivial
  | cString =>
    exact notMem_take_iff
  | wString => exact iff_of_true List.not_mem_nil trivial
  | bString => exact iff_of_true (zero_notMem_encodeBytea _) trivial
  | struct => exact iff_of_true (zero_notMem_loadStructure t cell.slot) trivial

/-! ## What is sent of a row -/

/-- What libpq gets for a column: a null pointer if and only if it is null, and otherwise its text
    in full. -/
def ColumnSent (F : FloatText) (m : Marshalled) (i : ℕ) (d : BufferDscr) (cell : d.Cell) : Prop :=
  (m.values[i]? = some none ↔ cell.indicator = nullData) ∧
    (cell.indicator ≠ nullData → ∃ p, m.values[i]? = some (some p) ∧
      m.holders.readPtr p = some (loadValue F d cell))

/-- What libpq gets for a row is what the cells of the row are. -/
def RowSent (G : Growth) (short : ℕ) (F : FloatText) (b : Buffer) (row : Fin b.rows) : Prop :=
  ∀ (i : ℕ) (d : BufferDscr) (cell : d.Cell), (rowCells b row)[i]? = some ⟨d, cell⟩ →
    ColumnSent F (marshalMemory G short F (rowCells b row)) i d cell

theorem columnSent_iff {G : Growth} {short : ℕ} {F : FloatText}
    {cells : List ((d : BufferDscr) × d.Cell)} {i : ℕ} {d : BufferDscr} {cell : d.Cell}
    (hc : cells[i]? = some ⟨d, cell⟩) :
    ColumnSent F (marshalMemory G short F cells) i d cell ↔
      (cell.indicator ≠ nullData → 0 ∉ loadValue F d cell) := by
  rcases readPtr_values G short F cells hc with ⟨hnull, hvalue⟩ | ⟨hnull, p, hvalue, hp⟩
  · exact iff_of_true ⟨iff_of_true hvalue hnull, fun h => absurd hnull h⟩ fun h => absurd hnull h
  · simp only at hnull hvalue hp
    constructor
    · rintro ⟨-, h⟩ -
      obtain ⟨q, hq, htext⟩ := h hnull
      cases Option.some.inj (Option.some.inj (hvalue.symm.trans hq))
      exact cStr_eq_self_iff.1 (Option.some.inj (hp.symm.trans htext))
    · intro h
      refine ⟨iff_of_false (fun hnone => ?_) hnull, fun _ => ⟨p, hvalue, ?_⟩⟩
      · cases hvalue.symm.trans hnone
      · rw [hp, cStr_eq_self_iff.2 (h hnull)]

/-- **What is sent.** No pointer dangles: what libpq reads through them is the row in its texts up
    to their first NUL. These are null pointers for the null columns and the texts of the others in
    full, if and only if no character string that is not null has a NUL. -/
theorem rowSent_iff (G : Growth) (short : ℕ) {F : FloatText} (hF : F.Printable) (b : Buffer)
    (row : Fin b.rows) :
    (marshalMemory G short F (rowCells b row)).values.map
        (fun p => p.bind (marshalMemory G short F (rowCells b row)).holders.readPtr) =
      Query.marshalRow F b row ∧
    (RowSent G short F b row ↔
      ∀ c ∈ rowCells b row, c.2.indicator ≠ nullData → NoNul c.2) := by
  refine ⟨readPtr_marshalMemory G short F b row, ?_⟩
  constructor
  · intro h c hc hnull
    obtain ⟨i, hi⟩ := List.mem_iff_getElem?.1 hc
    exact (zero_notMem_loadCell hF c.2).1 ((columnSent_iff hi).1 (h i c.1 c.2 hi) hnull)
  · intro h i d cell hi
    refine (columnSent_iff hi).2 fun hnull => ?_
    exact (zero_notMem_loadCell hF cell).2 (h ⟨d, cell⟩ (List.mem_of_getElem? hi) hnull)

theorem noFloats_printable : noFloats.Printable :=
  ⟨fun _ => List.not_mem_nil, fun _ => List.not_mem_nil⟩

/-- A column of names. -/
def nickname : BufferDscr := ⟨"nickname", .cString, .varChar, 3, rfl⟩

/-- One row of it. -/
def nicknameRow (cell : nickname.Cell) : Buffer := ⟨1, [⟨nickname, #v[cell]⟩], 0⟩

def nicknameRow.first (cell : nickname.Cell) : Fin (nicknameRow cell).rows := ⟨0, Nat.one_pos⟩

/-- `a`, a NUL and `b`, as the setter stores them. -/
def withNul : nickname.Cell := ⟨#v[ascii 'a', 0, ascii 'b', 0], 3⟩

def withoutNul : nickname.Cell := ⟨#v[ascii 'a', ascii 'b', 0, 0], 2⟩

/-- Of a text with a NUL, libpq gets what stands before it. -/
theorem not_rowSent_withNul :
    ¬RowSent .exact 15 noFloats (nicknameRow withNul) (nicknameRow.first withNul) := by
  intro h
  have hsent := h 0 nickname withNul rfl
  exact absurd ((columnSent_iff rfl).1 hsent (by decide)) (by decide)

/-- A text without one arrives. -/
theorem rowSent_withoutNul :
    RowSent .exact 15 noFloats (nicknameRow withoutNul) (nicknameRow.first withoutNul) := by
  refine (rowSent_iff .exact 15 noFloats_printable _ _).2.2 fun c hc _ => ?_
  obtain rfl : c = ⟨nickname, withoutNul⟩ := List.mem_singleton.1 hc
  exact (zero_notMem_loadCell noFloats_printable withoutNul).1 (by decide)

end Dbgen4.Psql
