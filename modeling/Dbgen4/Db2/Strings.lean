import Dbgen4.Db2.Layout
import Dbgen4.Rtl.Setters

/-!
# Strings between the buffers and the driver

A string column is bound with the size of its arrays (`SQLBindCol`, `SQLBindParameter`), and
its length goes through the indicator, in bytes. The driver reports the whole length also of
a value that it has cut off, and the runtime takes that for a success; so the getters of a
column look no further than its array only if the value was not longer than the column is
wide (`fetch_inside_iff`). A setter of a wide string counts characters, of four bytes each, where
the driver wants the bytes of two-byte units: of a wide string only the empty one arrives
(`wideSent_iff`).

What the driver does is what ODBC says of it (`OdbcStores`).
-/

namespace Dbgen4.Db2

open Rtl

/-! ## C types -/

/-- The C types that columns are bound with, `SQL_C_`. -/
inductive CData
  | slong | short | sbigint | stinyint | double | float | bit
  | char | wchar | binary
  | typeDate | typeTime | typeTimestamp
  /-- `SQL_C_INTERVAL_`, by the type of the interval. -/
  | interval (t : SqlType)
  | guid
  | default
  deriving DecidableEq, Repr

/-- `db2::to_odbc_c`. -/
def toOdbcC : SqlType → CData
  | .integer => .slong
  | .smallint => .short
  | .bigint => .sbigint
  | .tinyInt => .stinyint
  | .float => .double
  | .real => .float
  | .double => .double
  | .bit => .bit
  | .char | .numeric | .decimal | .varChar | .decfloat | .longVarChar | .clob | .xml => .char
  | .wchar | .wvarChar | .wlongVarChar | .dbclob => .wchar
  | .graphic | .varGraphic | .binary | .varBinary | .longVarBinary | .blob => .binary
  | .date | .typeDate => .typeDate
  | .time | .typeTime => .typeTime
  | .timestamp | .typeTimestamp => .typeTimestamp
  | .guid => .guid
  | .unknown => .default
  | t => .interval t

/-- The bytes of the terminator that the driver writes after a text. -/
def CData.terminator : CData → ℕ
  | .char => 1
  | .wchar => 2
  | _ => 0

/-- The categories of the columns that have a width. -/
def HasWidth (cat : SqlCat) : Prop := cat = .cString ∨ cat = .wString ∨ cat = .bString

/-- A wide column is bound as one of two-byte units. -/
theorem toOdbcC_of_wString {t : SqlType} (h : t.category = .wString) : toOdbcC t = .wchar := by
  revert h
  cases t <;> decide

/-! ## Values -/

/-- The bytes of a `wchar_t`, the least significant one first. -/
def wcharBytes (c : UInt32) : List UInt8 :=
  [c.toUInt8, (c >>> 8).toUInt8, (c >>> 16).toUInt8, (c >>> 24).toUInt8]

/-- The bytes of the array of a column that has a width. -/
def slotBytes {t : SqlType} {size : ℕ} : {cat : SqlCat} → Slot cat t size → List UInt8
  | .cString, a => Vector.toList (n := size + 1) a
  | .wString, a => (Vector.toList (n := size + 1) a).flatMap wcharBytes
  | .bString, a => Vector.toList (n := size) a
  | _, _ => []

/-- A value of the server, in the bytes of the C type that it is converted to. Their number is an
    `SQLLEN`, which is as wide as the indicators. -/
structure OdbcValue where
  bytes : List UInt8
  length_lt : bytes.length < 2 ^ 31

/-- What the driver has written to a cell that is bound as `c` with `room` bytes: a null indicator,
    or as much of the value as fits, and its length in full. -/
def OdbcStores (c : CData) (room : ℕ) {cat : SqlCat} {t : SqlType} {size : ℕ}
    (v : Option OdbcValue) (cell : Cell cat t size) : Prop :=
  match v with
  | none => cell.indicator = nullData
  | some v => cell.indicator = Int32.ofNat v.bytes.length ∧
      (slotBytes cell.slot).take (min v.bytes.length (room - c.terminator)) =
        v.bytes.take (room - c.terminator)

/-- The rows that a driver has fetched. -/
def Driver.rows (d : Driver) : ℕ := if d.fetchScroll = noData then 0 else d.rowsFetched.toNat

/-- The driver delivers the values to the columns that have a width. -/
def Driver.Delivers {rs : List BufferDscr} (d : Driver)
    (values : Fin rs.length → ℕ → Option OdbcValue) : Prop :=
  ∀ c, HasWidth (rs.get c).category → ∀ r < d.rows, ∃ cell, d.cells c r (rs.get c) = some cell ∧
    OdbcStores (toOdbcC (rs.get c).type) (rs.get c).slotSize (values c r) cell

/-! ## Views -/

/-- The elements of one array of a column. -/
def extent (d : BufferDscr) : ℕ :=
  match d.category with
  | .cString | .wString => d.columnSize.toNat + 1
  | .bString => d.columnSize.toNat
  | .atomic | .struct => 1

/-- A view of elements of a column, whose arrays lie one after the other. -/
structure View where
  first : ℕ
  len : ℕ

/-- It spans only elements of the array of a row. -/
def View.Within (v : View) (d : BufferDscr) (row : ℕ) : Prop :=
  ∀ e, v.first ≤ e → e < v.first + v.len → row * extent d ≤ e ∧ e < (row + 1) * extent d

/-- The generated getter of a string: from the front of its array, as long as the length getter
    says. -/
def getterView (d : BufferDscr) (row : ℕ) (cell : d.Cell) : View := ⟨row * extent d, cell.length⟩

/-- The generated `_view` of a row. -/
def rowView (d : BufferDscr) (row : ℕ) (cell : d.Cell) : View :=
  ⟨row * extent d, asSize (if cell.indicator ≠ nullData then cell.indicator else 0)⟩

/-- The accessors of a row stay in its array, and the length in the width. -/
structure Inside (d : BufferDscr) (row : ℕ) (cell : d.Cell) : Prop where
  length : cell.length ≤ d.columnSize.toNat
  getter : (getterView d row cell).Within d row
  view : (rowView d row cell).Within d row

theorem rowView_eq (d : BufferDscr) (row : ℕ) (cell : d.Cell) :
    rowView d row cell = getterView d row cell := by
  by_cases h : cell.indicator = nullData
  · simp [rowView, getterView, Cell.length, h, asSize]
  · simp [rowView, getterView, Cell.length, h, Ne.symm h]

/-- A view that begins with the array stays in it if it is not longer. -/
theorem within_of_le {d : BufferDscr} {row len : ℕ} (h : len ≤ extent d) :
    View.Within ⟨row * extent d, len⟩ d row := by
  intro e hfirst hlast
  rw [Nat.add_mul, Nat.one_mul]
  exact ⟨hfirst, Nat.lt_of_lt_of_le hlast (Nat.add_le_add_left h _)⟩

theorem columnSize_le_extent {d : BufferDscr} (h : HasWidth d.category) :
    d.columnSize.toNat ≤ extent d := by
  rw [extent]
  rcases h with h | h | h <;> rw [h]
  · exact Nat.le_succ _
  · exact Nat.le_succ _

theorem inside_iff {d : BufferDscr} (h : HasWidth d.category) {row : ℕ} {cell : d.Cell} :
    Inside d row cell ↔ cell.length ≤ d.columnSize.toNat := by
  refine ⟨Inside.length, fun hlen => ?_⟩
  have hwithin : (getterView d row cell).Within d row :=
    within_of_le (Nat.le_trans hlen (columnSize_le_extent h))
  exact ⟨hlen, hwithin, rowView_eq d row cell ▸ hwithin⟩

/-- The length getter returns the length that the driver has reported. -/
theorem length_of_odbcStores {c : CData} {room : ℕ} {cat : SqlCat} {t : SqlType} {size : ℕ}
    {v : Option OdbcValue} {cell : Cell cat t size} (h : OdbcStores c room v cell) :
    cell.length = v.elim 0 (·.bytes.length) := by
  obtain ⟨slot, i⟩ := cell
  cases v with
  | none => exact if_pos (Eq.symm h)
  | some v =>
    obtain rfl : i = Int32.ofNat v.bytes.length := h.1
    exact Cell.length_ofNat slot v.length_lt

/-! ## A fetch -/

/-- The accessors of every row that was fetched stay in its arrays. -/
def FetchedInside {rs : List BufferDscr} (b : GeneratedBuffer rs false) : Prop :=
  ∀ c, HasWidth (rs.get c).category → ∀ r < b.occupied, ∀ cell, b.cell c r = some cell →
    Inside (rs.get c) r cell

/-- What the driver has written to a row that there is. -/
theorem cell_driverWrite {ds : List BufferDscr} {isParam : Bool} {b : GeneratedBuffer ds isParam}
    (hb : b.Sized) (cells : (c : Fin ds.length) → ℕ → Option (ds.get c).Cell) {c : Fin ds.length}
    {r : ℕ} (hr : r < b.bufferSize) {cell : (ds.get c).Cell} (hcell : cells c r = some cell) :
    (b.driverWrite cells).cell c r = some cell := by
  have hvalues : r < (b.columns c).values.data.length :=
    Nat.lt_of_lt_of_eq hr (hb.arrays (.values c)).symm
  have hlens : r < (b.columns c).lens.data.length :=
    Nat.lt_of_lt_of_eq hr (hb.arrays (.lens c)).symm
  simp [GeneratedBuffer.cell, GeneratedBuffer.value, GeneratedBuffer.len,
    GeneratedBuffer.driverWrite, GeneratedBuffer.modify, StdVector.modify, hcell, hvalues, hlens]
  rfl

theorem bufferSize_driverWrite {ds : List BufferDscr} {isParam : Bool}
    (b : GeneratedBuffer ds isParam) (cells : (c : Fin ds.length) → ℕ → Option (ds.get c).Cell) :
    (b.driverWrite cells).bufferSize = b.bufferSize :=
  (GeneratedBuffer.SamePlaces.modify _ _).bufferSize

variable {ps rs : List BufferDscr} {q : Query ps rs} {d : Driver}

/-- What a successful fetch leaves of the result buffer: the rows of the driver are in it. -/
theorem fetch_ok {b : Bool} (hr : q.hasR) (h : (q.fetch d).result = .ok b) :
    d.rows ≤ q.res.bufferSize ∧ (q.fetch d).query.res = { q.res.driverWrite (fun c r =>
      d.cells c r (rs.get c)) with occupied := d.rows } := by
  rw [Query.fetch] at h ⊢
  split at h
  · cases h
  · split at h
    · cases h
    · rename_i hlayout
      simp only [hr, not_true_eq_false, if_false] at h ⊢
      split at h
      · rename_i hdata
        have hrows : d.rows = 0 := if_pos hdata
        rw [if_pos hdata, hrows]
        exact ⟨Nat.zero_le _, rfl⟩
      · rename_i hdata
        have hrows : d.rows = d.rowsFetched.toNat := if_neg hdata
        rw [if_neg hdata, hrows]
        split at h
        · cases h
        · rename_i hsucceeded
          rw [if_neg hsucceeded]
          split at h
          · cases h
          · rename_i hmost
            rw [if_neg hmost]
            exact ⟨bufferSize_driverWrite q.res _ ▸ Nat.le_of_not_lt hmost, rfl⟩

/-- **What is fetched.** After a successful fetch of a query that was used in any way that keeps the
    layout its driver was told of, the length getters of the string columns return no more than the
    declared width, and the views stay in the arrays of their rows, if and only if the driver has
    delivered no value that is longer, in bytes, than its column is wide. -/
theorem fetch_inside_iff {G : Growth} {tr : List (SessionEvent ps rs)} {s : Session ps rs}
    (hs : ((sessions G ps rs).restrict KeepsLayout).Run tr s)
    {values : Fin rs.length → ℕ → Option OdbcValue} (hd : d.Delivers values) {b : Bool}
    (hok : (s.query.fetch d).result = .ok b) :
    FetchedInside (s.query.fetch d).query.res ↔
      ∀ c, HasWidth (rs.get c).category → ∀ r < d.rows, ∀ v ∈ values c r,
        v.bytes.length ≤ (rs.get c).columnSize.toNat := by
  have hcell (c : Fin rs.length) (hc : HasWidth (rs.get c).category) (r : ℕ) (hr : r < d.rows) :
      ∃ cell, (s.query.fetch d).query.res.cell c r = some cell ∧
        cell.length = (values c r).elim 0 (·.bytes.length) := by
    have hhas : s.query.hasR := s.query.hasR_of_fin c
    obtain ⟨hrows, hres⟩ := fetch_ok hhas hok
    obtain ⟨cell, hcell, hstores⟩ := hd c hc r hr
    refine ⟨cell, ?_, length_of_odbcStores hstores⟩
    rw [hres]
    exact cell_driverWrite ((Session.inv hs).resSized hhas) (fun c r => d.cells c r (rs.get c))
      (Nat.lt_of_lt_of_le hr hrows) hcell
  have hoccupied (c : Fin rs.length) : (s.query.fetch d).query.res.occupied = d.rows := by
    rw [(fetch_ok (s.query.hasR_of_fin c) hok).2]
  constructor
  · intro h c hc r hr v hv
    obtain ⟨cell, hget, hlen⟩ := hcell c hc r hr
    have hinside := h c hc r (hoccupied c ▸ hr) cell hget
    have hle := (inside_iff hc).1 hinside
    rwa [hlen, Option.mem_def.1 hv] at hle
  · intro h c hc r hr cell hget
    rw [hoccupied c] at hr
    obtain ⟨cell', hget', hlen⟩ := hcell c hc r hr
    obtain rfl := Option.some.inj (hget'.symm.trans hget)
    rw [inside_iff hc, hlen]
    cases hv : values c r with
    | none => exact Nat.zero_le _
    | some v => exact h c hc r hr v hv

/-- A binary column of three bytes. -/
def photo : BufferDscr := ⟨"photo", .bString, .varBinary, 3, rfl⟩

/-- Some zero bytes. -/
def zeroes (n : Fin 5) : OdbcValue where
  bytes := List.replicate n 0
  length_lt := by rw [List.length_replicate]; omega

/-- The driver delivers one row of it, and has cut the value off if it is longer than the array. -/
def zeroBytes (n : Fin 5) : Driver where
  fetchScroll := if n.val ≤ 3 then 0 else 1
  rowsFetched := 1
  cells _ _ d := some ⟨Slot.zero d.type d.columnSize.toNat d.category, Int32.ofNat n⟩

/-- A query for it, prepared. -/
def photoSession : Session [] [photo] :=
  let q := Query.make .exact 1 [] [photo] "select photo from t" 1 1
  ⟨(q.prepare {}).query, 3, q.bound {}⟩

theorem run_photoSession :
    ((sessions .exact [] [photo]).restrict KeepsLayout).Run [.prepare {}] photoSession :=
  .step (.init ⟨1, _, 1, 1, rfl⟩) ⟨.prepare _ {}, trivial, fun _ _ => trivial⟩

theorem delivers_zeroBytes (n : Fin 5) :
    (zeroBytes n).Delivers fun (_ : Fin [photo].length) _ => some (zeroes n) := by
  intro c _ r _
  obtain rfl : c = ⟨0, Nat.one_pos⟩ := Fin.ext (Nat.lt_one_iff.1 c.2)
  refine ⟨_, rfl, ?_, ?_⟩
  · rw [zeroes, List.length_replicate]
  · match n with
    | 0 | 1 | 2 | 3 | 4 => rfl

/-- A value that is cut off: the length is that of all of it. -/
theorem not_fetchedInside_photo :
    ((sessions .exact [] [photo]).restrict KeepsLayout).Run [.prepare {}] photoSession ∧
      (zeroBytes 4).Delivers (fun (_ : Fin [photo].length) _ => some (zeroes 4)) ∧
      (photoSession.query.fetch (zeroBytes 4)).result = .ok true ∧
      ¬FetchedInside (photoSession.query.fetch (zeroBytes 4)).query.res := by
  refine ⟨run_photoSession, delivers_zeroBytes 4, rfl, fun h => ?_⟩
  have hinside := h ⟨0, Nat.one_pos⟩ (.inr (.inr rfl)) 0 (by decide) _ rfl
  exact absurd hinside.length (by decide)

/-- A value that fits. -/
theorem fetchedInside_photo :
    FetchedInside (photoSession.query.fetch (zeroBytes 2)).query.res := by
  refine (fetch_inside_iff run_photoSession (delivers_zeroBytes 2) (b := true) rfl).2 ?_
  intro c _ r _ v hv
  obtain rfl : c = ⟨0, Nat.one_pos⟩ := Fin.ext (Nat.lt_one_iff.1 c.2)
  obtain rfl : zeroes 2 = v := Option.some.inj hv
  decide

/-! ## Wide parameters -/

/-- The two-byte units of a character; there are none of what is no character. -/
def utf16 (c : UInt32) : Option (List UInt16) :=
  if c < 0xd800 ∨ 0xdfff < c ∧ c ≤ 0xffff then some [c.toUInt16]
  else if 0x10000 ≤ c ∧ c ≤ 0x10ffff then
    let beyond := c - 0x10000
    some [(0xd800 : UInt16) ||| (beyond >>> 10).toUInt16,
      (0xdc00 : UInt16) ||| beyond.toUInt16 &&& 0x3ff]
  else none

/-- The bytes of a unit, the least significant one first. -/
def unitBytes (u : UInt16) : List UInt8 := [u.toUInt8, (u >>> 8).toUInt8]

/-- A wide string as `SQL_C_WCHAR` data. -/
def wcharData (v : List UInt32) : Option (List UInt8) :=
  (v.mapM utf16).map fun units => units.flatten.flatMap unitBytes

/-- The bytes that the driver is told to read for a cell: as many as the indicator says. -/
def toldBytes {cat : SqlCat} {t : SqlType} {size : ℕ} (cell : Cell cat t size) :
    Option (List UInt8) :=
  if 0 ≤ cell.indicator.toInt then
    some ((slotBytes cell.slot).take cell.indicator.toInt.toNat)
  else none

/-- The bytes that the driver is told to read are all of a wide string, as the data of
    `SQL_C_WCHAR`, which wide columns are bound as. -/
def WideSent {cat : SqlCat} {t : SqlType} {size : ℕ} (cell : Cell cat t size) :
    Value cat t → Prop :=
  match cat with
  | .wString => fun v => ∃ data, wcharData v = some data ∧ toldBytes cell = some data
  | _ => fun _ => False

theorem length_pos_of_utf16 {c : UInt32} {us : List UInt16} (h : utf16 c = some us) :
    1 ≤ us.length := by
  rw [utf16] at h
  split at h
  · cases h
    exact Nat.le_refl 1
  · split at h
    · cases h
      exact Nat.le_succ 1
    · cases h

/-- Every character has a unit of two bytes at least. -/
theorem length_wcharData {v : List UInt32} {data : List UInt8} (h : wcharData v = some data) :
    2 * v.length ≤ data.length := by
  obtain ⟨units, hunits, rfl⟩ := Option.map_eq_some_iff.1 h
  clear h
  have hbytes (us : List UInt16) : (us.flatMap unitBytes).length = 2 * us.length := by
    induction us with
    | nil => rfl
    | cons u us ih =>
      rw [List.flatMap_cons, List.length_append, ih, List.length_cons]
      exact Nat.add_comm _ _
  rw [hbytes]
  refine Nat.mul_le_mul_left 2 ?_
  induction v generalizing units with
  | nil => exact Nat.zero_le _
  | cons c v ih =>
    rw [List.mapM_cons] at hunits
    obtain ⟨us, hus, hunits⟩ := Option.bind_eq_some_iff.1 hunits
    obtain ⟨rest, hrest, heq⟩ := Option.bind_eq_some_iff.1 hunits
    cases heq
    have hlen := ih rest hrest
    have hpos := length_pos_of_utf16 hus
    rw [List.flatten_cons, List.length_append, List.length_cons]
    omega

/-- An `int32_t` made of a number is no more than the number. -/
theorem toInt_ofNat_le {n : ℕ} (h : 0 ≤ (Int32.ofNat n).toInt) :
    (Int32.ofNat n).toInt.toNat ≤ n := by
  rw [Int32.toInt_ofNat', Int.bmod] at h ⊢
  have hsize : (Int32.size : ℤ) = 2 ^ 32 := rfl
  rw [hsize] at h ⊢
  split at h <;> omega

/-- What the setter stores of a wide string is whole just if it is nothing. -/
theorem wideSent_of_holds {cat : SqlCat} {t : SqlType} {size : ℕ} {cell : Cell cat t size}
    {v : Value cat t} (hcat : cat = .wString) (h : cell.Holds (some (some v))) :
    WideSent cell v ↔ v.length = 0 := by
  subst hcat
  obtain ⟨hind, -⟩ := h
  change cell.indicator = Int32.ofNat (List.length v) at hind
  change WideSent cell v ↔ List.length v = 0
  constructor
  · rintro ⟨data, hdata, htold⟩
    have hlen := length_wcharData hdata
    rw [toldBytes] at htold
    split at htold
    · rename_i hpos
      obtain rfl := Option.some.inj htold
      rw [hind] at hpos
      have hle := toInt_ofNat_le hpos
      rw [List.length_take, hind] at hlen
      omega
    · cases htold
  · intro hzero
    obtain rfl : v = [] := List.length_eq_zero_iff.1 hzero
    refine ⟨[], rfl, ?_⟩
    rw [toldBytes, hind]
    rfl

/-- A wide string that is no longer than its column fits. -/
theorem fits_of_wide {cat : SqlCat} {t : SqlType} {size row rows : ℕ} {v : Value cat t}
    (hcat : cat = .wString) (hv : v.length ≤ size) (hrow : row ≠ rows) : v.Fits size row rows := by
  subst hcat
  exact ⟨hv, hrow⟩

/-- **Wide strings.** A wide column is bound as one of two-byte units; of the strings that a setter
    stores in it, in any row of a parameter buffer, the driver is told to read all the data just of
    the empty one. -/
theorem wideSent_iff {ps : List BufferDscr} (b : GeneratedBuffer ps true) {c : Fin ps.length}
    (hc : (ps.get c).category = .wString) {row : ℕ} {x : (ps.get c).Cell}
    (hx : b.cell c row = some x) {v : (ps.get c).Value}
    (hv : v.length ≤ (ps.get c).columnSize.toNat) :
    toOdbcC (ps.get c).type = .wchar ∧
      ((∃ cell, (b.after (.set c v row)).cell c row = some cell ∧ WideSent cell v) ↔
        v.length = 0) := by
  refine ⟨toOdbcC_of_wString ((ps.get c).category_eq.symm.trans hc), ?_⟩
  have hfits : (ParamWrite.set c v row).Fits (row + 1) := fits_of_wide hc hv (Nat.ne_add_one row)
  obtain ⟨cell, hcell, hholds⟩ := GeneratedBuffer.holdsAt_of_hit hfits hx (dif_pos ⟨rfl, rfl⟩)
  rw [← wideSent_of_holds hc hholds]
  constructor
  · rintro ⟨cell', hcell', hsent⟩
    rwa [Option.some.inj (hcell.symm.trans hcell')]
  · exact fun hsent => ⟨cell, hcell, hsent⟩

/-- A column of wide strings. -/
def title : BufferDscr := ⟨"title", .wString, .wvarChar, 4, rfl⟩

def titleColumn : Fin [title].length := ⟨0, Nat.one_pos⟩

/-- A buffer with one row of it. -/
def titleBuffer : GeneratedBuffer [title] true := .make .exact 1 [title] true 1

/-- `ab`. -/
def ab : title.Value := ([97, 98] : List UInt32)

/-- Of two characters, the driver reads two bytes: half of the first one's. -/
theorem not_wideSent_ab :
    ¬∃ cell, (titleBuffer.after (.set titleColumn ab 0)).cell titleColumn 0 = some cell ∧
      WideSent cell ab := by
  rintro ⟨cell, hcell, data, hdata, htold⟩
  obtain rfl := Option.some.inj hcell
  obtain rfl := Option.some.inj hdata
  exact absurd htold (by decide)

/-- The empty string is sent as it is. -/
theorem wideSent_title :
    ∃ cell, (titleBuffer.after (.set titleColumn ([] : List UInt32) 0)).cell titleColumn 0 =
      some cell ∧ WideSent cell ([] : List UInt32) :=
  (wideSent_iff titleBuffer (c := titleColumn) rfl rfl (Nat.zero_le _)).2.2 rfl

end Dbgen4.Db2
