import Dbgen4.LastWrite
import Dbgen4.Rtl.Storage

/-!
# Setters, null setters and what the getters then return

The generated setter of a column stores a value and its length; a null setter
stores a null indicator and leaves the value where it is. The getters
(`attr_getter_code`) put the two arrays of a column together again.

A parameter buffer is a table of last writes (`lastWrites_iff`), as long as the
`int32_t` of the indicator holds the lengths.
-/

namespace Dbgen4.Rtl

/-- A string is no longer than the declared width, and not for the row one past the last, which
    `rtl::set_value` lets pass. -/
def Value.Fits {t : SqlType} (size row rows : ℕ) : {cat : SqlCat} → Value cat t → Prop
  | .atomic, _ => True
  | .cString, v => List.length (α := UInt8) v ≤ size ∧ row ≠ rows
  | .wString, v => List.length (α := UInt32) v ≤ size ∧ row ≠ rows
  | .bString, v => List.length (α := UInt8) v ≤ size ∧ row ≠ rows
  | .struct, _ => True

namespace ParamWrite

variable {ds : List BufferDscr}

/-- The values of a call fit, on a buffer of `rows` rows. -/
def Fits (rows : ℕ) : ParamWrite ds → Prop
  | .set c v row => v.Fits (ds.get c).columnSize.toNat row rows
  | .setNull _ _ => True
  | .resetAllNull => True

/-- What a call writes to the cell of a column and a row, if it writes to it: a value or NULL. -/
def hit : ParamWrite ds → (k : Fin ds.length × ℕ) → Option (Option (ds.get k.1).Value)
  | .set c v row, k => if h : c = k.1 ∧ row = k.2 then some (some (h.1 ▸ v)) else none
  | .setNull c row, k => if c = k.1 ∧ row = k.2 then some none else none
  | .resetAllNull, _ => some none

/-- A call that writes to a cell is the setter or the null setter for it, or nulls all cells. -/
theorem hit_cases {w : ParamWrite ds} {c : Fin ds.length} {row : ℕ}
    {o : Option (ds.get c).Value} (h : w.hit (c, row) = some o) :
    (∃ v, w = .set c v row ∧ o = some v) ∨ (w = .setNull c row ∨ w = .resetAllNull) ∧ o = none := by
  cases w with
  | set c' v row' =>
    by_cases he : c' = c ∧ row' = row
    · obtain ⟨rfl, rfl⟩ := he
      rw [hit, dif_pos ⟨rfl, rfl⟩] at h
      exact .inl ⟨v, rfl, (Option.some.inj h).symm⟩
    · rw [hit, dif_neg he] at h
      cases h
  | setNull c' row' =>
    by_cases he : c' = c ∧ row' = row
    · obtain ⟨rfl, rfl⟩ := he
      rw [hit, if_pos ⟨rfl, rfl⟩] at h
      exact .inr ⟨.inl rfl, (Option.some.inj h).symm⟩
    · rw [hit, if_neg he] at h
      cases h
  | resetAllNull => exact .inr ⟨.inr rfl, (Option.some.inj h).symm⟩

end ParamWrite

namespace GeneratedBuffer

variable {ds : List BufferDscr} {isParam : Bool} (b : GeneratedBuffer ds isParam)

/-- The slot and the indicator of a column and a row, as the getters see them. -/
def cell (c : Fin ds.length) (row : ℕ) : Option (ds.get c).Cell :=
  (b.value c row).bind fun slot => (b.len c row).map fun i => ⟨slot, i⟩

end GeneratedBuffer

/-! ## What is stored -/

/-- The slot has the value, at its front if it is a string. -/
def Cell.Stores {t : SqlType} {size : ℕ} : {cat : SqlCat} → Cell cat t size → Value cat t → Prop
  | .atomic, cell, v => cell.slot = v
  | .cString, cell, v => (Vector.toList (n := size + 1) cell.slot).take (List.length v) = v
  | .wString, cell, v => (Vector.toList (n := size + 1) cell.slot).take (List.length v) = v
  | .bString, cell, v => (Vector.toList (n := size) cell.slot).take (List.length v) = v
  | .struct, cell, v => cell.slot = v

section cells

variable {cat : SqlCat} {t : SqlType} {size : ℕ} (cell : Cell cat t size)

/-- What there is in a cell after the last write to it, or if there was none. -/
def Cell.Holds : Option (Option (Value cat t)) → Prop
  | none => cell.indicator = 0
  | some none => cell.indicator = nullData
  | some (some v) => cell.indicator = Int32.ofNat v.length ∧ cell.Stores v

/-- The getters of a cell tell the last write to it. -/
def Cell.Shows : Option (Option (Value cat t)) → Prop
  | none => cell.isNull = false
  | some none => cell.isNull = true
  | some (some v) => cell.isNull = false ∧ cell.value = v ∧ cell.length = v.length

variable {cell} {v : Value cat t} {row rows : ℕ}

/-- A value is no longer than its slot has room for. -/
theorem Cell.Stores.length_le (h : cell.Stores v) (hsize : size < 2 ^ 32) :
    v.length ≤ 2 ^ 32 := by
  have hroom : ∀ {α : Type} {n : ℕ} {a : Vector α n} {v : List α}, a.toList.take v.length = v →
      v.length ≤ n := by
    intro α n a v h
    have := congrArg List.length h
    rw [List.length_take, Vector.length_toList] at this
    omega
  cases cat with
  | atomic | struct =>
    rw [Value.length]
    cases t.cppType <;> decide
  | cString => exact Nat.le_trans (hroom h) hsize
  | wString => exact Nat.le_trans (hroom h) hsize
  | bString => exact Nat.le_trans (hroom h) (Nat.le_of_lt hsize)

/-- With the length of the value, the getter returns it. -/
theorem Cell.Stores.value_eq (h : cell.Stores v) (hlen : cell.length = v.length) :
    cell.value = v := by
  cases cat with
  | atomic | struct => exact h
  | cString | wString | bString =>
    rw [Cell.value, hlen]
    exact h

/-- A length that is no size of 2^64 less something is one that an `int32_t` holds. -/
theorem Cell.length_lt (h : cell.length ≤ 2 ^ 32) : cell.length < 2 ^ 31 := by
  have hle := cell.indicator.le_toInt
  have hlt := cell.indicator.toInt_lt
  by_cases hnull : nullData = cell.indicator
  · rw [Cell.length, if_pos hnull]
    decide
  · rw [Cell.length, if_neg hnull, asSize] at h ⊢
    omega

/-- The getters tell what a cell holds, just if its indicator holds the length. -/
theorem Cell.Holds.shows_iff {o : Option (Option (Value cat t))} (h : cell.Holds o)
    (hsize : size < 2 ^ 32) : cell.Shows o ↔ ∀ v, o = some (some v) → v.length < 2 ^ 31 := by
  rcases o with - | - | v
  · refine iff_of_true ?_ fun v hv => nomatch hv
    rw [Cell.Shows, Cell.isNull, show cell.indicator = 0 from h]
    rfl
  · exact iff_of_true (beq_iff_eq.2 (Eq.symm h)) fun v hv => nomatch hv
  · obtain ⟨hind, hv⟩ := h
    constructor
    · rintro ⟨-, -, hlen⟩ w hw
      obtain rfl := Option.some.inj (Option.some.inj hw)
      rw [← hlen]
      exact Cell.length_lt (hlen ▸ hv.length_le hsize)
    · intro hlt
      have hlt := hlt v rfl
      have hlen : cell.length = v.length := by
        obtain ⟨slot, i⟩ := cell
        rw [show i = _ from hind]
        exact Cell.length_ofNat slot hlt
      refine ⟨?_, hv.value_eq hlen, hlen⟩
      rw [Cell.isNull, hind]
      exact beq_false_of_ne (nullData_ne_ofNat hlt)

/-- A value that fits a column that is not too wide. -/
theorem Value.Fits.length_lt {row rows : ℕ} (h : v.Fits size row rows) (hsize : size < 2 ^ 31) :
    v.length < 2 ^ 31 := by
  cases cat with
  | atomic | struct =>
    rw [Value.length]
    cases t.cppType <;> decide
  | cString | wString | bString => exact Nat.lt_of_le_of_lt h.1 hsize

end cells

/-! ## The setters store the value -/

/-- A string that fits is stored with its length, at the front of the array. -/
theorem setString_spec {k : CharT} {l row rows : ℕ} {v : List k.Elem} (hlen : v.length ≤ l)
    (hrow : row < rows) : ∃ s, setString k l v row rows = .ok s ∧
      (∀ len, s.len row len = Int32.ofNat v.length) ∧
      ∀ slot, (s.slot row slot).toList.take v.length = v := by
  obtain ⟨stores, h⟩ := setter_of_le (Nat.le_trans hlen CharT.le_netCapacity) (Nat.le_of_lt hrow)
  rw [setString, h]
  exact ⟨_, rfl, len_setter h, take_setter h⟩

/-- It leaves the other rows alone. -/
theorem setString_frame {k : CharT} {l row rows r : ℕ} {v : List k.Elem} (hlen : v.length ≤ l)
    {s : CellStore (Vector k.Elem (k.netCapacity l))} (hs : setString k l v row rows = .ok s)
    (hr : r ≠ row) (slot : Vector k.Elem (k.netCapacity l)) (len : Int32) :
    s.slot r slot = slot ∧ s.len r len = len := by
  rw [setString] at hs
  cases h : setter k l v row rows with
  | error e =>
    rw [h] at hs
    cases hs
  | ok stores =>
    rw [h] at hs
    cases hs
    exact foldl_of_within (fun s hs => within_of_fits hlen (Nat.lt_succ_self row) h hs) hr slot len

/-- A plain value is assigned to a row that there is, and to no other. -/
theorem assignAt_frame {α : Type} {size row rows r : ℕ} {v : α} {s : CellStore α}
    (hs : assignAt size v row rows = .ok s) (hr : r ≠ row) (slot : α) (len : Int32) :
    s.slot r slot = slot ∧ s.len r len = len := by
  rw [assignAt] at hs
  split at hs
  · cases hs
    exact ⟨if_neg hr, if_neg hr⟩
  · cases hs

/-- A value that fits is stored with its length, in every row that there is. -/
theorem attrSetterCode_spec {cat : SqlCat} {t : SqlType} {size row n rows : ℕ} {v : Value cat t}
    (hv : v.Fits size row n) (hrow : row < rows) :
    ∃ s : CellStore (Slot cat t size), attrSetterCode cat v row rows = .ok s ∧
      ∀ slot len, Cell.Holds ⟨s.slot row slot, s.len row len⟩ (some (some v)) := by
  cases cat with
  | atomic | struct => exact ⟨_, if_pos hrow, fun slot len => ⟨if_pos rfl, if_pos rfl⟩⟩
  | cString =>
    obtain ⟨s, hs, hlen, hslot⟩ := setString_spec (k := .char) hv.1 hrow
    exact ⟨s, hs, fun slot len => ⟨hlen len, hslot slot⟩⟩
  | wString =>
    obtain ⟨s, hs, hlen, hslot⟩ := setString_spec (k := .wchar) hv.1 hrow
    exact ⟨s, hs, fun slot len => ⟨hlen len, hslot slot⟩⟩
  | bString =>
    obtain ⟨s, hs, hlen, hslot⟩ := setString_spec (k := .uint8) hv.1 hrow
    exact ⟨s, hs, fun slot len => ⟨hlen len, hslot slot⟩⟩

/-- A value that fits is stored in no other row. -/
theorem attrSetterCode_frame {cat : SqlCat} {t : SqlType} {size row n rows r : ℕ}
    {v : Value cat t} (hv : v.Fits size row n) {s : CellStore (Slot cat t size)}
    (hs : attrSetterCode cat v row rows = .ok s) (hr : r ≠ row) (slot : Slot cat t size)
    (len : Int32) : s.slot r slot = slot ∧ s.len r len = len := by
  cases cat with
  | atomic | struct => exact assignAt_frame hs hr slot len
  | cString => exact setString_frame (k := .char) hv.1 hs hr slot len
  | wString => exact setString_frame (k := .wchar) hv.1 hs hr slot len
  | bString => exact setString_frame (k := .uint8) hv.1 hs hr slot len

/-! ## Calls on a buffer -/

namespace GeneratedBuffer

variable {G : Growth} {t : ℕ} {ds : List BufferDscr} {isParam : Bool}
  {b : GeneratedBuffer ds isParam} {c : Fin ds.length} {row : ℕ}

theorem cell_modify (values : (c : Fin ds.length) → ℕ → (ds.get c).Slot → (ds.get c).Slot)
    (lens : Fin ds.length → ℕ → Int32 → Int32) : (b.modify values lens).cell c row =
      (b.cell c row).map fun x => ⟨values c row x.slot, lens c row x.indicator⟩ := by
  simp only [cell, value, len, modify, StdVector.modify, List.getElem?_mapIdx]
  cases (b.columns c).values.data[row]? with
  | none => rfl
  | some slot => cases (b.columns c).lens.data[row]? <;> rfl

/-- A setter stores to the cells of its column. -/
theorem cell_set (s : CellStore (ds.get c).Slot) : (b.set c s).cell c row =
    (b.cell c row).map fun x => ⟨s.slot row x.slot, s.len row x.indicator⟩ := by
  rw [set, cell_modify]
  simp only [↓reduceDIte, ↓reduceIte]

/-- It leaves the other columns alone. -/
theorem cell_set_of_ne (s : CellStore (ds.get c).Slot) {c' : Fin ds.length} (h : c ≠ c') :
    (b.set c s).cell c' row = b.cell c' row := by
  rw [set, cell_modify]
  simp only [h, h.symm, ↓reduceDIte, ↓reduceIte, Option.map_id']

/-- A null setter stores to the indicator of its column and row. -/
theorem cell_setNull {c' : Fin ds.length} {row' : ℕ} : (b.setNull c' row').cell c row =
    (b.cell c row).map fun x =>
      if c' = c ∧ row' = row then { x with indicator := nullData } else x := by
  rw [setNull, cell_modify]
  congr 1
  funext x
  by_cases h : c' = c ∧ row' = row
  · rw [if_pos h, if_pos ⟨h.1.symm, h.2.symm⟩]
  · rw [if_neg h, if_neg fun h' => h ⟨h'.1.symm, h'.2.symm⟩]

/-- Where there is a cell, there is a row. -/
theorem lt_of_cell {x : (ds.get c).Cell} (h : b.cell c row = some x) :
    row < (b.columns c).values.size ∧ row < (b.columns c).lens.size := by
  obtain ⟨slot, hslot, h⟩ := Option.bind_eq_some_iff.1 h
  obtain ⟨i, hi, -⟩ := Option.map_eq_some_iff.1 h
  exact ⟨(List.getElem?_eq_some_iff.1 hslot).1, (List.getElem?_eq_some_iff.1 hi).1⟩

/-- No call changes a cell that it does not write to. -/
theorem cell_after_of_hit {w : ParamWrite ds} {rows : ℕ} (hw : w.Fits rows)
    (h : w.hit (c, row) = none) : (b.after w).cell c row = b.cell c row := by
  rw [after]
  cases w with
  | set c' v row' =>
    have hne : ¬(c' = c ∧ row' = row) := fun he => by
      rw [ParamWrite.hit, dif_pos he] at h
      cases h
    rw [write]
    cases hs : attrSetterCode (ds.get c').category v row' (b.columns c').values.size with
    | ok s =>
      by_cases hc : c' = c
      · -- The setter stores to another row of the column.
        subst hc
        have hframe := attrSetterCode_frame hw hs fun he : row = row' => hne ⟨rfl, he.symm⟩
        refine (cell_set s).trans ?_
        cases b.cell c' row with
        | none => rfl
        | some x =>
          obtain ⟨hslot, hlen⟩ := hframe x.slot x.indicator
          rw [Option.map_some, hslot, hlen]
      · exact cell_set_of_ne s hc
    | error e => rfl
  | setNull c' row' =>
    have hne : ¬(c' = c ∧ row' = row) := fun he => by
      rw [ParamWrite.hit, if_pos he] at h
      cases h
    rw [write]
    by_cases hrow : row' < (b.columns c').lens.size
    · rw [if_pos hrow]
      refine cell_setNull.trans ?_
      simp only [if_neg hne, Option.map_id']
    · rw [if_neg hrow]
  | resetAllNull => cases h

/-- What there is at a column and a row: a cell with the last write to it. -/
def HoldsAt (b : GeneratedBuffer ds isParam) (k : Fin ds.length × ℕ)
    (o : Option (Option (ds.get k.1).Value)) : Prop :=
  ∃ x, b.cell k.1 k.2 = some x ∧ x.Holds o

/-- What a call writes to a cell is there afterwards. -/
theorem holdsAt_of_hit {w : ParamWrite ds} {rows : ℕ} (hw : w.Fits rows)
    {x : (ds.get c).Cell} (hx : b.cell c row = some x) {o : Option (ds.get c).Value}
    (h : w.hit (c, row) = some o) : (b.after w).HoldsAt (c, row) (some o) := by
  have hrow := lt_of_cell hx
  rw [after]
  obtain ⟨v, rfl, rfl⟩ | ⟨rfl | rfl, rfl⟩ := ParamWrite.hit_cases h
  · obtain ⟨s, hs, hholds⟩ := attrSetterCode_spec hw hrow.1
    rw [write, hs]
    refine ⟨_, ?_, hholds x.slot x.indicator⟩
    exact (cell_set s).trans (congrArg (Option.map _) hx)
  · rw [write, if_pos hrow.2]
    refine ⟨{ x with indicator := nullData }, ?_, rfl⟩
    refine cell_setNull.trans ?_
    rw [hx, Option.map_some, if_pos ⟨rfl, rfl⟩]
  · refine ⟨{ x with indicator := nullData }, ?_, rfl⟩
    refine (cell_modify (fun _ _ x => x) fun _ _ _ => nullData).trans ?_
    rw [hx]
    rfl

/-- A single call leaves in each cell what it writes there, and else what was there. -/
theorem HoldsAt.after {w : ParamWrite ds} {rows : ℕ} (hw : w.Fits rows)
    {k : Fin ds.length × ℕ} {o : Option (Option (ds.get k.1).Value)} (h : b.HoldsAt k o) :
    (b.after w).HoldsAt k ((w.hit k).or o) := by
  obtain ⟨x, hx, ho⟩ := h
  cases hhit : w.hit k with
  | none => exact ⟨x, (cell_after_of_hit hw hhit).trans hx, ho⟩
  | some v => exact holdsAt_of_hit hw hx hhit

/-! ## The table of last writes -/

/-- Calls do not change the number of rows. -/
theorem bufferSize_foldl_after (ws : List (ParamWrite ds)) :
    (ws.foldl after b).bufferSize = b.bufferSize := by
  induction ws generalizing b with
  | nil => rfl
  | cons w ws ih => exact ih.trans (SamePlaces.after w).bufferSize

/-- In a buffer that was just sized nothing has been written, and nothing is NULL. -/
theorem holdsAt_setBufferSize {rows : ℕ} (c : Fin ds.length) (h : row < atLeastOne rows) :
    (b.setBufferSize G t rows).HoldsAt (c, row) none := by
  refine ⟨⟨Slot.zero _ _ _, 0⟩, ?_, rfl⟩
  simp [cell, value, len, setBufferSize, resizeStorage, rebuildRowWise, bufferDescriptionInit,
    ColumnArrays.assign, ColumnArrays.store, h]

/-- After any calls, each cell holds the last write to it. -/
theorem holdsAt_foldl_after {rows : ℕ} {ws : List (ParamWrite ds)}
    (hws : ∀ w ∈ ws, w.Fits (atLeastOne rows)) (c : Fin ds.length) (h : row < atLeastOne rows) :
    (ws.foldl after (b.setBufferSize G t rows)).HoldsAt (c, row)
      (lastWrite ParamWrite.hit ws (c, row)) := by
  have hstep (b : GeneratedBuffer ds isParam) w k o (hw : w.Fits (atLeastOne rows))
      (h : b.HoldsAt k o) : (b.after w).HoldsAt k ((w.hit k).or o) := h.after hw
  have hinit : (b.setBufferSize G t rows).HoldsAt (c, row) none := holdsAt_setBufferSize c h
  have hrun := holds_foldl hstep hws hinit
  rwa [Option.or_none] at hrun

/-- What the getters return at a column and a row tells the last write. -/
def ShowsAt (b : GeneratedBuffer ds isParam) (k : Fin ds.length × ℕ)
    (o : Option (Option (ds.get k.1).Value)) : Prop :=
  ∃ x, b.cell k.1 k.2 = some x ∧ x.Shows o

theorem HoldsAt.showsAt_iff {k : Fin ds.length × ℕ} {o : Option (Option (ds.get k.1).Value)}
    (h : b.HoldsAt k o) : b.ShowsAt k o ↔ ∀ v, o = some (some v) → v.length < 2 ^ 31 := by
  obtain ⟨x, hx, ho⟩ := h
  have hsize : (ds.get k.1).columnSize.toNat < 2 ^ 32 := UInt32.toNat_lt _
  rw [← ho.shows_iff hsize]
  constructor
  · rintro ⟨y, hy, hshows⟩
    rw [hx] at hy
    exact Option.some.inj hy ▸ hshows
  · exact fun hshows => ⟨x, hx, hshows⟩

/-- After the calls `ws`, the buffer is a table of last writes: the getters of every cell tell the
    last write to it, and no further call changes a cell that it does not write to. -/
structure TableOfLastWrites (b : GeneratedBuffer ds true) (ws : List (ParamWrite ds)) : Prop where
  shows : ∀ c row, row < b.bufferSize → b.ShowsAt (c, row) (lastWrite ParamWrite.hit ws (c, row))
  frame : ∀ w : ParamWrite ds, w.Fits b.bufferSize → ∀ c row, w.hit (c, row) = none →
    (b.after w).cell c row = b.cell c row

/-- **A parameter buffer is a table of last writes**, just as long as the lengths of the values in
    it are those of an `int32_t`. -/
theorem tableOfLastWrites_iff (b : GeneratedBuffer ds true) (rows : ℕ) {ws : List (ParamWrite ds)}
    (hws : ∀ w ∈ ws, w.Fits (atLeastOne rows)) :
    TableOfLastWrites (ws.foldl after (b.setBufferSize G t rows)) ws ↔
      ∀ c row v, row < atLeastOne rows →
        lastWrite ParamWrite.hit ws (c, row) = some (some v) → v.length < 2 ^ 31 := by
  have hsize (c : Fin ds.length) :
      (ws.foldl after (b.setBufferSize G t rows)).bufferSize = atLeastOne rows :=
    (bufferSize_foldl_after ws).trans (bufferSize_setBufferSize c.pos rows)
  constructor
  · intro h c row v hrow
    exact (holdsAt_foldl_after hws c hrow).showsAt_iff.1 (h.shows c row (hsize c ▸ hrow)) v
  · intro h
    refine ⟨fun c row hrow => ?_, fun w hw c row => cell_after_of_hit hw⟩
    rw [hsize c] at hrow
    exact (holdsAt_foldl_after hws c hrow).showsAt_iff.2 fun v => h c row v hrow

/-- In a column that is not too wide, the lengths are those of an `int32_t`. -/
theorem length_lt_of_lastWrite {rows : ℕ} {ws : List (ParamWrite ds)}
    (hws : ∀ w ∈ ws, w.Fits rows) (hwidth : (ds.get c).columnSize.toNat < 2 ^ 31)
    {v : (ds.get c).Value} (h : lastWrite ParamWrite.hit ws (c, row) = some (some v)) :
    v.length < 2 ^ 31 := by
  obtain ⟨w, hmem, hhit⟩ := hit_of_lastWrite h
  obtain ⟨v', rfl, hv⟩ | ⟨-, hv⟩ := ParamWrite.hit_cases hhit
  · obtain rfl := Option.some.inj hv
    exact (hws _ hmem).length_lt hwidth
  · cases hv

/-- An integer and a text of two bytes, in two rows. -/
theorem tableOfLastWrites_iff_rows :
    let ds : List BufferDscr :=
      [⟨"id", .atomic, .integer, 4, rfl⟩, ⟨"s", .cString, .varChar, 2, rfl⟩]
    let ws : List (ParamWrite ds) :=
      [.set 0 7#32 0, .set 1 [97, 98] 0, .resetAllNull, .set 0 9#32 1, .set 1 [99] 1, .setNull 0 1]
    TableOfLastWrites (ws.foldl after (make .exact 1 ds true 2)) ws := by
  intro ds ws
  have hws : ∀ w ∈ ws, w.Fits 2 := by
    simp only [ws, List.forall_mem_cons]
    exact ⟨trivial, ⟨by decide, by decide⟩, trivial, trivial, ⟨by decide, by decide⟩, trivial,
      by simp⟩
  have hwidth : ∀ c, (ds.get c).columnSize.toNat < 2 ^ 31 := by decide
  exact (tableOfLastWrites_iff _ 2 hws).2 fun c row v _ h => length_lt_of_lastWrite hws (hwidth c) h

/-- The length of a text of 2^31 bytes is stored as -2^31. -/
theorem not_tableOfLastWrites_of_length {v : List UInt8} (hv : v.length = 2 ^ 31) :
    let ds : List BufferDscr := [⟨"s", .cString, .varChar, 2147483648, rfl⟩]
    let ws : List (ParamWrite ds) := [.set 0 v 0]
    ¬TableOfLastWrites (ws.foldl after (make .exact 1 ds true 1)) ws := by
  intro ds ws h
  have hws : ∀ w ∈ ws, w.Fits (atLeastOne 1) := by
    simp only [ws, List.forall_mem_cons]
    exact ⟨⟨Nat.le_of_eq hv, by decide⟩, by simp⟩
  have hrow : 0 < (ws.foldl after (make .exact 1 ds true 1)).bufferSize := by
    rw [bufferSize_foldl_after]
    decide
  have hholds : (ws.foldl after (make .exact 1 ds true 1)).HoldsAt (0, 0)
      (lastWrite ParamWrite.hit ws (0, 0)) := holdsAt_foldl_after hws 0 (by decide)
  exact Nat.ne_of_lt (hholds.showsAt_iff.1 (h.shows 0 0 hrow) v rfl) hv

/-- A text of 2^31 bytes, in a column that wide. -/
theorem not_tableOfLastWrites :
    let ds : List BufferDscr := [⟨"s", .cString, .varChar, 2147483648, rfl⟩]
    let ws : List (ParamWrite ds) := [.set 0 (List.replicate (2 ^ 31) (97 : UInt8)) 0]
    ¬TableOfLastWrites (ws.foldl after (make .exact 1 ds true 1)) ws :=
  not_tableOfLastWrites_of_length List.length_replicate

end GeneratedBuffer

end Dbgen4.Rtl
