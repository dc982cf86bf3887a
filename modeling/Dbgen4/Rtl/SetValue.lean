import Mathlib.Data.List.Induction
import Dbgen4.Rtl.Column

/-!
# Setters

The generated setter of a column stores a value and its length, by the category
of the column (`attr_setter_code` of `generator.cpp`). A plain value is assigned
to the slot through `at()`, which throws for a row that there is not. A string
goes through `rtl::set_value` (`rtl/rtl.hpp`), with the capacity of the column's
arrays, which for text has room for a terminator: it either throws, before it
has stored anything, or stores the length, the elements of the value and, for
text, a terminator. The stores are recorded in order; the arrays of a column lie
one after the other, so that one past the end of a row is the first of the next
(`Arrays.store`).

A string setter stays inside its slot unless the value fills the terminator's
place or the row is one past the last (`setValue_safe_iff`). Then it may store
past the arrays of the column (`setterOverruns_iff`), to memory that is not
theirs (`setter_pastLast`).
-/

namespace Dbgen4.Rtl

/-- The character types of `rtl::set_value`. -/
inductive CharT
  | char
  | wchar
  | uint8
  deriving DecidableEq, Repr

namespace CharT

/-- The elements of an array. -/
@[reducible] def Elem : CharT → Type
  | .char | .uint8 => UInt8
  | .wchar => UInt32

/-- The terminator. -/
def zero : (k : CharT) → k.Elem
  | .char | .uint8 => (0 : UInt8)
  | .wchar => (0 : UInt32)

/-- Whether a value is followed by a terminator. -/
def terminated : CharT → Bool
  | .char | .wchar => true
  | .uint8 => false

/-- The elements of an array of the declared width `l`, which the setter passes as
    `NetCapacity`. -/
def netCapacity (l : ℕ) : CharT → ℕ
  | .char | .wchar => l + 1
  | .uint8 => l

theorem netCapacity_eq {l : ℕ} {k : CharT} :
    k.netCapacity l = if k.terminated then l + 1 else l := by
  cases k <;> rfl

theorem le_netCapacity {l : ℕ} {k : CharT} : l ≤ k.netCapacity l := by
  rw [netCapacity_eq]
  split
  · exact Nat.le_succ l
  · exact Nat.le_refl l

end CharT

/-- A store into the indicators or into the arrays of a column. -/
inductive Store (α : Type)
  /-- `len_vec[row]`. -/
  | len (row : ℕ) (n : Int32)
  /-- `data_vec[row][i]`. -/
  | elem (row i : ℕ) (c : α)
  deriving DecidableEq

/-- `rtl::set_value`, on a column of `rows` rows: what it throws, or what it stores. -/
def setValue (k : CharT) (netCapacity : ℕ) (value : List k.Elem) (row rows : ℕ) :
    Except String (List (Store k.Elem)) :=
  if value.length > netCapacity then
    .error s!"Value is too long. provided: {value.length} maximum allowed {netCapacity}"
  else if rows < row then
    .error s!"Row is too long. provided: {row} maximum allowed {rows}"
  else
    .ok (.len row (Int32.ofNat value.length) :: value.mapIdx (fun i c => .elem row i c) ++
      if k.terminated then [.elem row value.length k.zero] else [])

/-- The setter of a string column of the declared width `l`. -/
def setter (k : CharT) (l : ℕ) (value : List k.Elem) (row rows : ℕ) :
    Except String (List (Store k.Elem)) :=
  setValue k (k.netCapacity l) value row rows

/-! ## Stores in memory -/

/-- The memory of a column, from the first element of its arrays and from its first
    indicator on. -/
structure Arrays (α : Type) where
  data : ℕ → α
  lens : ℕ → Int32

/-- A store into arrays of `cap` elements each, one after the other. -/
def Arrays.store {α : Type} (cap : ℕ) (m : Arrays α) : Store α → Arrays α
  | .len row n => { m with lens := Function.update m.lens row n }
  | .elem row i c => { m with data := Function.update m.data (row * cap + i) c }

/-- The array of a row. -/
def Arrays.slot {α : Type} (m : Arrays α) (cap row : ℕ) : Vector α cap :=
  Vector.ofFn fun i => m.data (row * cap + i)

/-- What a store does to the array of the row `r`, of `n` elements. -/
def Store.toSlot {α : Type} {n : ℕ} (r : ℕ) (slot : Vector α n) : Store α → Vector α n
  | .len _ _ => slot
  | .elem row i c =>
    if r * n ≤ row * n + i then slot.setIfInBounds (row * n + i - r * n) c else slot

/-- What a store does to the indicator of the row `r`. -/
def Store.toLen {α : Type} (r : ℕ) (len : Int32) : Store α → Int32
  | .len row n => if row = r then n else len
  | .elem _ _ _ => len

/-- Each row sees of the stores what they do to the memory. -/
theorem Arrays.slot_foldl {α : Type} {n : ℕ} (m : Arrays α) (r : ℕ) (stores : List (Store α)) :
    (stores.foldl (store n) m).slot n r = stores.foldl (Store.toSlot r) (m.slot n r) := by
  induction stores generalizing m with
  | nil => rfl
  | cons s stores ih =>
    rw [List.foldl_cons, List.foldl_cons, ih]
    congr 1
    cases s with
    | len row len => rfl
    | elem row i c =>
      ext j hj
      simp only [slot, store, Store.toSlot, Vector.getElem_ofFn, Function.update_apply]
      split <;> split <;> simp [Vector.getElem_setIfInBounds] <;> omega

theorem Arrays.lens_foldl {α : Type} {n : ℕ} (m : Arrays α) (r : ℕ) (stores : List (Store α)) :
    (stores.foldl (store n) m).lens r = stores.foldl (Store.toLen r) (m.lens r) := by
  induction stores generalizing m with
  | nil => rfl
  | cons s stores ih =>
    rw [List.foldl_cons, List.foldl_cons, ih]
    congr 1
    cases s with
    | len row len =>
      refine (Function.update_apply m.lens row len r).trans ?_
      rw [Store.toLen]
      simp only [eq_comm]
    | elem row i c => rfl

/-- A store to what belongs to a row that exists: its indicator, or one of its `cap` elements. -/
def Store.Within {α : Type} (cap rows row : ℕ) : Store α → Prop
  | .len r _ => r = row ∧ row < rows
  | .elem r i _ => r = row ∧ row < rows ∧ i < cap

/-- What belongs to other rows, or to no row at all, is left alone. -/
theorem Arrays.store_frame {α : Type} {cap rows row : ℕ} (m : Arrays α) {stores : List (Store α)}
    (h : ∀ s ∈ stores, s.Within cap rows row) :
    (∀ r ≠ row, (stores.foldl (Arrays.store cap) m).lens r = m.lens r) ∧
    ∀ o, o < row * cap ∨ row * cap + cap ≤ o →
      (stores.foldl (Arrays.store cap) m).data o = m.data o := by
  induction stores generalizing m with
  | nil => exact ⟨fun _ _ => rfl, fun _ _ => rfl⟩
  | cons s stores ih =>
    obtain ⟨hlens, hdata⟩ := ih (m.store cap s) fun s' hs' => h s' (List.mem_cons_of_mem _ hs')
    have hs := h s List.mem_cons_self
    refine ⟨fun r hr => (hlens r hr).trans ?_, fun o ho => (hdata o ho).trans ?_⟩
    · cases s with
      | len r' n =>
        obtain ⟨rfl, -⟩ := hs
        exact Function.update_of_ne hr ..
      | elem r' i c => rfl
    · cases s with
      | len r' n => rfl
      | elem r' i c =>
        obtain ⟨rfl, -, hi⟩ := hs
        refine Function.update_of_ne ?_ ..
        omega

/-! ## What the setters accept -/

variable {k : CharT} {l cap : ℕ} {value : List k.Elem} {row rows : ℕ}

theorem setValue_isOk : (setValue k cap value row rows).isOk ↔
    value.length ≤ cap ∧ row ≤ rows := by
  rw [setValue]
  split
  · rename_i h
    exact iff_of_false Bool.false_ne_true fun h' => Nat.not_le_of_gt h h'.1
  · rename_i hlen
    split
    · rename_i h
      exact iff_of_false Bool.false_ne_true fun h' => Nat.not_le_of_gt h h'.2
    · rename_i hrow
      exact iff_of_true rfl ⟨Nat.not_lt.1 hlen, Nat.not_lt.1 hrow⟩

/-- The stores of a call that does not throw. -/
theorem setValue_ok {stores : List (Store k.Elem)}
    (h : setValue k cap value row rows = .ok stores) :
    stores = .len row (Int32.ofNat value.length) :: value.mapIdx (fun i c => .elem row i c) ++
      if k.terminated then [.elem row value.length k.zero] else [] := by
  rw [setValue] at h
  split at h
  · cases h
  · split at h
    · cases h
    · exact (Except.ok.inj h).symm

/-- A call that does not throw. -/
theorem setter_of_le (hlen : value.length ≤ k.netCapacity l) (hrow : row ≤ rows) :
    ∃ stores, setter k l value row rows = .ok stores := by
  have hok : (setter k l value row rows).isOk := setValue_isOk.2 ⟨hlen, hrow⟩
  cases hstores : setter k l value row rows with
  | error e =>
    rw [hstores] at hok
    cases hok
  | ok stores => exact ⟨stores, rfl⟩

theorem setter_le {stores : List (Store k.Elem)} (h : setter k l value row rows = .ok stores) :
    value.length ≤ k.netCapacity l ∧ row ≤ rows := by
  have hok : (setter k l value row rows).isOk := by
    rw [h]
    rfl
  exact setValue_isOk.1 hok

/-- The setter does what is asked of it: it accepts the values that fit, in the rows that exist,
    and stores only to what belongs to the row. A call that throws has stored nothing. -/
def SetterSafe (k : CharT) (l : ℕ) (value : List k.Elem) (row rows : ℕ) : Prop :=
  (∀ stores, setter k l value row rows = .ok stores →
    ∀ s ∈ stores, s.Within (k.netCapacity l) rows row) ∧
  ((setter k l value row rows).isOk ↔ value.length ≤ l ∧ row < rows)

/-- A value that fits is stored inside its slot, together with its terminator. -/
theorem within_of_fits {n : ℕ} (hlen : value.length ≤ l) (hrow : row < rows)
    {stores : List (Store k.Elem)} (h : setter k l value row n = .ok stores) {s : Store k.Elem}
    (hs : s ∈ stores) : s.Within (k.netCapacity l) rows row := by
  have hcap : l ≤ k.netCapacity l := CharT.le_netCapacity
  rw [setValue_ok h] at hs
  rcases List.mem_append.1 hs with hs | hs
  · rcases List.mem_cons.1 hs with rfl | hs
    · exact ⟨rfl, hrow⟩
    · obtain ⟨i, hi, rfl⟩ := List.mem_mapIdx.1 hs
      exact ⟨rfl, hrow, by omega⟩
  · cases k with
    | char | wchar =>
      obtain rfl := List.mem_singleton.1 hs
      exact ⟨rfl, hrow, Nat.lt_succ_of_le hlen⟩
    | uint8 => cases hs

/-- **A string setter stays inside its slot** just if neither is the row one past the last, for a
    value that the capacity admits, nor does a text fill the place of its terminator. -/
theorem setValue_safe_iff (k : CharT) (l : ℕ) (value : List k.Elem) (row rows : ℕ) :
    SetterSafe k l value row rows ↔
      ¬(row = rows ∧ value.length ≤ k.netCapacity l) ∧
      ¬(k.terminated ∧ value.length = l + 1 ∧ row ≤ rows) := by
  have hcap : k.netCapacity l = if k.terminated then l + 1 else l := CharT.netCapacity_eq
  have hok : (setter k l value row rows).isOk ↔ value.length ≤ k.netCapacity l ∧ row ≤ rows :=
    setValue_isOk
  constructor
  · rintro ⟨-, hacc⟩
    rw [hok] at hacc
    refine ⟨fun ⟨hrow, hlen⟩ => ?_, fun ⟨hterm, hlen, hrow⟩ => ?_⟩
    · exact Nat.lt_irrefl _ (hrow ▸ (hacc.1 ⟨hlen, Nat.le_of_eq hrow⟩).2)
    · rw [if_pos hterm] at hcap
      have := (hacc.1 ⟨Nat.le_of_eq (hlen.trans hcap.symm), hrow⟩).1
      omega
  · rintro ⟨hlast, hfull⟩
    -- What is accepted fits: the cases in which it would not are the two excluded.
    have hfits : value.length ≤ k.netCapacity l ∧ row ≤ rows → value.length ≤ l ∧ row < rows := by
      rintro ⟨hlen, hrow⟩
      refine ⟨?_, Nat.lt_of_le_of_ne hrow fun h => hlast ⟨h, hlen⟩⟩
      by_contra hlong
      refine hfull ?_
      split at hcap
      · rename_i hterm
        exact ⟨hterm, by omega, hrow⟩
      · omega
    refine ⟨fun stores h s hs => ?_, hok.trans ⟨hfits, fun ⟨hlen, hrow⟩ => ?_⟩⟩
    · have hacc : (setter k l value row rows).isOk := by
        rw [h]
        rfl
      obtain ⟨hlen, hrow⟩ := hfits (hok.1 hacc)
      exact within_of_fits hlen hrow h hs
    · refine ⟨?_, Nat.le_of_lt hrow⟩
      split at hcap <;> omega

/-- A text of three characters in a column of width two: the terminator is stored one past the
    array, which is the first character of the next row. -/
theorem not_setValue_safe : ¬SetterSafe .char 2 [97, 98, 99] 0 2 := by
  intro h
  have := (h.2.1 rfl).1
  exact absurd this (by decide)

/-! ## What is stored -/

section stores

variable {α : Type} {n : ℕ}

/-- Stored one after the other, the elements are the front of the array. -/
theorem take_foldl_elem (row : ℕ) (slot : Vector α n) {v : List α} (h : v.length ≤ n) :
    (((v.mapIdx fun i c => Store.elem row i c).foldl (Store.toSlot row) slot).toList).take
      v.length = v := by
  induction v using List.reverseRecOn with
  | nil => rfl
  | append_singleton v c ih =>
    rw [List.length_append, List.length_singleton] at h
    rw [List.mapIdx_concat, List.foldl_append, List.foldl_cons, List.foldl_nil, Store.toSlot,
      if_pos (Nat.le_add_right _ _), Nat.add_sub_cancel_left, Vector.toList_setIfInBounds,
      List.length_append, List.length_singleton, List.take_add_one,
      List.take_set_of_le (Nat.le_refl _), ih (by omega),
      List.getElem?_set_self (by rw [Vector.length_toList]; omega)]
    rfl

/-- Stores of elements leave the indicators alone. -/
theorem foldl_toLen_elem (r row : ℕ) (len : Int32) (v : List α) :
    (v.mapIdx fun i c => Store.elem row i c).foldl (Store.toLen r) len = len := by
  induction v using List.reverseRecOn with
  | nil => rfl
  | append_singleton v c ih =>
    rw [List.mapIdx_concat, List.foldl_append, ih]
    rfl

/-- A store to what belongs to a row leaves the other rows alone. -/
theorem Store.Within.toSlot_of_ne {s : Store α} {rows row r : ℕ} (h : s.Within n rows row)
    (hr : r ≠ row) (slot : Vector α n) : s.toSlot r slot = slot := by
  cases s with
  | len row' len => rfl
  | elem row' i c =>
    obtain ⟨rfl, -, hi⟩ := h
    rw [toSlot]
    split
    · rename_i hle
      have hlt : r < row' := by
        by_contra hge
        have := Nat.mul_le_mul_right n (Nat.lt_of_le_of_ne (Nat.not_lt.1 hge) hr.symm)
        rw [Nat.succ_mul] at this
        omega
      have := Nat.mul_le_mul_right n hlt
      rw [Nat.succ_mul] at this
      exact Vector.setIfInBounds_eq_of_size_le (by omega)
    · rfl

theorem Store.Within.toLen_of_ne {s : Store α} {rows row r : ℕ} (h : s.Within n rows row)
    (hr : r ≠ row) (len : Int32) : s.toLen r len = len := by
  cases s with
  | len row' len' => exact if_neg fun he => hr (he.symm.trans h.1)
  | elem row' i c => rfl

/-- Stores to what belongs to a row leave the other rows alone. -/
theorem foldl_of_within {stores : List (Store α)} {rows row r : ℕ}
    (h : ∀ s ∈ stores, s.Within n rows row) (hr : r ≠ row) (slot : Vector α n) (len : Int32) :
    stores.foldl (Store.toSlot r) slot = slot ∧ stores.foldl (Store.toLen r) len = len := by
  induction stores with
  | nil => exact ⟨rfl, rfl⟩
  | cons s stores ih =>
    have hs := h s List.mem_cons_self
    rw [List.foldl_cons, List.foldl_cons, hs.toSlot_of_ne hr, hs.toLen_of_ne hr]
    exact ih fun s' hs' => h s' (List.mem_cons_of_mem _ hs')

end stores

/-- A string setter that does not throw stores the value at the front of the array of the row. -/
theorem take_setter {stores : List (Store k.Elem)} (h : setter k l value row rows = .ok stores)
    (slot : Vector k.Elem (k.netCapacity l)) :
    (stores.foldl (Store.toSlot row) slot).toList.take value.length = value := by
  -- The terminator is stored behind the value.
  have hterm (a : Vector k.Elem (k.netCapacity l)) : ((if k.terminated then
      [Store.elem row value.length k.zero] else []).foldl (Store.toSlot row) a).toList.take
        value.length = a.toList.take value.length := by
    split
    · rw [List.foldl_cons, List.foldl_nil, Store.toSlot, if_pos (Nat.le_add_right _ _),
        Nat.add_sub_cancel_left, Vector.toList_setIfInBounds, List.take_set_of_le (Nat.le_refl _)]
    · rfl
  rw [setValue_ok h, List.cons_append, List.foldl_cons, List.foldl_append, hterm]
  exact take_foldl_elem row slot (setter_le h).1

/-- It stores the length in the indicator of the row. -/
theorem len_setter {stores : List (Store k.Elem)} (h : setter k l value row rows = .ok stores)
    (len : Int32) : stores.foldl (Store.toLen row) len = Int32.ofNat value.length := by
  rw [setValue_ok h, List.cons_append, List.foldl_cons, List.foldl_append, foldl_toLen_elem,
    Store.toLen, if_pos rfl]
  split <;> rfl

/-! ## Stores past the arrays -/

/-- A store to none of `rows` rows of `cap` elements each, nor to their indicators. -/
def Store.Past {α : Type} (cap rows : ℕ) : Store α → Prop
  | .len row _ => rows ≤ row
  | .elem row i _ => rows * cap ≤ row * cap + i

/-- A string setter stores past the arrays of its column. -/
def SetterOverruns (k : CharT) (l : ℕ) (value : List k.Elem) (row rows : ℕ) : Prop :=
  ∃ stores, setter k l value row rows = .ok stores ∧ ∃ s ∈ stores, s.Past (k.netCapacity l) rows

/-- **Stores past the arrays** are those for the row one past the last, and the terminator of a
    text that fills the array of the last row. -/
theorem setterOverruns_iff : SetterOverruns k l value row rows ↔
    (row = rows ∧ value.length ≤ k.netCapacity l) ∨
      k.terminated ∧ value.length = l + 1 ∧ row + 1 = rows := by
  have hcap (hterm : k.terminated) : k.netCapacity l = l + 1 := by
    rw [CharT.netCapacity_eq, if_pos hterm]
  constructor
  · rintro ⟨stores, h, s, hs, hpast⟩
    obtain ⟨hlen, hrow⟩ := setter_le h
    rcases Nat.eq_or_lt_of_le hrow with rfl | hrow
    · exact .inl ⟨rfl, hlen⟩
    -- In a row that there is, the elements are not past the arrays.
    have hend := Nat.mul_le_mul_right (k.netCapacity l) hrow
    rw [Nat.succ_mul] at hend
    rw [setValue_ok h] at hs
    rcases List.mem_append.1 hs with hs | hs
    · rcases List.mem_cons.1 hs with rfl | hs
      · exact absurd hrow (Nat.not_lt.2 hpast)
      · obtain ⟨i, hi, rfl⟩ := List.mem_mapIdx.1 hs
        rw [Store.Past] at hpast
        omega
    · split at hs
      · rename_i hterm
        obtain rfl := List.mem_singleton.1 hs
        rw [Store.Past] at hpast
        have hcap := hcap hterm
        refine .inr ⟨hterm, by omega, ?_⟩
        by_contra hlast
        have hnext := Nat.mul_le_mul_right (k.netCapacity l) (Nat.lt_of_le_of_ne hrow hlast)
        rw [Nat.succ_mul, Nat.succ_mul] at hnext
        omega
      · cases hs
  · rintro (⟨rfl, hlen⟩ | ⟨hterm, hlen, rfl⟩)
    · obtain ⟨stores, h⟩ := setter_of_le hlen (Nat.le_refl row)
      refine ⟨stores, h, .len row (Int32.ofNat value.length), ?_, Nat.le_refl row⟩
      rw [setValue_ok h]
      exact List.mem_append_left _ List.mem_cons_self
    · have hcap := hcap hterm
      obtain ⟨stores, h⟩ := setter_of_le (Nat.le_of_eq (hlen.trans hcap.symm)) (Nat.le_succ row)
      refine ⟨stores, h, .elem row value.length k.zero, ?_, ?_⟩
      · rw [setValue_ok h, if_pos hterm]
        exact List.mem_append_right _ List.mem_cons_self
      · have hend : (row + 1) * k.netCapacity l = row * k.netCapacity l + value.length := by
          rw [Nat.succ_mul, hcap, hlen]
        exact Nat.le_of_eq hend

/-- The setter for the row one past the last leaves the rows alone, and stores the length and the
    value where an indicator and an array would follow those of the column. -/
theorem setter_pastLast (m : Arrays k.Elem) (hlen : value.length ≤ l) {stores : List (Store k.Elem)}
    (h : setter k l value rows rows = .ok stores) :
    let m' := stores.foldl (Arrays.store (k.netCapacity l)) m
    (∀ r < rows, m'.lens r = m.lens r) ∧
      (∀ o < rows * k.netCapacity l, m'.data o = m.data o) ∧
      m'.lens rows = Int32.ofNat value.length ∧
      (m'.slot (k.netCapacity l) rows).toList.take value.length = value := by
  have hwithin (s) (hs : s ∈ stores) : s.Within (k.netCapacity l) (rows + 1) rows :=
    within_of_fits hlen (Nat.lt_succ_self rows) h hs
  obtain ⟨hlens, hdata⟩ := m.store_frame hwithin
  refine ⟨fun r hr => hlens r (Nat.ne_of_lt hr), fun o ho => hdata o (.inl ho), ?_, ?_⟩
  · rw [Arrays.lens_foldl, len_setter h]
  · rw [Arrays.slot_foldl, take_setter h]

/-! ## The setters of a column -/

/-- The length that goes with a value: of a string its elements, else the size of the slot. -/
def Value.length {t : SqlType} : {cat : SqlCat} → Value cat t → ℕ
  | .atomic, _ => t.cppType.size
  | .cString, v => List.length (α := UInt8) v
  | .wString, v => List.length (α := UInt32) v
  | .bString, v => List.length (α := UInt8) v
  | .struct, _ => t.cppType.size

/-- `std::out_of_range`: of `at()` of a vector, or of `rtl::set_value`. -/
inductive OutOfRange
  | at
  | setValue (what : String)
  deriving DecidableEq, Repr

/-- What a setter stores in the array and the indicator of each row. -/
structure CellStore (α : Type) where
  slot : ℕ → α → α
  len : ℕ → Int32 → Int32

/-- `{0}_.at(row) = v; len_{0}_.at(row) = sizeof({0}_.at(0));`, on a column of `rows` rows. -/
def assignAt {α : Type} (size : ℕ) (v : α) (row rows : ℕ) : Except OutOfRange (CellStore α) :=
  if row < rows then
    .ok ⟨fun r slot => if r = row then v else slot,
      fun r len => if r = row then Int32.ofNat size else len⟩
  else .error .at

/-- `rtl::set_value` on the arrays and the indicators of a column. -/
def setString (k : CharT) (l : ℕ) (v : List k.Elem) (row rows : ℕ) :
    Except OutOfRange (CellStore (Vector k.Elem (k.netCapacity l))) :=
  match setter k l v row rows with
  | .ok stores => .ok ⟨fun r slot => stores.foldl (Store.toSlot r) slot,
      fun r len => stores.foldl (Store.toLen r) len⟩
  | .error what => .error (.setValue what)

/-- `attr_setter_code`, for a column of `rows` rows and the width `size`. A `bool` is stored as a
    `uint8_t`, and cast back by the getter. -/
def attrSetterCode {t : SqlType} {size : ℕ} : (cat : SqlCat) → Value cat t → (row rows : ℕ) →
    Except OutOfRange (CellStore (Slot cat t size))
  | .atomic, v, row, rows => assignAt t.cppType.size v row rows
  | .cString, v, row, rows => setString .char size v row rows
  | .wString, v, row, rows => setString .wchar size v row rows
  | .bString, v, row, rows => setString .uint8 size v row rows
  | .struct, v, row, rows => assignAt t.cppType.size v row rows

/-- The setter of a column stores past its arrays. A row past the last is refused by `at()`, so that
    this is about strings. -/
def Value.Overruns {t : SqlType} (size row rows : ℕ) : {cat : SqlCat} → Value cat t → Prop
  | .atomic, _ => False
  | .cString, v => SetterOverruns .char size v row rows
  | .wString, v => SetterOverruns .wchar size v row rows
  | .bString, v => SetterOverruns .uint8 size v row rows
  | .struct, _ => False

end Dbgen4.Rtl
