import Dbgen4.Psql.Describe
import Dbgen4.Psql.Fetch

/-!
# Binary columns

Three PostgreSQL types are stored as binary strings (`category_fromOid`), by one decoder of
hexadecimal digits. The text of a `bytea` is made of them, a pair for each byte, but a bit
string is sent as its bits. These are taken for digits, in pairs: two bits become a byte, and
an unpaired last one is dropped. So the values of a `bytea` are told apart, and two bit strings
exactly when they differ in their pairs (`stored_apart_iff`).
-/

namespace Dbgen4.Psql

open Rtl Numeral

/-! ## The types -/

/-- The PostgreSQL types that are stored as binary strings. -/
inductive BinaryType
  | bytea
  | bit
  | varbit
  deriving DecidableEq, Repr

/-- A bit, in the text of a bit string. -/
def bitDigit (b : Bool) : UInt8 := if b then ascii '1' else ascii '0'

/-- The bits of a bit string, two by two; an unpaired last one is left out. -/
def bitPairs : List Bool → List (Bool × Bool)
  | a :: b :: bits => (a, b) :: bitPairs bits
  | _ => []

namespace BinaryType

/-- The OID of the type. -/
def oid : BinaryType → UInt32
  | bytea => 17
  | bit => 1560
  | varbit => 1562

/-- A value of the type, on the server. -/
@[reducible] def Value : BinaryType → Type
  | bytea => List UInt8
  | bit | varbit => List Bool

/-- The text that the server sends for a value. -/
def text : (ty : BinaryType) → ty.Value → Text
  | bytea, bytes => encodeBytea bytes
  | bit, bits | varbit, bits => bits.map bitDigit

/-- The pairs of digits in the text of a value. -/
def pairs : (ty : BinaryType) → ty.Value → ℕ
  | bytea, bytes => bytes.length
  | bit, bits | varbit, bits => bits.length / 2

/-- Two bit strings that have the same pairs, so that at most an unpaired last bit tells them
    apart. -/
def SamePairs : (ty : BinaryType) → ty.Value → ty.Value → Prop
  | bytea, _, _ => False
  | bit, v, w | varbit, v, w => bitPairs v = bitPairs w

end BinaryType

theorem category_fromOid (oid : UInt32) :
    (fromOid oid).category = .bString ↔ ∃ ty : BinaryType, ty.oid = oid := by
  constructor
  · intro h
    unfold fromOid at h
    split at h
    all_goals first
    | exact ⟨.bytea, rfl⟩
    | exact ⟨.bit, rfl⟩
    | exact ⟨.varbit, rfl⟩
    | cases h
  · rintro ⟨ty, rfl⟩
    cases ty <;> rfl

/-! ## The decoder -/

/-- The byte that two bits are taken for. -/
def pairByte (p : Bool × Bool) : UInt8 :=
  (if p.1 then 16 else 0) + if p.2 then 1 else 0

theorem pairByte_injective : Function.Injective pairByte := by
  rintro ⟨a, b⟩ ⟨c, d⟩
  revert a b c d
  decide

theorem hexByte_bitDigit (a b : Bool) :
    hexByte (bitDigit a) (bitDigit b) = some (pairByte (a, b)) := by
  cases a <;> cases b <;> rfl

theorem length_bitPairs (bits : List Bool) : (bitPairs bits).length = bits.length / 2 := by
  fun_induction bitPairs bits with
  | case1 a b bits ih =>
    rw [List.length_cons, ih, List.length_cons, List.length_cons]
    omega
  | case2 bits h =>
    rcases bits with _ | ⟨a, _ | ⟨b, bits⟩⟩
    · rfl
    · exact (Nat.div_eq_of_lt (Nat.lt_succ_self 1)).symm
    · exact absurd rfl (h a b bits)

/-- The digits of a bit string are the bytes of its pairs. -/
theorem hexPairs_bits (bits : List Bool) (capacity : ℕ) :
    hexPairs capacity (bits.map bitDigit) = ((bitPairs bits).map pairByte).take capacity := by
  fun_induction bitPairs bits generalizing capacity with
  | case1 a b bits ih =>
    cases capacity with
    | zero => rfl
    | succ capacity =>
      rw [List.map_cons, List.map_cons, hexPairs, hexByte_bitDigit, List.map_cons,
        List.take_succ_cons, ← ih]
  | case2 bits h =>
    rcases bits with _ | ⟨a, _ | ⟨b, bits⟩⟩
    · cases capacity <;> rfl
    · cases capacity <;> rfl
    · exact absurd rfl (h a b bits)

theorem bitDigit_ne (b : Bool) : bitDigit b ≠ ascii '\\' := by
  cases b <;> decide

/-- A bit string does not begin as a `bytea` does. -/
theorem decodeBytea_bits (bits : List Bool) (capacity : ℕ) :
    decodeBytea (bits.map bitDigit) capacity = ((bitPairs bits).map pairByte).take capacity := by
  rw [← hexPairs_bits]
  rcases bits with _ | ⟨a, _ | ⟨b, bits⟩⟩
  · rfl
  · rfl
  · exact if_neg fun h => bitDigit_ne a h.1

/-- No more bytes are written than there is room for. -/
theorem length_hexPairs_le_capacity (capacity : ℕ) (t : Text) :
    (hexPairs capacity t).length ≤ capacity := by
  fun_induction hexPairs capacity t with
  | case1 capacity c d t b hb ih => exact Nat.succ_le_succ ih
  | case2 => exact Nat.zero_le _
  | case3 => exact Nat.zero_le _

theorem length_decodeBytea_le_capacity (t : Text) (capacity : ℕ) :
    (decodeBytea t capacity).length ≤ capacity := by
  unfold decodeBytea
  split
  · split <;> exact length_hexPairs_le_capacity _ _
  · exact length_hexPairs_le_capacity _ _

/-! ## What is stored -/

/-- The bytes of a value that fits are the same as those of another one exactly when the values
    are, or are bit strings with the same pairs. -/
theorem decodeBytea_text_eq_iff (ty : BinaryType) {v w : ty.Value} {size : ℕ}
    (hv : ty.pairs v ≤ size) (hw : ty.pairs w ≤ size) :
    decodeBytea (ty.text v) size = decodeBytea (ty.text w) size ↔ v = w ∨ ty.SamePairs v w := by
  have hbits (v w : List Bool) (hv : v.length / 2 ≤ size) (hw : w.length / 2 ≤ size) :
      decodeBytea (v.map bitDigit) size = decodeBytea (w.map bitDigit) size ↔
        v = w ∨ bitPairs v = bitPairs w := by
    rw [decodeBytea_bits, decodeBytea_bits, List.take_of_length_le (by simpa [length_bitPairs]),
      List.take_of_length_le (by simpa [length_bitPairs]),
      (List.map_injective_iff.2 pairByte_injective).eq_iff]
    exact ⟨.inr, fun h => h.elim (congrArg bitPairs) id⟩
  cases ty with
  | bytea =>
    show decodeBytea (encodeBytea v) size = decodeBytea (encodeBytea w) size ↔ v = w ∨ False
    rw [decodeBytea_encodeBytea, decodeBytea_encodeBytea, List.take_of_length_le hv,
      List.take_of_length_le hw, or_false]
  | bit => exact hbits v w hv hw
  | varbit => exact hbits v w hv hw

/-- What is read back from a cell is the bytes that were stored. -/
theorem value_storeBString {t : SqlType} {size : ℕ} (cell : Cell .bString t size) {text : Text}
    (h : text.length < 2 ^ 31) : (storeBString cell text).value = decodeBytea text size := by
  have hlt : (decodeBytea text size).length < 2 ^ 31 := (length_decodeBytea_le text size).trans_lt h
  calc (storeBString cell text).value
      = (overwrite cell.slot (decodeBytea text size)).toList.take
          (decodeBytea text size).length := by
        rw [storeBString]
        change List.take (Cell.length _) _ = _
        rw [Cell.length_ofNat _ hlt]
    _ = decodeBytea text size := take_overwrite _ (length_decodeBytea_le_capacity text size)

/-- Two cells with the same contents: the bytes, and how many they are. -/
def SameContents {d : BufferDscr} (cell cell' : d.Cell) : Prop :=
  cell.value = cell'.value ∧ cell.indicator = cell'.indicator

/-- **Binary columns**: two different values that fit are stored apart, unless they are bit strings
    that differ in an unpaired last bit only; and never more is written than the column has. -/
theorem stored_apart_iff (F : FloatText) (ty : BinaryType) {d : BufferDscr}
    (hd : d.type = fromOid ty.oid) {v w : ty.Value} (hv : (ty.text v).length < 2 ^ 31)
    (hw : (ty.text w).length < 2 ^ 31) (hfv : ty.pairs v ≤ d.columnSize.toNat)
    (hfw : ty.pairs w ≤ d.columnSize.toNat) (old old' : d.Cell) :
    (∃ new new', storeValue F d old (ty.text v) = some new ∧
      storeValue F d old' (ty.text w) = some new' ∧
      ((v ≠ w → ¬SameContents new new') ↔ (ty.SamePairs v w → v = w))) ∧
    ∀ text, (decodeBytea text d.columnSize.toNat).length ≤ d.columnSize.toNat := by
  refine ⟨?_, fun text => length_decodeBytea_le_capacity text _⟩
  have hcat : d.category = .bString := by
    rw [d.category_eq, hd]
    exact (category_fromOid _).2 ⟨ty, rfl⟩
  obtain ⟨name, cat, t, size, _⟩ := d
  obtain rfl : cat = .bString := hcat
  refine ⟨_, _, rfl, rfl, ?_⟩
  have hsame : SameContents (d := ⟨name, .bString, t, size, _⟩) (storeBString old (ty.text v))
      (storeBString old' (ty.text w)) ↔ v = w ∨ ty.SamePairs v w := by
    rw [← decodeBytea_text_eq_iff ty hfv hfw, SameContents]
    refine ⟨fun h => ?_, fun h => ⟨?_, ?_⟩⟩
    · exact (value_storeBString old hv).symm.trans (h.1.trans (value_storeBString old' hw))
    · exact (value_storeBString old hv).trans (h.trans (value_storeBString old' hw).symm)
    · exact congrArg (fun bytes => Int32.ofNat (List.length bytes)) h
  constructor
  · intro h hpairs
    by_contra hne
    exact h hne (hsame.2 (.inr hpairs))
  · intro h hne hsc
    exact hne ((hsame.1 hsc).elim id h)

/-- A column of bit strings. -/
def flags : BufferDscr := ⟨"flags", .bString, .varBinary, 8, rfl⟩

/-- Nothing has been stored in it. -/
def noFlags : flags.Cell := ⟨Slot.zero flags.type flags.columnSize.toNat flags.category, 0⟩

/-- The bit strings 10 and 01 are told apart. -/
theorem stored_apart_flags : ∃ new new',
    storeValue noFloats flags noFlags (BinaryType.varbit.text [true, false]) = some new ∧
      storeValue noFloats flags noFlags (BinaryType.varbit.text [false, true]) = some new' ∧
      ¬SameContents new new' := by
  obtain ⟨⟨new, new', hnew, hnew', h⟩, -⟩ :=
    stored_apart_iff noFloats .varbit (d := flags) rfl (v := [true, false]) (w := [false, true])
      (by decide) (by decide) (by decide) (by decide) noFlags noFlags
  refine ⟨new, new', hnew, hnew', h.2 (fun hpairs => ?_) (by decide)⟩
  exact absurd hpairs (by unfold BinaryType.SamePairs; decide)

/-- The bit strings 100 and 101 are not. -/
theorem not_stored_apart :
    ¬∀ (F : FloatText) (ty : BinaryType) (d : BufferDscr) (v w : ty.Value) (old old' : d.Cell),
      d.type = fromOid ty.oid → (ty.text v).length ≤ d.columnSize.toNat →
      (ty.text w).length ≤ d.columnSize.toNat → v ≠ w →
      ∃ new new', storeValue F d old (ty.text v) = some new ∧
        storeValue F d old' (ty.text w) = some new' ∧ ¬SameContents new new' := by
  intro h
  obtain ⟨new, new', hnew, hnew', hne⟩ := h noFloats .varbit flags [true, false, false]
    [true, false, true] noFlags noFlags rfl (by decide) (by decide) (by decide)
  obtain rfl := Option.some.inj hnew
  obtain rfl := Option.some.inj hnew'
  exact hne ⟨rfl, rfl⟩

end Dbgen4.Psql
