import Mathlib.Data.List.Induction
import Mathlib.Tactic.IntervalCases
import Dbgen4.Numeral
import Dbgen4.Rtl.SqlTypes

/-!
# Formatting into fixed-size buffers

The formatters of the structure types (`rtl/rtl_fmt.hpp`) print with `snprintf`
into an array of fixed size and hand out a view of what was written. Of them,
the backend renders guids with this one (`Guid.format`); a timestamp
(`Timestamp.format`) loses the trailing zeroes of its fraction, but for one.
-/

namespace Dbgen4.Rtl

open Numeral

/-- The byte of an ASCII character. -/
def ascii (c : Char) : UInt8 := c.toNat.toUInt8

/-- The conversion `%0wx` of an unsigned value. -/
def hex (w n : ℕ) : List UInt8 := pad w (numeral 16 n)

/-- `fmt_detail::written_len`: what `snprintf` wrote, from what it returned. -/
def writtenLen (written : Int) (capacity : ℕ) : ℕ :=
  if written < 0 ∨ capacity = 0 then 0 else min written.toNat (capacity - 1)

/-- What `snprintf` leaves in an array of `capacity` bytes: the output, cut off so
    that its terminator fits. -/
def snprintf (capacity : ℕ) (output : List UInt8) : List UInt8 :=
  output.take (capacity - 1) ++ [0]

/-- The view a formatter takes of its array. It never sees the terminator. -/
def view (capacity : ℕ) (output : List UInt8) : List UInt8 :=
  (snprintf capacity output).take (writtenLen output.length capacity)

theorem view_eq (capacity : ℕ) (output : List UInt8) :
    view capacity output = output.take (capacity - 1) := by
  rcases capacity with _ | n
  · simp [view, writtenLen]
  · have h : writtenLen output.length (n + 1) = (output.take n).length := by
      rw [writtenLen, if_neg (by omega), Int.toNat_natCast, List.length_take, Nat.add_sub_cancel,
        Nat.min_comm]
    rw [view, snprintf, Nat.add_sub_cancel, h, List.take_left]

/-- What `snprintf` leaves of an output for which there is room. -/
theorem snprintf_eq {capacity : ℕ} {output : List UInt8} (h : output.length < capacity) :
    snprintf capacity output = output ++ [0] := by
  rw [snprintf, List.take_of_length_le (by omega)]

theorem writtenLen_eq {n capacity : ℕ} (h : n < capacity) : writtenLen n capacity = n := by
  rw [writtenLen, if_neg (by omega), Int.toNat_natCast, Nat.min_eq_left (by omega)]

/-- `fmt::formatter<rtl::guid>`: `xxxxxxxx-xxxx-xxxx-xxxx-xxxxxxxxxxxx`. -/
def Guid.format (g : Guid) : List UInt8 :=
  view 40 (hex 8 g.data1.toNat ++ [ascii '-'] ++ hex 4 g.data2.toNat ++ [ascii '-'] ++
    hex 4 g.data3.toNat ++ [ascii '-'] ++ hex 2 g.data4[0].toNat ++ hex 2 g.data4[1].toNat ++
    [ascii '-'] ++ hex 2 g.data4[2].toNat ++ hex 2 g.data4[3].toNat ++ hex 2 g.data4[4].toNat ++
    hex 2 g.data4[5].toNat ++ hex 2 g.data4[6].toNat ++ hex 2 g.data4[7].toNat)

/-- An unsigned value that fits is printed in exactly `w` digits. -/
theorem hex_eq {w n : ℕ} (hw : 0 < w) (h : n < 16 ^ w) : hex w n = fixed 16 w n :=
  pad_numeral (by omega) hw h

theorem hex_byte (c : UInt8) : hex 2 c.toNat = fixed 16 2 c.toNat :=
  hex_eq (by omega) c.toNat_lt

/-- The array has room for any guid: nothing is cut off. -/
theorem Guid.format_eq (g : Guid) :
    g.format = fixed 16 8 g.data1.toNat ++ ascii '-' :: (fixed 16 4 g.data2.toNat ++
      ascii '-' :: (fixed 16 4 g.data3.toNat ++ ascii '-' :: (fixed 16 2 g.data4[0].toNat ++
      fixed 16 2 g.data4[1].toNat ++ ascii '-' :: (fixed 16 2 g.data4[2].toNat ++
      fixed 16 2 g.data4[3].toNat ++ fixed 16 2 g.data4[4].toNat ++ fixed 16 2 g.data4[5].toNat ++
      fixed 16 2 g.data4[6].toNat ++ fixed 16 2 g.data4[7].toNat)))) := by
  rw [Guid.format, view_eq, List.take_of_length_le]
  · rw [hex_eq (by omega) g.data1.toNat_lt, hex_eq (by omega) g.data2.toNat_lt,
      hex_eq (by omega) g.data3.toNat_lt]
    simp only [hex_byte, List.append_assoc, List.cons_append, List.nil_append]
  · rw [hex_eq (by omega) g.data1.toNat_lt, hex_eq (by omega) g.data2.toNat_lt,
      hex_eq (by omega) g.data3.toNat_lt]
    simp [hex_byte]

/-! ## Timestamps -/

/-- The conversion `%0wd` of a signed value. -/
def dec (w : ℕ) (v : ℤ) : List UInt8 :=
  if v < 0 then ascii '-' :: pad (w - 1) (numeral 10 v.natAbs) else pad w (numeral 10 v.natAbs)

/-- The loop of `fmt_detail::trim_fraction`. -/
def trimZeroes (buffer : List UInt8) (firstDigit : ℕ) : ℕ → ℕ
  | 0 => 0
  | len + 1 =>
    if firstDigit < len + 1 ∧ buffer[len]? = some (ascii '0') then trimZeroes buffer firstDigit len
    else len + 1

/-- `fmt_detail::trim_fraction`: the length without the trailing zeroes of a fraction, of which
    one digit always survives. -/
def trimFraction (buffer : List UInt8) (len firstDigit : ℕ) : ℕ :=
  let len := trimZeroes buffer firstDigit len
  if len = firstDigit then firstDigit + 1 else len

/-- `fmt_detail::append_fraction`: the array, and the length of the text in it. -/
def appendFraction (capacity : ℕ) (buffer : List UInt8) (len : ℕ) (fraction : UInt32) :
    List UInt8 × ℕ :=
  let output := ascii '.' :: pad 9 (numeral 10 fraction.toNat)
  let buffer := buffer.take len ++ snprintf (capacity - len) output
  let total := len + writtenLen output.length (capacity - len)
  (buffer, trimFraction buffer total (len + 1))

/-- What `fmt::formatter<rtl::timestamp>` prints first: `YYYY-MM-DD HH:MM:SS`. -/
def Timestamp.head (v : Timestamp) : List UInt8 :=
  dec 4 v.year.toInt ++ [ascii '-'] ++ dec 2 v.month.toNat ++ [ascii '-'] ++ dec 2 v.day.toNat ++
    [ascii ' '] ++ dec 2 v.hour.toNat ++ [ascii ':'] ++ dec 2 v.minute.toNat ++ [ascii ':'] ++
    dec 2 v.second.toNat

/-- `fmt::formatter<rtl::timestamp>`: `YYYY-MM-DD HH:MM:SS.fffffffff`, trimmed. -/
def Timestamp.format (v : Timestamp) : List UInt8 :=
  let head := writtenLen v.head.length 48
  let (buffer, total) := appendFraction 48 (snprintf 48 v.head) head v.fraction
  buffer.take total

/-- The digits of a fraction, without the zeroes that the loop drops. -/
theorem trimZeroes_eq (pre ds tail : List UInt8) :
    ∃ kept k, ds = kept ++ List.replicate k (ascii '0') ∧
      trimZeroes (pre ++ ds ++ tail) pre.length (pre.length + ds.length) =
        pre.length + kept.length := by
  -- From the last digit on, as the loop goes.
  induction ds using List.reverseRecOn generalizing tail with
  | nil =>
    refine ⟨[], 0, rfl, ?_⟩
    cases hlen : pre.length with
    | zero => rfl
    | succ n => exact if_neg fun h => Nat.lt_irrefl _ h.1
  | append_singleton ds c ih =>
    have hlast : (pre ++ (ds ++ [c]) ++ tail)[pre.length + ds.length]? = some c := by
      rw [← List.append_assoc, List.append_assoc, List.getElem?_append_right (by simp)]
      simp
    rw [List.length_append, List.length_singleton, ← Nat.add_assoc, trimZeroes, hlast]
    by_cases hc : c = ascii '0'
    · obtain ⟨kept, k, rfl, hk⟩ := ih (c :: tail)
      refine ⟨kept, k + 1, ?_, ?_⟩
      · rw [List.append_assoc, List.replicate_succ', hc]
      · rw [if_pos ⟨by omega, by rw [hc]⟩, ← hk]
        simp only [List.append_assoc, List.cons_append, List.nil_append]
    · refine ⟨ds ++ [c], 0, by simp, ?_⟩
      rw [if_neg fun h => hc (Option.some.inj h.2)]
      simp [Nat.add_assoc]

/-- Some digits of a fraction are left; what is dropped is zeroes. -/
theorem trimFraction_eq (pre tail : List UInt8) {ds : List UInt8} (h : ds ≠ []) :
    ∃ kept k, kept ≠ [] ∧ ds = kept ++ List.replicate k (ascii '0') ∧
      trimFraction (pre ++ ds ++ tail) (pre.length + ds.length) pre.length =
        pre.length + kept.length := by
  obtain ⟨kept, k, hds, hk⟩ := trimZeroes_eq pre ds tail
  by_cases hkept : kept = []
  · subst hkept
    obtain ⟨k, rfl⟩ : ∃ j, k = j + 1 := ⟨k - 1, by cases k <;> simp_all⟩
    refine ⟨[ascii '0'], k, List.cons_ne_nil _ _, hds, ?_⟩
    rw [trimFraction, hk]
    exact if_pos rfl
  · refine ⟨kept, k, hkept, hds, ?_⟩
    have hpos : 0 < kept.length := List.length_pos_iff.2 hkept
    rw [trimFraction, hk]
    exact if_neg (by omega)

/-- The digits of a fraction: nine, or ten if it is no fraction of a second. -/
def fractionText (fraction : UInt32) : List UInt8 := pad 9 (numeral 10 fraction.toNat)

/-- A fraction is appended to a text that leaves room for it: all of it is written, and the length
    is that without the zeroes that are trimmed. -/
theorem appendFraction_spec {capacity : ℕ} {text : List UInt8} (rest : List UInt8)
    {fraction : UInt32}
    (hroom : text.length + (1 + (fractionText fraction).length) < capacity) :
    ∃ kept k, kept ≠ [] ∧ fractionText fraction = kept ++ List.replicate k (ascii '0') ∧
      appendFraction capacity (text ++ rest) text.length fraction =
        (text ++ (ascii '.' :: fractionText fraction ++ [0]),
          (text ++ ascii '.' :: kept).length) := by
  have hne : fractionText fraction ≠ [] := fun h =>
    numeral_ne_nil 10 fraction.toNat (List.append_eq_nil_iff.1 h).2
  obtain ⟨kept, k, hkept, hds, htrim⟩ := trimFraction_eq (text ++ [ascii '.']) [0] hne
  refine ⟨kept, k, hkept, hds, ?_⟩
  have hlen : (ascii '.' :: fractionText fraction).length = 1 + (fractionText fraction).length :=
    Nat.add_comm _ _
  have hbuffer : text ++ (ascii '.' :: fractionText fraction ++ [0]) =
      text ++ [ascii '.'] ++ fractionText fraction ++ [0] := by simp
  have htotal : text.length + (1 + (fractionText fraction).length) =
      (text ++ [ascii '.']).length + (fractionText fraction).length := by
    simp [Nat.add_assoc]
  have hfirst : text.length + 1 = (text ++ [ascii '.']).length := by simp
  have hend : (text ++ [ascii '.']).length + kept.length = (text ++ ascii '.' :: kept).length := by
    simp
    omega
  simp only [appendFraction]
  rw [← fractionText, List.take_left, snprintf_eq (by omega), hlen, writtenLen_eq (by omega),
    hbuffer, htotal, hfirst, htrim, hend]

/-- A fraction is appended to a text that leaves room for it: its digits are trimmed. -/
theorem appendFraction_eq {capacity : ℕ} {text : List UInt8} (rest : List UInt8) {fraction : UInt32}
    (hroom : text.length + 10 < capacity) (h : fraction.toNat < 10 ^ 9) :
    ∃ kept k, kept ≠ [] ∧ fixed 10 9 fraction.toNat = kept ++ List.replicate k (ascii '0') ∧
      (appendFraction capacity (text ++ rest) text.length fraction).1.take
        (appendFraction capacity (text ++ rest) text.length fraction).2 =
      text ++ ascii '.' :: kept := by
  have hdigits : fractionText fraction = fixed 10 9 fraction.toNat :=
    pad_numeral (by omega) (by omega) h
  have hlen : (fractionText fraction).length = 9 := by rw [hdigits, length_fixed]
  have hroom' : text.length + (1 + (fractionText fraction).length) < capacity := by omega
  obtain ⟨kept, k, hkept, hds, hspec⟩ := appendFraction_spec rest hroom'
  refine ⟨kept, k, hkept, hdigits ▸ hds, ?_⟩
  have hall : text ++ (ascii '.' :: fractionText fraction ++ [0]) =
      (text ++ ascii '.' :: kept) ++ (List.replicate k (ascii '0') ++ [0]) := by
    rw [hds]
    simp
  rw [hspec, hall]
  exact List.take_left

theorem toList_eight (a : Vector UInt8 8) :
    a.toList = [a[0], a[1], a[2], a[3], a[4], a[5], a[6], a[7]] := by
  refine List.ext_getElem (by simp) fun i h _ => ?_
  rw [Vector.length_toList] at h
  rw [Vector.getElem_toList]
  interval_cases i <;> rfl

end Dbgen4.Rtl
