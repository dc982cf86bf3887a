import Dbgen4.Rtl.Fmt

/-!
# The formatters of dates, times, timestamps and intervals

What the formatters of `rtl/rtl_fmt.hpp` leave in their arrays, and how much of it they show, for
any values of the fields: the ranges of the types, not those of a calendar.

* Their views end before the terminator that `snprintf` wrote, and so they show no byte that the
  array held before (`Formatted.Written`, `Formatted.Written.view_eq`).
* A date may be cut off at 16 bytes, and so may a time. A timestamp needs 48 bytes at most, which
  are all there are, and an interval 56 of 64: they are complete, but for zeroes at the end of
  the fraction (`Formatted.Trimmed`).
-/

namespace Dbgen4.Rtl

open Numeral

/-- An array in which a text was formatted: its bytes, as far as `snprintf` wrote any, and the
    length of the view. -/
structure Formatted where
  buffer : List UInt8
  length : ℕ

namespace Formatted

variable (f : Formatted)

/-- What the view shows, if the array goes on with `garbage` behind what was written. -/
def view (garbage : List UInt8) : List UInt8 := (f.buffer ++ garbage).take f.length

/-- The view covers only characters that were stored before the terminator. -/
structure Written : Prop where
  terminated : ∃ chars, f.buffer = chars ++ [0]
  before : f.length < f.buffer.length

/-- Nothing was cut off; the view is without some zeroes at the end of the fraction, of which it
    has a digit at least. -/
structure Trimmed (head : List UInt8) (fraction : UInt32) : Prop where
  complete : f.buffer = head ++ (ascii '.' :: fractionText fraction ++ [0])
  trimmed : ∃ kept k, kept ≠ [] ∧ fractionText fraction = kept ++ List.replicate k (ascii '0') ∧
    ∀ garbage, f.view garbage = head ++ ascii '.' :: kept

end Formatted

namespace Formatted

/-- A text printed at once. -/
def plain (capacity : ℕ) (text : List UInt8) : Formatted where
  buffer := snprintf capacity text
  length := writtenLen text.length capacity

/-- A text printed first, and a fraction behind it where it ended. -/
def withFraction (capacity : ℕ) (text : List UInt8) (fraction : UInt32) : Formatted :=
  let head := writtenLen text.length capacity
  let (buffer, total) := appendFraction capacity (snprintf capacity text) head fraction
  { buffer := buffer, length := total }

end Formatted

/-! ## The formatters -/

/-- What `fmt::formatter<rtl::date>` prints: `YYYY-MM-DD`. -/
def Date.text (v : Date) : List UInt8 :=
  dec 4 v.year.toInt ++ [ascii '-'] ++ dec 2 v.month.toNat ++ [ascii '-'] ++ dec 2 v.day.toNat

/-- `fmt::formatter<rtl::date>`. -/
def Date.formatted (v : Date) : Formatted := .plain 16 v.text

/-- What `fmt::formatter<rtl::time>` prints: `HH:MM:SS`. -/
def Time.text (v : Time) : List UInt8 :=
  dec 2 v.hour.toNat ++ [ascii ':'] ++ dec 2 v.minute.toNat ++ [ascii ':'] ++ dec 2 v.second.toNat

/-- `fmt::formatter<rtl::time>`. -/
def Time.formatted (v : Time) : Formatted := .plain 16 v.text

/-- `fmt::formatter<rtl::timestamp>`. -/
def Timestamp.formatted (v : Timestamp) : Formatted := .withFraction 48 v.head v.fraction

namespace Interval

variable (v : Interval)

/-- The kinds `year`, `month` and `year_to_month`. -/
def IsYearMonth : Prop := v.kind = 1 ∨ v.kind = 2 ∨ v.kind = 7

instance : Decidable v.IsYearMonth := inferInstanceAs (Decidable (_ ∨ _ ∨ _))

/-- `sign`. -/
def signText : List UInt8 := if v.sign = 0 then [ascii '-'] else []

/-- What is printed for a year and a month: `[sign]Y-M`. -/
def yearMonthText : List UInt8 :=
  v.signText ++ numeral 10 v.value[0].toNat ++ [ascii '-'] ++ numeral 10 v.value[1].toNat

/-- What is printed first for the other kinds: `[sign]D HH:MM:SS`. -/
def head : List UInt8 :=
  v.signText ++ numeral 10 v.value[0].toNat ++ [ascii ' '] ++ pad 2 (numeral 10 v.value[1].toNat) ++
    [ascii ':'] ++ pad 2 (numeral 10 v.value[2].toNat) ++ [ascii ':'] ++
    pad 2 (numeral 10 v.value[3].toNat)

/-- `fmt::formatter<rtl::interval>`. -/
def formatted : Formatted :=
  if v.IsYearMonth then .plain 64 v.yearMonthText else .withFraction 64 v.head v.value[4]

end Interval

/-- The text of a timestamp is what its view shows. -/
theorem Timestamp.format_eq_view (v : Timestamp) : v.format = v.formatted.view [] := by
  simp only [format, formatted, Formatted.withFraction, Formatted.view, List.append_nil]

/-! ## Widths -/

theorem length_pad (w : ℕ) (t : List UInt8) : (pad w t).length = max w t.length := by
  rw [pad, List.length_append, List.length_replicate]
  omega

/-- A number of at most `m` digits, with a sign or without one. -/
theorem length_dec_le {w m : ℕ} {v : ℤ} (hm : 0 < m) (hw : w ≤ m + 1) (hv : v.natAbs < 10 ^ m) :
    (dec w v).length ≤ m + 1 := by
  have hlen := (length_numeral_le (by omega) hm v.natAbs).2 hv
  rw [dec]
  split_ifs
  · rw [List.length_cons, length_pad]
    omega
  · rw [length_pad]
    omega

/-- Without a sign there is one character less. -/
theorem length_dec_natCast_le {w m n : ℕ} (hm : 0 < m) (hw : w ≤ m) (hn : n < 10 ^ m) :
    (dec w n).length ≤ m := by
  have hlen := (length_numeral_le (by omega) hm n).2 hn
  rw [dec, if_neg (by omega), length_pad, Int.natAbs_natCast]
  omega

/-- The fields of 16 bits have five digits at most. -/
theorem length_dec_uint16 (n : UInt16) : (dec 2 n.toNat).length ≤ 5 :=
  length_dec_natCast_le (by omega) (by omega) (Nat.lt_trans n.toNat_lt (by omega))

theorem length_dec_year (year : BitVec 16) : (dec 4 year.toInt).length ≤ 6 := by
  have hlo := BitVec.le_toInt year
  have hhi := BitVec.toInt_lt (x := year)
  exact length_dec_le (by omega) (by omega) (by omega)

/-- The fields of 32 bits have ten digits at most. -/
theorem length_numeral_uint32 (n : UInt32) : (numeral 10 n.toNat).length ≤ 10 :=
  (length_numeral_le (by omega) (by omega) _).2 (Nat.lt_trans n.toNat_lt (by omega))

theorem length_fractionText (fraction : UInt32) : (fractionText fraction).length ≤ 10 := by
  have hlen := length_numeral_uint32 fraction
  rw [fractionText, length_pad]
  omega

theorem Timestamp.length_head (v : Timestamp) : v.head.length ≤ 36 := by
  have hyear := length_dec_year v.year
  have hmonth := length_dec_uint16 v.month
  have hday := length_dec_uint16 v.day
  have hhour := length_dec_uint16 v.hour
  have hminute := length_dec_uint16 v.minute
  have hsecond := length_dec_uint16 v.second
  simp only [head, List.length_append, List.length_singleton]
  omega

theorem Interval.length_signText (v : Interval) : v.signText.length ≤ 1 := by
  rw [signText]
  split_ifs <;> simp

theorem Interval.length_yearMonthText (v : Interval) : v.yearMonthText.length ≤ 22 := by
  have hsign := v.length_signText
  have hyear := length_numeral_uint32 v.value[0]
  have hmonth := length_numeral_uint32 v.value[1]
  simp only [yearMonthText, List.length_append, List.length_singleton]
  omega

theorem Interval.length_head (v : Interval) : v.head.length ≤ 44 := by
  have hsign := v.length_signText
  have hday := length_numeral_uint32 v.value[0]
  have hhour := length_numeral_uint32 v.value[1]
  have hminute := length_numeral_uint32 v.value[2]
  have hsecond := length_numeral_uint32 v.value[3]
  simp only [head, List.length_append, List.length_singleton, length_pad]
  omega

/-! ## The views -/

namespace Formatted

variable {f : Formatted} {capacity : ℕ} {text head : List UInt8} {fraction : UInt32}

/-- What was in the array before is not shown, and neither is the terminator. -/
theorem Written.view_eq (h : f.Written) (garbage : List UInt8) :
    f.view garbage = f.buffer.dropLast.take f.length := by
  obtain ⟨chars, hchars⟩ := h.terminated
  have hlen : f.length ≤ chars.length := by
    have hbefore := h.before
    rw [hchars, List.length_append, List.length_singleton] at hbefore
    omega
  rw [view, hchars, List.dropLast_concat, List.append_assoc, List.take_append_of_le_length hlen]

theorem written_plain (h : 0 < capacity) : (plain capacity text).Written where
  terminated := ⟨_, rfl⟩
  before := by
    have hlen : (plain capacity text).length = min text.length (capacity - 1) := by
      rw [plain, writtenLen, if_neg (by omega), Int.toNat_natCast]
    have hbuffer : (plain capacity text).buffer.length = min (capacity - 1) text.length + 1 := by
      rw [plain, snprintf, List.length_append, List.length_take, List.length_singleton]
    omega

/-- With room for it, a text printed at once is shown as it is. -/
theorem view_plain (h : text.length < capacity) (garbage : List UInt8) :
    (plain capacity text).view garbage = text := by
  rw [view, plain, snprintf_eq h, writtenLen_eq h, List.append_assoc, List.take_left]

/-- With room for it, a text with a fraction is complete, but for zeroes at its end. -/
theorem trimmed_withFraction (h : text.length + 11 < capacity) :
    (withFraction capacity text fraction).Trimmed text fraction := by
  have hdigits := length_fractionText fraction
  have hroom : text.length + (1 + (fractionText fraction).length) < capacity := by omega
  obtain ⟨kept, k, hkept, hds, hspec⟩ := appendFraction_spec [0] hroom
  have hf : withFraction capacity text fraction =
      ⟨text ++ (ascii '.' :: fractionText fraction ++ [0]),
        (text ++ ascii '.' :: kept).length⟩ := by
    rw [withFraction, writtenLen_eq (by omega), snprintf_eq (by omega), hspec]
  refine ⟨congrArg buffer hf, kept, k, hkept, hds, fun garbage => ?_⟩
  have hall : text ++ (ascii '.' :: fractionText fraction ++ [0]) ++ garbage =
      (text ++ ascii '.' :: kept) ++ (List.replicate k (ascii '0') ++ [0] ++ garbage) := by
    rw [hds]
    simp
  rw [hf, view, hall]
  exact List.take_left

/-- What is trimmed has the zeroes and the terminator behind it. -/
theorem Trimmed.written (h : f.Trimmed head fraction) : f.Written := by
  obtain ⟨kept, k, -, hds, hview⟩ := h.trimmed
  have hlen : f.length = (head ++ ascii '.' :: kept).length := by
    rw [← hview (List.replicate f.length 0), view, List.length_take, List.length_append,
      List.length_replicate]
    omega
  refine ⟨⟨head ++ ascii '.' :: fractionText fraction, ?_⟩, ?_⟩
  · rw [h.complete, List.append_assoc]
  · rw [hlen, h.complete, hds]
    simp only [List.length_append, List.length_cons, List.length_nil, List.length_replicate]
    omega

end Formatted

theorem Timestamp.trimmed_formatted (v : Timestamp) : v.formatted.Trimmed v.head v.fraction :=
  Formatted.trimmed_withFraction (by have := v.length_head; omega)

theorem Interval.view_yearMonth {v : Interval} (h : v.IsYearMonth) (garbage : List UInt8) :
    v.formatted.view garbage = v.yearMonthText := by
  rw [formatted, if_pos h]
  exact Formatted.view_plain (by have := v.length_yearMonthText; omega) garbage

theorem Interval.trimmed_formatted {v : Interval} (h : ¬ v.IsYearMonth) :
    v.formatted.Trimmed v.head v.value[4] := by
  rw [formatted, if_neg h]
  exact Formatted.trimmed_withFraction (by have := v.length_head; omega)

/-- **Formatters.** No view shows a byte that was not written. A timestamp and an interval are
    never cut off, the text before the fraction is as it was printed, and of the fraction only
    zeroes at the end are trimmed, never all of its digits. -/
theorem formatted_written :
    (∀ v : Date, v.formatted.Written) ∧ (∀ v : Time, v.formatted.Written) ∧
    (∀ v : Timestamp, v.formatted.Written ∧ v.formatted.Trimmed v.head v.fraction) ∧
    (∀ v : Interval, v.formatted.Written ∧
      if v.IsYearMonth then ∀ garbage, v.formatted.view garbage = v.yearMonthText
      else v.formatted.Trimmed v.head v.value[4]) := by
  refine ⟨fun v => Formatted.written_plain (by omega), fun v => Formatted.written_plain (by omega),
    fun v => ⟨v.trimmed_formatted.written, v.trimmed_formatted⟩, fun v => ?_⟩
  by_cases h : v.IsYearMonth
  · rw [if_pos h]
    refine ⟨?_, Interval.view_yearMonth h⟩
    rw [Interval.formatted, if_pos h]
    exact Formatted.written_plain (by omega)
  · rw [if_neg h]
    exact ⟨(Interval.trimmed_formatted h).written, Interval.trimmed_formatted h⟩

/-- The longest timestamp takes the whole array. -/
example :
    let v : Timestamp := ⟨-32768, 65535, 65535, 65535, 65535, 65535, 4294967295⟩
    v.formatted.buffer.length = 48 := by decide

/-- A date beyond all calendars is cut off. -/
example :
    let v : Date := ⟨-32768, 65535, 65535⟩
    v.formatted.length < v.text.length := by decide

end Dbgen4.Rtl
