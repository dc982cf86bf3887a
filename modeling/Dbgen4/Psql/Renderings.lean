import Dbgen4.Psql.Text

/-!
# The two renderings of a timestamp

A timestamp is rendered for the server by `formatTimestamp`, with nine digits of a
fraction, and for a reader by `Timestamp.format`, which drops the zeroes at the end
of them. The reader of the backend takes a fraction of any number of digits, each at
its own scale, so that both are the same timestamp to it (`parseTimestamp_format`).
-/

namespace Dbgen4.Psql

open Rtl Numeral

/-- Zeroes add nothing to a fraction. -/
theorem fractionDigits_zeroes (nanos scale : UInt32) (k : ℕ) :
    (fractionDigits nanos scale (List.replicate k (ascii '0'))).1 = nanos := by
  induction k generalizing scale with
  | zero => rfl
  | succ k ih =>
    have hdigit : ascii '0' = digit 0 := rfl
    have hzero : nanos + UInt32.ofNat 0 * scale = nanos := by simp
    rw [List.replicate_succ, hdigit, fractionDigits_digit (by omega), hzero, ← hdigit, ih]

/-- Zeroes at the end of a fraction do not matter. -/
theorem fractionDigits_append_zeroes (nanos scale : UInt32) {t : Text} (h : ∀ c ∈ t, isDigit c)
    (k : ℕ) : (fractionDigits nanos scale (t ++ List.replicate k (ascii '0'))).1 =
      (fractionDigits nanos scale t).1 := by
  induction t generalizing nanos scale with
  | nil => exact fractionDigits_zeroes nanos scale k
  | cons c t ih =>
    have hbounds : 48 ≤ c ∧ c ≤ 57 := by simpa [isDigit] using h c List.mem_cons_self
    have hc : ascii '0' ≤ c ∧ c ≤ ascii '9' := hbounds
    rw [List.cons_append, fractionDigits, fractionDigits, if_pos hc, if_pos hc]
    exact ih _ _ fun d hd => h d (List.mem_cons_of_mem c hd)

theorem length_head {v : Timestamp} (h : TimestampFits v) : v.head.length = 19 := by
  obtain ⟨⟨hy₀, hy⟩, hmo, hd, hh, hm, hs, -⟩ := h
  have hdec {w : ℕ} (hw : 0 < w) {n : ℕ} (h : n < 10 ^ w) : (dec w n).length = w :=
    (congrArg _ (zeroPadded_natCast hw h)).trans (length_fixed 10 w n)
  have hyear : (dec 4 v.year.toInt).length = 4 :=
    (congrArg _ (zeroPadded_eq (by omega) hy₀ (by omega))).trans (length_fixed 10 4 _)
  simp only [Timestamp.head, List.length_append, List.length_singleton, hyear,
    hdec (w := 2) (by omega) hmo, hdec (w := 2) (by omega) hd, hdec (w := 2) (by omega) hh,
    hdec (w := 2) (by omega) hm, hdec (w := 2) (by omega) hs]

/-- The array has room for the text: only zeroes are dropped. -/
theorem format_eq {v : Timestamp} (h : TimestampFits v) :
    ∃ kept k, kept ≠ [] ∧ fixed 10 9 v.fraction.toNat = kept ++ List.replicate k (ascii '0') ∧
      v.format = v.head ++ ascii '.' :: kept := by
  have hhead := length_head h
  have hroom : v.head.length + 10 < 48 := by omega
  obtain ⟨kept, k, hkept, hds, htext⟩ := appendFraction_eq [0] hroom h.fraction
  refine ⟨kept, k, hkept, hds, ?_⟩
  rw [← htext, Timestamp.format, snprintf_eq (by omega), writtenLen_eq (by omega)]

/-- **One instant.** A timestamp is read back from both of its renderings. -/
theorem parseTimestamp_format {v : Timestamp} (h : TimestampFits v) :
    parseTimestamp v.format = some v ∧ parseTimestamp (formatTimestamp v) = some v := by
  refine ⟨?_, parseTimestamp_formatTimestamp h⟩
  obtain ⟨kept, k, -, hds, hformat⟩ := format_eq h
  have hdigit : ∀ c ∈ kept, isDigit c := fun c hc =>
    isDigit_of_mem_fixed (hds ▸ List.mem_append_left _ hc)
  have hfraction : (readFraction (ascii '.' :: kept)).1 = v.fraction := by
    calc (readFraction (ascii '.' :: kept)).1
        = (fractionDigits 0 100000000 kept).1 := by rw [readFraction, if_pos rfl]
      _ = (fractionDigits 0 100000000 (fixed 10 9 v.fraction.toNat)).1 := by
        rw [hds, fractionDigits_append_zeroes _ _ hdigit]
      _ = (readFraction (ascii '.' :: fixed 10 9 v.fraction.toNat)).1 := by
        rw [readFraction, if_pos rfl]
      _ = v.fraction := by rw [readFraction_fixed h.fraction, UInt32.ofNat_toNat]
  rw [hformat, parseTimestamp_head h hfraction]

/-- The middle of a second: one digit of nine is printed, and read back. -/
theorem parseTimestamp_format_half :
    parseTimestamp (Timestamp.format ⟨2026, 7, 31, 13, 45, 7, 500000000⟩) =
        some ⟨2026, 7, 31, 13, 45, 7, 500000000⟩ ∧
      parseTimestamp (formatTimestamp ⟨2026, 7, 31, 13, 45, 7, 500000000⟩) =
        some ⟨2026, 7, 31, 13, 45, 7, 500000000⟩ :=
  parseTimestamp_format
    ⟨by decide, by decide, by decide, by decide, by decide, by decide, by decide⟩

end Dbgen4.Psql
