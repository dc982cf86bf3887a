import Dbgen4.Rtl.Fmt
import Mathlib.Data.List.TakeWhile

/-!
# The text conversions of the PostgreSQL runtime

Values travel to and from the server as text (`rtl/psql/query.cpp`). Reader and
writer of a kind of value are separate functions; a reader passes on what it has
not read, where the source moves a position. A reader which fails writes
nothing.
-/

namespace Dbgen4.Psql

open Rtl Numeral

/-- A text, as the bytes of its `std::string_view`. -/
abbrev Text := List UInt8

/-! ## Reading -/

/-- `hex_val`: hex digit to value, `0xff` when the character is not a hex digit. -/
def hexVal (c : UInt8) : UInt8 :=
  if ascii '0' ≤ c ∧ c ≤ ascii '9' then c - ascii '0'
  else if ascii 'a' ≤ c ∧ c ≤ ascii 'f' then c - ascii 'a' + 10
  else if ascii 'A' ≤ c ∧ c ≤ ascii 'F' then c - ascii 'A' + 10
  else 0xff

/-- The byte of two hex digits, if they are. -/
def hexByte (c d : UInt8) : Option UInt8 :=
  if hexVal c = 0xff ∨ hexVal d = 0xff then none else some (hexVal c <<< 4 ||| hexVal d)

/-- The loop of `read_digits`, in the arithmetic of `uint16_t`. -/
def digitsValue : UInt16 → Text → Option UInt16
  | v, [] => some v
  | v, c :: t =>
    if c < ascii '0' ∨ ascii '9' < c then none
    else digitsValue (v * 10 + (c - ascii '0').toUInt16) t

/-- `read_digits`: read exactly `n` digits. -/
def readDigits (n : ℕ) (t : Text) : Option (UInt16 × Text) :=
  if t.length < n then none
  else (digitsValue 0 (t.take n)).map fun v => (v, t.drop n)

/-- `expect`. -/
def expect (c : UInt8) : Text → Option Text
  | [] => none
  | d :: t => if d = c then some t else none

/-- The loop of `read_fraction`. -/
def fractionDigits (nanos scale : UInt32) : Text → UInt32 × Text
  | [] => (nanos, [])
  | c :: t =>
    if ascii '0' ≤ c ∧ c ≤ ascii '9' then
      fractionDigits (nanos + (c - ascii '0').toUInt32 * scale) (scale / 10) t
    else (nanos, c :: t)

/-- `read_fraction`: fractional seconds `.ffffff` to nanoseconds; optional. -/
def readFraction : Text → UInt32 × Text
  | [] => (0, [])
  | c :: t => if c = ascii '.' then fractionDigits 0 100000000 t else (0, c :: t)

/-- `parse_int`: `std::from_chars` for a signed type of `w` bits. Neither what follows the
    digits nor leading zeros matter. -/
def parseInt (w : ℕ) (t : Text) : Option (BitVec w) :=
  let negative := t.head? = some (ascii '-')
  let ds := (if negative then t.drop 1 else t).takeWhile isDigit
  let v : ℤ := if negative then -(value 0 ds : ℤ) else value 0 ds
  if ds = [] then none
  else if -2 ^ (w - 1) ≤ v ∧ v < 2 ^ (w - 1) then some (BitVec.ofInt w v)
  else none

/-- `parse_date`. -/
def parseDate (t : Text) : Option Date := do
  let (y, t) ← readDigits 4 t
  let t ← expect (ascii '-') t
  let (m, t) ← readDigits 2 t
  let t ← expect (ascii '-') t
  let (d, _) ← readDigits 2 t
  return ⟨y.toBitVec, m, d⟩

/-- `parse_time`. -/
def parseTime (t : Text) : Option Time := do
  let (hh, t) ← readDigits 2 t
  let t ← expect (ascii ':') t
  let (mm, t) ← readDigits 2 t
  let t ← expect (ascii ':') t
  let (ss, _) ← readDigits 2 t
  return ⟨hh, mm, ss⟩

/-- PostgreSQL separates date and time with a space, ISO 8601 uses `T`; neither is
    insisted on. -/
def skipSeparator : Text → Text
  | [] => []
  | c :: t => if c = ascii ' ' ∨ c = ascii 'T' then t else c :: t

/-- `parse_timestamp`. A time zone offset at the end is dropped. -/
def parseTimestamp (t : Text) : Option Timestamp := do
  let (y, t) ← readDigits 4 t
  let t ← expect (ascii '-') t
  let (mo, t) ← readDigits 2 t
  let t ← expect (ascii '-') t
  let (d, t) ← readDigits 2 t
  let t := skipSeparator t
  let (hh, t) ← readDigits 2 t
  let t ← expect (ascii ':') t
  let (mm, t) ← readDigits 2 t
  let t ← expect (ascii ':') t
  let (ss, t) ← readDigits 2 t
  let (ns, _) := readFraction t
  return ⟨y.toBitVec, mo, d, hh, mm, ss, ns⟩

/-- The loop of `parse_guid`: the next `k` bytes. Dashes between them are skipped. -/
def guidBytes : ℕ → Text → Option (List UInt8)
  | 0, _ => some []
  | _ + 1, [] => none
  | k + 1, c :: t =>
    if c = ascii '-' then guidBytes (k + 1) t
    else match t with
      | [] => none
      | d :: t => do
        let b ← hexByte c d
        let bs ← guidBytes k t
        return b :: bs

/-- The fields of a guid from its bytes, big-endian. -/
def packGuid : List UInt8 → Option Guid
  | [b₀, b₁, b₂, b₃, b₄, b₅, b₆, b₇, b₈, b₉, b₁₀, b₁₁, b₁₂, b₁₃, b₁₄, b₁₅] =>
    some {
      data1 := b₀.toUInt32 <<< 24 ||| b₁.toUInt32 <<< 16 ||| b₂.toUInt32 <<< 8 ||| b₃.toUInt32
      data2 := b₄.toUInt16 <<< 8 ||| b₅.toUInt16
      data3 := b₆.toUInt16 <<< 8 ||| b₇.toUInt16
      data4 := #v[b₈, b₉, b₁₀, b₁₁, b₁₂, b₁₃, b₁₄, b₁₅] }
  | _ => none

/-- `parse_guid`. -/
def parseGuid (t : Text) : Option Guid := do
  let bytes ← guidBytes 16 t
  packGuid bytes

/-- The loop of `decode_bytea`, with room for `capacity` bytes more. -/
def hexPairs : ℕ → Text → List UInt8
  | capacity + 1, c :: d :: t =>
    match hexByte c d with
    | some b => b :: hexPairs capacity t
    | none => []
  | _, _ => []

/-- `decode_bytea`: the bytes it writes. -/
def decodeBytea (t : Text) (capacity : ℕ) : List UInt8 :=
  match t with
  | c :: d :: rest =>
    if c = ascii '\\' ∧ (d = ascii 'x' ∨ d = ascii 'X') then hexPairs capacity rest
    else hexPairs capacity t
  | _ => hexPairs capacity t

/-! ## Writing -/

/-- The replacement field `{}` for a signed integer. -/
def decimal (v : ℤ) : Text :=
  if v < 0 then ascii '-' :: numeral 10 v.natAbs else numeral 10 v.natAbs

/-- The replacement field `{:0wd}`. -/
def zeroPadded (w : ℕ) (v : ℤ) : Text :=
  if v < 0 then ascii '-' :: pad (w - 1) (numeral 10 v.natAbs) else pad w (numeral 10 v.natAbs)

/-- `format_date`. -/
def formatDate (v : Date) : Text :=
  zeroPadded 4 v.year.toInt ++ [ascii '-'] ++ zeroPadded 2 v.month.toNat ++ [ascii '-'] ++
    zeroPadded 2 v.day.toNat

/-- `format_time`. -/
def formatTime (v : Time) : Text :=
  zeroPadded 2 v.hour.toNat ++ [ascii ':'] ++ zeroPadded 2 v.minute.toNat ++ [ascii ':'] ++
    zeroPadded 2 v.second.toNat

/-- `format_timestamp`. -/
def formatTimestamp (v : Timestamp) : Text :=
  zeroPadded 4 v.year.toInt ++ [ascii '-'] ++ zeroPadded 2 v.month.toNat ++ [ascii '-'] ++
    zeroPadded 2 v.day.toNat ++ [ascii ' '] ++ zeroPadded 2 v.hour.toNat ++ [ascii ':'] ++
    zeroPadded 2 v.minute.toNat ++ [ascii ':'] ++ zeroPadded 2 v.second.toNat ++ [ascii '.'] ++
    zeroPadded 9 v.fraction.toNat

/-- `format_guid`. -/
def formatGuid (v : Guid) : Text := v.format

/-- `encode_bytea`. -/
def encodeBytea (bytes : List UInt8) : Text :=
  [ascii '\\', ascii 'x'] ++ bytes.flatMap fun b => hex 2 b.toNat

/-! ## What is written is read back -/

theorem isDigit_iff (c : UInt8) : isDigit c ↔ ¬(c < ascii '0' ∨ ascii '9' < c) := by
  simp only [isDigit, Bool.and_eq_true, decide_eq_true_eq, not_or, UInt8.not_lt]
  rfl

/-- The loop of `read_digits` computes the number, as far as 16 bits hold it. -/
theorem digitsValue_eq (v : ℕ) {t : Text} (h : ∀ c ∈ t, isDigit c) :
    digitsValue (UInt16.ofNat v) t = some (UInt16.ofNat (value v t)) := by
  induction t generalizing v with
  | nil => rfl
  | cons c t ih =>
    have hc : ¬(c < ascii '0' ∨ ascii '9' < c) := (isDigit_iff c).1 (h c List.mem_cons_self)
    have hv : UInt16.ofNat v * 10 + (c - ascii '0').toUInt16 =
        UInt16.ofNat (v * 10 + (c - 48).toNat) := by
      rw [UInt16.ofNat_add, UInt16.ofNat_mul, UInt16.ofNat_uInt8ToNat]
      rfl
    rw [digitsValue, if_neg hc, hv, ih _ fun d hd => h d (List.mem_cons_of_mem c hd), value_cons]

/-- A digit group of fixed width is read back. -/
theorem readDigits_fixed {n v : ℕ} (h : v < 10 ^ n) (rest : Text) :
    readDigits n (fixed 10 n v ++ rest) = some (UInt16.ofNat v, rest) := by
  have hlen : ¬(fixed 10 n v ++ rest).length < n := by simp
  have htake : (fixed 10 n v ++ rest).take n = fixed 10 n v := by
    rw [List.take_append_of_le_length (by simp), List.take_of_length_le (by simp)]
  have hdrop : (fixed 10 n v ++ rest).drop n = rest := List.drop_left' (by simp)
  have hvalue : digitsValue 0 (fixed 10 n v) = some (UInt16.ofNat v) := by
    rw [show (0 : UInt16) = UInt16.ofNat 0 from rfl, digitsValue_eq 0 fun c => isDigit_of_mem_fixed,
      value_fixed, Nat.zero_mul, Nat.zero_add, Nat.mod_eq_of_lt h]
  rw [readDigits, if_neg hlen, htake, hdrop, hvalue]
  rfl

theorem readDigits_fixed' {n v : ℕ} (h : v < 10 ^ n) :
    readDigits n (fixed 10 n v) = some (UInt16.ofNat v, []) := by
  simpa using readDigits_fixed h []

@[simp] theorem expect_cons (c : UInt8) (t : Text) : expect c (c :: t) = some t := if_pos rfl

theorem zeroPadded_eq {w : ℕ} (hw : 0 < w) {v : ℤ} (h₀ : 0 ≤ v) (h : v.toNat < 10 ^ w) :
    zeroPadded w v = fixed 10 w v.toNat := by
  have hv : v.natAbs = v.toNat := by omega
  rw [zeroPadded, if_neg (by omega), hv, pad_numeral (by omega) hw h]

/-- An unsigned field in `w` digits. -/
theorem zeroPadded_natCast {w : ℕ} (hw : 0 < w) {n : ℕ} (h : n < 10 ^ w) :
    zeroPadded w n = fixed 10 w n :=
  zeroPadded_eq hw (Int.natCast_nonneg n) h

/-- The year of a structure, a signed number. -/
theorem toBitVec_ofNat_toInt {y : BitVec 16} (h : 0 ≤ y.toInt) :
    (UInt16.ofNat y.toInt.toNat).toBitVec = y := by
  have hy : y.toInt.toNat = y.toNat := by
    rw [BitVec.toInt_eq_toNat_of_msb (by simpa [BitVec.msb_eq_toInt] using h), Int.toNat_natCast]
  rw [hy]
  exact BitVec.eq_of_toNat_eq (by simp)

/-- The scale of the digits of a fraction. -/
theorem scale_div {w : ℕ} (h : w < 9) :
    UInt32.ofNat (10 ^ (w + 1)) / 10 = UInt32.ofNat (10 ^ w) := by
  revert h w
  decide

/-- A digit of a fraction counts at its scale. -/
theorem fractionDigits_digit {d : ℕ} (hd : d < 10) (nanos scale : UInt32) (t : Text) :
    fractionDigits nanos scale (digit d :: t) =
      fractionDigits (nanos + UInt32.ofNat d * scale) (scale / 10) t := by
  have hbounds : 48 ≤ digit d ∧ digit d ≤ 57 := by simpa [isDigit] using isDigit_digit hd
  have hcond : ascii '0' ≤ digit d ∧ digit d ≤ ascii '9' := hbounds
  have hsub : (digit d - ascii '0').toUInt32 = UInt32.ofNat d := by
    rw [show digit d - ascii '0' = UInt8.ofNat d from digit_sub hd,
      UInt8.toUInt32_ofNat' (Nat.lt_trans hd (by decide))]
  rw [fractionDigits, if_pos hcond, hsub]

/-- The digits of a fraction are added up, each at its scale. -/
theorem fractionDigits_fixed {w : ℕ} (hw : w < 9) (nanos : UInt32) (n : ℕ) :
    fractionDigits nanos (UInt32.ofNat (10 ^ w)) (fixed 10 (w + 1) n) =
      (nanos + UInt32.ofNat (n % 10 ^ (w + 1)), []) := by
  -- The first digit of the numeral is the one whose scale is `10 ^ w`.
  rw [fixed_cons, fractionDigits_digit (Nat.mod_lt _ (by omega)), ← UInt32.ofNat_mul]
  induction w generalizing nanos with
  | zero => simp [fractionDigits]
  | succ w ih =>
    rw [scale_div (by omega), fixed_cons, fractionDigits_digit (Nat.mod_lt _ (by omega)),
      ← UInt32.ofNat_mul, ih (by omega), UInt32.add_assoc, ← UInt32.ofNat_add,
      Nat.mod_pow_succ (k := w + 1), Nat.add_comm, Nat.mul_comm]

/-- A fraction of nine digits is the number of nanoseconds. -/
theorem readFraction_fixed {n : ℕ} (h : n < 10 ^ 9) :
    readFraction (ascii '.' :: fixed 10 9 n) = (UInt32.ofNat n, []) := by
  rw [readFraction, if_pos rfl]
  have hloop := fractionDigits_fixed (w := 8) (by omega) 0 n
  rwa [UInt32.zero_add, Nat.mod_eq_of_lt h] at hloop

/-! ### Pairs of hex digits -/

theorem hexByte_digit :
    ∀ h < 16, ∀ l < 16, hexByte (digit h) (digit l) = some (UInt8.ofNat (h * 16 + l)) := by
  decide

theorem digit_ne_dash {d : ℕ} (h : d < 16) : digit d ≠ ascii '-' := by
  revert h d
  decide

/-- The two digits of a byte. -/
theorem fixed_two (n : ℕ) : fixed 16 2 n = [digit (n / 16 % 16), digit (n % 16)] := rfl

/-- They are read back, as far as a byte holds the number. -/
theorem hexByte_fixed (n : ℕ) :
    hexByte (digit (n / 16 % 16)) (digit (n % 16)) = some (UInt8.ofNat n) := by
  have hn : n / 16 % 16 * 16 + n % 16 = n % 2 ^ 8 := by omega
  rw [hexByte_digit _ (Nat.mod_lt _ (by omega)) _ (Nat.mod_lt _ (by omega)), hn,
    UInt8.ofNat_mod_size]

/-- The last `k` bytes of a number, the most significant one first. -/
def bigEndian : ℕ → ℕ → List UInt8
  | 0, _ => []
  | k + 1, n => UInt8.ofNat (n / 256 ^ k) :: bigEndian k n

/-- `parse_guid` reads two digits as a byte. -/
theorem guidBytes_pair (k : ℕ) {c : UInt8} (hc : c ≠ ascii '-') (d : UInt8) (t : Text) :
    guidBytes (k + 1) (c :: d :: t) =
      (hexByte c d).bind fun b => (guidBytes k t).bind fun bs => some (b :: bs) :=
  if_neg hc

/-- Dashes are skipped. -/
theorem guidBytes_dash (k : ℕ) (t : Text) :
    guidBytes (k + 1) (ascii '-' :: t) = guidBytes (k + 1) t := by
  cases t <;> exact if_pos rfl

/-- `parse_guid` reads a group of hex digits as the bytes of its number. -/
theorem guidBytes_fixed (j k n : ℕ) (rest : Text) :
    guidBytes (j + k) (fixed 16 (2 * j) n ++ rest) =
      (guidBytes k rest).map (bigEndian j n ++ ·) := by
  induction j with
  | zero => simp [bigEndian]
  | succ j ih =>
    have hpow : 16 ^ (2 * j) = 256 ^ j := by rw [Nat.pow_mul]
    rw [show 2 * (j + 1) = 2 + 2 * j by omega, fixed_add, fixed_two, hpow,
      show j + 1 + k = j + k + 1 by omega]
    rw [List.append_assoc, List.cons_append, List.cons_append, List.nil_append,
      guidBytes_pair _ (digit_ne_dash (Nat.mod_lt _ (by omega))), hexByte_fixed, ih]
    cases guidBytes k rest <;> rfl

/-- Bytes joined by shifts: each lies above the ones after it. -/
theorem shiftLeft_or {b n : ℕ} (i : ℕ) (h : n < 2 ^ i) : b <<< i ||| n = b * 2 ^ i + n := by
  rw [← Nat.shiftLeft_add_eq_or_of_lt h, Nat.shiftLeft_eq]

/-- A number of 16 bits from its bytes. -/
theorem ofBytes_uint16 (n : UInt16) :
    (UInt8.ofNat (n.toNat / 256 ^ 1)).toUInt16 <<< 8 |||
      (UInt8.ofNat (n.toNat / 256 ^ 0)).toUInt16 = n := by
  have hn := n.toNat_lt
  refine UInt16.toNat_inj.1 ?_
  simp only [UInt16.toNat_or, UInt16.toNat_shiftLeft, UInt8.toNat_toUInt16, UInt8.toNat_ofNat',
    UInt16.reduceToNat, Nat.reduceMod]
  rw [Nat.mod_eq_of_lt (by rw [Nat.shiftLeft_eq]; omega), shiftLeft_or 8 (by omega)]
  omega

/-- A number of 32 bits from its bytes. -/
theorem ofBytes_uint32 (n : UInt32) :
    (UInt8.ofNat (n.toNat / 256 ^ 3)).toUInt32 <<< 24 |||
        (UInt8.ofNat (n.toNat / 256 ^ 2)).toUInt32 <<< 16 |||
        (UInt8.ofNat (n.toNat / 256 ^ 1)).toUInt32 <<< 8 |||
        (UInt8.ofNat (n.toNat / 256 ^ 0)).toUInt32 = n := by
  have hn := n.toNat_lt
  refine UInt32.toNat_inj.1 ?_
  simp only [UInt32.toNat_or, UInt32.toNat_shiftLeft, UInt8.toNat_toUInt32, UInt8.toNat_ofNat',
    Nat.or_assoc, UInt32.reduceToNat, Nat.reduceMod]
  -- From the last byte on: what has been joined is below the next shift.
  rw [Nat.mod_eq_of_lt (a := (n.toNat / 256 ^ 1 % 2 ^ 8) <<< 8) (by rw [Nat.shiftLeft_eq]; omega),
    shiftLeft_or 8 (by omega),
    Nat.mod_eq_of_lt (a := (n.toNat / 256 ^ 2 % 2 ^ 8) <<< 16) (by rw [Nat.shiftLeft_eq]; omega),
    shiftLeft_or 16 (by omega),
    Nat.mod_eq_of_lt (a := (n.toNat / 256 ^ 3 % 2 ^ 8) <<< 24) (by rw [Nat.shiftLeft_eq]; omega),
    shiftLeft_or 24 (by omega)]
  omega

/-! ### The kinds of value -/

/-- The digits of a number are all of its numeral. -/
theorem takeWhile_numeral (n : ℕ) : (numeral 10 n).takeWhile isDigit = numeral 10 n :=
  List.takeWhile_eq_self_iff.2 fun _ => isDigit_of_mem_numeral

/-- A numeral has no sign. -/
theorem head_numeral_ne (n : ℕ) : (numeral 10 n).head? ≠ some (ascii '-') := by
  intro h
  exact absurd (isDigit_of_mem_numeral (List.mem_of_head? h)) (by decide)

/-- An integer, written in full, is read back: even the least one of its width. -/
theorem parseInt_decimal {w : ℕ} (v : BitVec w) : parseInt w (decimal v.toInt) = some v := by
  have hrange : -2 ^ (w - 1) ≤ v.toInt ∧ v.toInt < 2 ^ (w - 1) := ⟨v.le_toInt, v.toInt_lt⟩
  by_cases hneg : v.toInt < 0
  · have hv : -(v.toInt.natAbs : ℤ) = v.toInt := by omega
    simp only [parseInt, decimal, if_pos hneg, List.head?_cons, List.drop_succ_cons, List.drop_zero,
      if_true, takeWhile_numeral, value_numeral, hv, if_neg (numeral_ne_nil 10 _), if_pos hrange,
      BitVec.ofInt_toInt]
  · have hv : (v.toInt.natAbs : ℤ) = v.toInt := by omega
    simp only [parseInt, decimal, if_neg hneg, if_neg (head_numeral_ne _), takeWhile_numeral,
      value_numeral, hv, if_neg (numeral_ne_nil 10 _), if_pos hrange, BitVec.ofInt_toInt]

/-- Hex digits are read back as the bytes they were written from, as far as there is room. -/
theorem hexPairs_hex (capacity : ℕ) (bytes : List UInt8) :
    hexPairs capacity (bytes.flatMap fun b => hex 2 b.toNat) = bytes.take capacity := by
  induction bytes generalizing capacity with
  | nil => cases capacity <;> rfl
  | cons b bytes ih =>
    rcases capacity with _ | capacity
    · rfl
    · rw [List.flatMap_cons, hex_byte, fixed_two, List.cons_append, List.cons_append,
        List.nil_append, hexPairs, hexByte_fixed, UInt8.ofNat_toNat]
      exact congrArg (b :: ·) (ih capacity)

/-- A binary string is read back. -/
theorem decodeBytea_encodeBytea (bytes : List UInt8) (capacity : ℕ) :
    decodeBytea (encodeBytea bytes) capacity = bytes.take capacity := by
  rw [encodeBytea, List.cons_append, List.cons_append, List.nil_append, decodeBytea,
    if_pos ⟨rfl, .inl rfl⟩, hexPairs_hex]

/-- A guid is laid out from its bytes, big-endian. -/
theorem packGuid_bigEndian (v : Guid) :
    packGuid (bigEndian 4 v.data1.toNat ++ (bigEndian 2 v.data2.toNat ++
      (bigEndian 2 v.data3.toNat ++ v.data4.toList))) = some v := by
  rcases v with ⟨d1, d2, d3, d4⟩
  have h4 : #v[d4[0], d4[1], d4[2], d4[3], d4[4], d4[5], d4[6], d4[7]] = d4 := by
    refine Vector.ext fun i h => ?_
    interval_cases i <;> rfl
  simp only [bigEndian, toList_eight, List.cons_append, List.nil_append, packGuid, ofBytes_uint32,
    ofBytes_uint16, h4]

/-- A guid is read back. -/
theorem parseGuid_formatGuid (v : Guid) : parseGuid (formatGuid v) = some v := by
  have hbyte (c : UInt8) : bigEndian 1 c.toNat = [c] := by simp [bigEndian]
  have htail : fixed 16 2 v.data4[7].toNat = fixed 16 2 v.data4[7].toNat ++ [] := by simp
  have hbytes : guidBytes 16 (formatGuid v) =
      some (bigEndian 4 v.data1.toNat ++ (bigEndian 2 v.data2.toNat ++
        (bigEndian 2 v.data3.toNat ++ v.data4.toList))) := by
    rw [formatGuid, Guid.format_eq, htail]
    simp only [List.append_assoc]
    rw [guidBytes_fixed 4 12, guidBytes_dash 11, guidBytes_fixed 2 10, guidBytes_dash 9,
      guidBytes_fixed 2 8, guidBytes_dash 7, guidBytes_fixed 1 7, guidBytes_fixed 1 6,
      guidBytes_dash 5, guidBytes_fixed 1 5, guidBytes_fixed 1 4, guidBytes_fixed 1 3,
      guidBytes_fixed 1 2, guidBytes_fixed 1 1, guidBytes_fixed 1 0]
    simp only [guidBytes, hbyte, toList_eight, Option.map_some,
      List.cons_append, List.nil_append]
  rw [parseGuid, hbytes]
  exact packGuid_bigEndian v

/-! ### Dates and times -/

/-- The fields of a date print in the width its format gives them. -/
structure DateFits (v : Date) : Prop where
  year : 0 ≤ v.year.toInt ∧ v.year.toInt ≤ 9999
  month : v.month.toNat < 10 ^ 2
  day : v.day.toNat < 10 ^ 2

/-- The fields of a time print in the width its format gives them. -/
structure TimeFits (v : Time) : Prop where
  hour : v.hour.toNat < 10 ^ 2
  minute : v.minute.toNat < 10 ^ 2
  second : v.second.toNat < 10 ^ 2

/-- The fields of a timestamp print in the width its format gives them. -/
structure TimestampFits (v : Timestamp) : Prop where
  year : 0 ≤ v.year.toInt ∧ v.year.toInt ≤ 9999
  month : v.month.toNat < 10 ^ 2
  day : v.day.toNat < 10 ^ 2
  hour : v.hour.toNat < 10 ^ 2
  minute : v.minute.toNat < 10 ^ 2
  second : v.second.toNat < 10 ^ 2
  fraction : v.fraction.toNat < 10 ^ 9

/-- A date is read back. -/
theorem parseDate_formatDate {v : Date} (h : DateFits v) : parseDate (formatDate v) = some v := by
  obtain ⟨⟨hy₀, hy⟩, hm, hd⟩ := h
  have hy' : v.year.toInt.toNat < 10 ^ 4 := by omega
  rw [parseDate, formatDate, zeroPadded_eq (by omega) hy₀ hy', zeroPadded_natCast (by omega) hm,
    zeroPadded_natCast (by omega) hd]
  simp only [List.append_assoc, List.cons_append, List.nil_append, Option.bind_eq_bind,
    readDigits_fixed hy', readDigits_fixed hm, readDigits_fixed' hd, expect_cons, Option.bind_some,
    toBitVec_ofNat_toInt hy₀, UInt16.ofNat_toNat]
  rfl

/-- A time is read back. -/
theorem parseTime_formatTime {v : Time} (h : TimeFits v) : parseTime (formatTime v) = some v := by
  obtain ⟨hh, hm, hs⟩ := h
  rw [parseTime, formatTime, zeroPadded_natCast (by omega) hh, zeroPadded_natCast (by omega) hm,
    zeroPadded_natCast (by omega) hs]
  simp only [List.append_assoc, List.cons_append, List.nil_append, Option.bind_eq_bind,
    readDigits_fixed hh, readDigits_fixed hm, readDigits_fixed' hs, expect_cons, Option.bind_some,
    UInt16.ofNat_toNat]
  rfl

theorem skipSeparator_space (t : Text) : skipSeparator (ascii ' ' :: t) = t := by
  rw [skipSeparator, if_pos (.inl rfl)]

/-- A timestamp is read from its date and time, and from a fraction that is read as its own. -/
theorem parseTimestamp_head {v : Timestamp} (h : TimestampFits v) {t : Text}
    (ht : (readFraction t).1 = v.fraction) : parseTimestamp (v.head ++ t) = some v := by
  obtain ⟨⟨hy₀, hy⟩, hmo, hd, hh, hm, hs, -⟩ := h
  have hy' : v.year.toInt.toNat < 10 ^ 4 := by omega
  -- The two libraries print a number in a width alike.
  have hdec {w : ℕ} (hw : 0 < w) {n : ℕ} (h : n < 10 ^ w) : dec w n = fixed 10 w n :=
    zeroPadded_natCast hw h
  have hyear : dec 4 v.year.toInt = fixed 10 4 v.year.toInt.toNat :=
    zeroPadded_eq (by omega) hy₀ hy'
  rw [parseTimestamp, Timestamp.head, hyear, hdec (by omega) hmo, hdec (by omega) hd,
    hdec (by omega) hh, hdec (by omega) hm, hdec (by omega) hs]
  simp only [List.append_assoc, List.cons_append, List.nil_append]
  refine Option.bind_eq_some_iff.2 ⟨_, readDigits_fixed hy' _, ?_⟩
  refine Option.bind_eq_some_iff.2 ⟨_, expect_cons _ _, ?_⟩
  refine Option.bind_eq_some_iff.2 ⟨_, readDigits_fixed hmo _, ?_⟩
  refine Option.bind_eq_some_iff.2 ⟨_, expect_cons _ _, ?_⟩
  refine Option.bind_eq_some_iff.2 ⟨_, readDigits_fixed hd _, ?_⟩
  dsimp only
  rw [skipSeparator_space]
  refine Option.bind_eq_some_iff.2 ⟨_, readDigits_fixed hh _, ?_⟩
  refine Option.bind_eq_some_iff.2 ⟨_, expect_cons _ _, ?_⟩
  refine Option.bind_eq_some_iff.2 ⟨_, readDigits_fixed hm _, ?_⟩
  refine Option.bind_eq_some_iff.2 ⟨_, expect_cons _ _, ?_⟩
  refine Option.bind_eq_some_iff.2 ⟨_, readDigits_fixed hs _, ?_⟩
  simp only [ht, toBitVec_ofNat_toInt hy₀, UInt16.ofNat_toNat]
  rfl

theorem formatTimestamp_eq (v : Timestamp) :
    formatTimestamp v = v.head ++ ascii '.' :: zeroPadded 9 v.fraction.toNat := by
  rw [formatTimestamp, List.append_assoc]
  rfl

/-- A timestamp is read back, to the nanosecond. -/
theorem parseTimestamp_formatTimestamp {v : Timestamp} (h : TimestampFits v) :
    parseTimestamp (formatTimestamp v) = some v := by
  have hfraction := readFraction_fixed h.fraction
  rw [← zeroPadded_natCast (by omega) h.fraction, UInt32.ofNat_toNat] at hfraction
  rw [formatTimestamp_eq, parseTimestamp_head h]
  rw [hfraction]

end Dbgen4.Psql
