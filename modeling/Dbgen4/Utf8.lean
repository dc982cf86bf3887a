import Mathlib.Algebra.Ring.Nat
import Mathlib.Tactic.SplitIfs

/-!
# Wide strings as UTF-8

`dbgen4::to_utf8` (`runtime_support/utf8.hpp`) encodes the wide strings that the generated `dump`
methods print, on the platforms whose `wchar_t` has 32 bits. What is well-formed, and how it is
decoded, is Lean's own `ByteArray.IsValidUTF8` and `ByteArray.utf8Decode?`, those of RFC 3629:
a `Char` is a scalar value of Unicode.

* A scalar value is encoded as it should be, and a value beyond the last one as the replacement
  character (`encode_eq`);
* a surrogate is a value like any other for the code, but there is no encoding for it: no text goes
  on with the three bytes it is given (`not_isValidUTF8_surrogate`).

So the result is well-formed exactly for the strings without surrogates
(`isValidUTF8_toUtf8_iff`), and these it encodes (`toUtf8_wellEncoded_iff`).
-/

namespace Dbgen4

/-- `static_cast<char>` of some bits of a value. -/
def toByte (bits : UInt32) : UInt8 := bits.toUInt8

/-- What the loop of `dbgen4::to_utf8` appends for one `wchar_t`, cast to `char32_t`. -/
def encode (c : UInt32) : List UInt8 :=
  if c < 0x80 then [toByte c]
  else if c < 0x800 then [toByte (0xC0 ||| c >>> (6 : UInt32)), toByte (0x80 ||| (c &&& 0x3F))]
  else if c < 0x10000 then
    [toByte (0xE0 ||| c >>> (12 : UInt32)), toByte (0x80 ||| (c >>> (6 : UInt32) &&& 0x3F)),
      toByte (0x80 ||| (c &&& 0x3F))]
  else if c ≤ 0x10FFFF then
    [toByte (0xF0 ||| c >>> (18 : UInt32)), toByte (0x80 ||| (c >>> (12 : UInt32) &&& 0x3F)),
      toByte (0x80 ||| (c >>> (6 : UInt32) &&& 0x3F)), toByte (0x80 ||| (c &&& 0x3F))]
  else [0xEF, 0xBF, 0xBD]

/-- `dbgen4::to_utf8`. -/
def toUtf8 (wstr : List UInt32) : List UInt8 :=
  if wstr.isEmpty then [] else wstr.flatMap encode

/-- The values that are no scalar values although they are below the last one. -/
def Surrogate (c : UInt32) : Prop := 0xD800 ≤ c ∧ c ≤ 0xDFFF

instance : DecidablePred Surrogate := fun c =>
  inferInstanceAs (Decidable (0xD800 ≤ c ∧ c ≤ 0xDFFF))

/-- A value as a character: itself if it is a scalar value, U+FFFD if it is not. -/
def scalar (c : UInt32) : Char := if h : c.isValidChar then ⟨c, h⟩ else '\uFFFD'

/-- Some bytes are the encoding of a text: well-formed, and the text is what they decode to. -/
def WellEncoded (bytes : List UInt8) (text : List Char) : Prop :=
  bytes.toByteArray.IsValidUTF8 ∧ bytes.toByteArray.utf8Decode? = some text.toArray

theorem toUtf8_eq (wstr : List UInt32) : toUtf8 wstr = wstr.flatMap encode := by
  cases wstr <;> rfl

/-- Exactly one text has some bytes as its encoding. -/
theorem wellEncoded_iff {bytes : List UInt8} {text : List Char} :
    WellEncoded bytes text ↔ bytes = text.flatMap String.utf8EncodeChar := by
  constructor
  · rintro ⟨⟨text', hbytes⟩, hdecode⟩
    rw [hbytes, List.utf8Decode?_utf8Encode, Option.some_inj] at hdecode
    obtain rfl : text' = text := by simpa using hdecode
    exact List.toByteArray_inj.1 hbytes
  · rintro rfl
    exact ⟨⟨text, rfl⟩, List.utf8Decode?_utf8Encode⟩

/-! ## One value -/

/-- Bits below a multiple of a power of 2 are added to it. -/
theorem toByte_or {k x : UInt32} {i a n : ℕ} (hk : k.toNat = 2 ^ i * a) (hx : x.toNat = n)
    (hn : n < 2 ^ i) : toByte (k ||| x) = UInt8.ofNat (n + 2 ^ i * a) := by
  refine UInt8.toNat_inj.1 ?_
  rw [toByte, UInt32.toNat_toUInt8, UInt32.toNat_or, hk, hx, ← Nat.two_pow_add_eq_or_of_lt hn,
    UInt8.toNat_ofNat', Nat.add_comm]

/-- The leading byte of an encoding: marked bits, above those of the value. -/
theorem toByte_lead {k c s : UInt32} {i a : ℕ} (hk : k.toNat = 2 ^ i * a) (hs : s.toNat < 32)
    (hc : c.toNat / 2 ^ s.toNat < 2 ^ i) :
    toByte (k ||| c >>> s) = UInt8.ofNat (c.toNat / 2 ^ s.toNat % 2 ^ i + 2 ^ i * a) := by
  rw [Nat.mod_eq_of_lt hc]
  refine toByte_or hk ?_ hc
  rw [UInt32.toNat_shiftRight, Nat.mod_eq_of_lt hs, Nat.shiftRight_eq_div_pow]

/-- The other bytes: six bits of the value each. -/
theorem toByte_tail (c : UInt32) :
    toByte (0x80 ||| (c &&& 0x3F)) = UInt8.ofNat (c.toNat % 0x40 + 0x80) := by
  refine toByte_or (a := 2) (i := 6) rfl ?_ (Nat.mod_lt _ (by omega))
  rw [UInt32.toNat_and]
  exact Nat.and_two_pow_sub_one_eq_mod _ 6

theorem toByte_tail_shift {c s : UInt32} (hs : s.toNat < 32) :
    toByte (0x80 ||| (c >>> s &&& 0x3F)) =
      UInt8.ofNat (c.toNat / 2 ^ s.toNat % 0x40 + 0x80) := by
  rw [toByte_tail, UInt32.toNat_shiftRight, Nat.mod_eq_of_lt hs, Nat.shiftRight_eq_div_pow]

/-- A scalar value has its own encoding. -/
theorem encode_of_isValidChar {c : UInt32} (h : c.isValidChar) :
    encode c = String.utf8EncodeChar ⟨c, h⟩ := by
  have hle : c.toNat < 0x110000 := by
    rcases h with h | h <;> omega
  simp only [encode, String.utf8EncodeChar, UInt32.lt_iff_toNat_lt, UInt32.le_iff_toNat_le,
    UInt32.reduceToNat]
  -- The ranges of the code are those of the encoding: `c < 0x80` against `c ≤ 0x7f`.
  split_ifs with h₁ h₂ h₃ h₄ h₅ h₆ h₇ h₈ <;> try omega
  · rw [toByte, ← UInt8.ofNat_uInt32ToNat]
  · rw [toByte_lead (a := 6) (i := 5) rfl (by decide) (by simp; omega), toByte_tail]
    rfl
  · rw [toByte_lead (a := 14) (i := 4) rfl (by decide) (by simp; omega),
      toByte_tail_shift (s := 6) (by decide), toByte_tail]
    rfl
  · rw [toByte_lead (a := 30) (i := 3) rfl (by decide) (by simp; omega),
      toByte_tail_shift (s := 12) (by decide), toByte_tail_shift (s := 6) (by decide), toByte_tail]
    rfl

/-- There is a character for every value but a surrogate and those beyond the last one. -/
theorem isValidChar_iff {c : UInt32} : c.isValidChar ↔ ¬ Surrogate c ∧ c ≤ 0x10FFFF := by
  simp only [UInt32.isValidChar, Nat.isValidChar, Surrogate, UInt32.le_iff_toNat_le,
    UInt32.reduceToNat]
  omega

/-- What is no surrogate is encoded as the character that stands for it. -/
theorem encode_eq {c : UInt32} (h : ¬ Surrogate c) :
    encode c = String.utf8EncodeChar (scalar c) := by
  by_cases hvalid : c.isValidChar
  · rw [scalar, dif_pos hvalid, encode_of_isValidChar hvalid]
  · rw [scalar, dif_neg hvalid]
    have hlast : ¬ c ≤ 0x10FFFF := fun hle => hvalid (isValidChar_iff.2 ⟨h, hle⟩)
    simp only [UInt32.le_iff_toNat_le, UInt32.reduceToNat] at hlast
    simp only [encode, UInt32.lt_iff_toNat_lt, UInt32.le_iff_toNat_le, UInt32.reduceToNat]
    rw [if_neg (by omega), if_neg (by omega), if_neg (by omega), if_neg hlast]
    decide

/-! ## Surrogates -/

/-- A surrogate is encoded as if it were a scalar value, in the range of three bytes. -/
theorem encode_of_surrogate {c : UInt32} (h : Surrogate c) :
    ∃ b₁ rest, encode c = 0xED :: b₁ :: rest ∧ 0xA0 ≤ b₁.toNat := by
  have hlo : 0xD800 ≤ c.toNat := UInt32.le_iff_toNat_le.1 h.1
  have hhi : c.toNat ≤ 0xDFFF := UInt32.le_iff_toNat_le.1 h.2
  simp only [encode, UInt32.lt_iff_toNat_lt, UInt32.reduceToNat]
  rw [if_neg (by omega), if_neg (by omega), if_pos (by omega),
    toByte_lead (a := 14) (i := 4) rfl (by decide) (by simp; omega),
    toByte_tail_shift (s := 6) (by decide)]
  have hlead : c.toNat / 2 ^ (12 : UInt32).toNat = 13 := by simp; omega
  rw [hlead]
  refine ⟨_, _, rfl, ?_⟩
  simp only [UInt8.toNat_ofNat', UInt32.reduceToNat]
  omega

/-- After `0xED`, an encoding goes on below `0xA0`: from there on it would be a surrogate's. -/
theorem utf8EncodeChar_ne_surrogate (d : Char) (t rest : List UInt8) {b₁ : UInt8}
    (h : 0xA0 ≤ b₁.toNat) : String.utf8EncodeChar d ++ t ≠ 0xED :: b₁ :: rest := by
  have hvalid : d.toNat < 0xD800 ∨ 0xDFFF < d.toNat := by
    rcases d.valid with hd | hd
    · exact .inl hd
    · exact .inr hd.1
  intro heq
  have hlead := congrArg (fun l => l[0]?.map UInt8.toNat) heq
  have hsecond := congrArg (fun l => l[1]?.map UInt8.toNat) heq
  simp only [String.utf8EncodeChar, Char.toNat_val] at hlead hsecond
  split_ifs at hlead hsecond with h₁ h₂ h₃
  · simp at hlead
    omega
  · simp at hlead
    omega
  · simp at hlead hsecond
    omega
  · simp at hlead
    omega

/-- There is no text whose encoding goes on with that of a surrogate. -/
theorem not_isValidUTF8_surrogate {c : UInt32} (h : Surrogate c) (rest : List UInt8) :
    ¬ (encode c ++ rest).toByteArray.IsValidUTF8 := by
  rintro ⟨text, heq⟩
  obtain ⟨b₁, b, hc, hb₁⟩ := encode_of_surrogate h
  have hbytes : encode c ++ rest = text.flatMap String.utf8EncodeChar := List.toByteArray_inj.1 heq
  rw [hc] at hbytes
  cases text with
  | nil => exact List.cons_ne_nil _ _ hbytes
  | cons d text => exact utf8EncodeChar_ne_surrogate d _ _ hb₁ hbytes.symm

/-! ## The whole string -/

/-- A string without surrogates is encoded value by value. -/
theorem toUtf8_wellEncoded {wstr : List UInt32} (h : ∀ c ∈ wstr, ¬ Surrogate c) :
    WellEncoded (toUtf8 wstr) (wstr.map scalar) := by
  rw [wellEncoded_iff, toUtf8_eq]
  induction wstr with
  | nil => rfl
  | cons c wstr ih =>
    obtain ⟨hc, hwstr⟩ := List.forall_mem_cons.1 h
    rw [List.map_cons, List.flatMap_cons, List.flatMap_cons, encode_eq hc, ih hwstr]

/-- The result is well-formed if, and only if, there is no surrogate in the string. -/
theorem isValidUTF8_toUtf8_iff (wstr : List UInt32) :
    (toUtf8 wstr).toByteArray.IsValidUTF8 ↔ ∀ c ∈ wstr, ¬ Surrogate c := by
  refine ⟨fun hvalid => ?_, fun h => (toUtf8_wellEncoded h).1⟩
  rw [toUtf8_eq] at hvalid
  induction wstr with
  | nil => exact fun c hc => absurd hc List.not_mem_nil
  | cons c wstr ih =>
    rw [List.flatMap_cons] at hvalid
    have hc : ¬ Surrogate c := fun hc => not_isValidUTF8_surrogate hc _ hvalid
    -- The first character is taken off the encoding; what is left is one again.
    rw [encode_eq hc, List.toByteArray_append, ← List.utf8Encode_singleton,
      ByteArray.isValidUTF8_utf8Encode_singleton_append_iff] at hvalid
    exact List.forall_mem_cons.2 ⟨hc, ih hvalid⟩

/-- **UTF-8.** The result is well-formed, and decoded it is the string with every value that is no
    scalar value replaced, if and only if there is no surrogate in the string. -/
theorem toUtf8_wellEncoded_iff (wstr : List UInt32) :
    WellEncoded (toUtf8 wstr) (wstr.map scalar) ↔ ∀ c ∈ wstr, ¬ Surrogate c :=
  ⟨fun h => (isValidUTF8_toUtf8_iff wstr).1 h.1, toUtf8_wellEncoded⟩

/-- A lone surrogate: `ED A0 80` is no UTF-8. -/
theorem not_wellEncoded_toUtf8_surrogate :
    ¬ WellEncoded (toUtf8 [0xD800]) ([0xD800].map scalar) := fun h =>
  (isValidUTF8_toUtf8_iff [0xD800]).1 h.1 0xD800 List.mem_cons_self (by decide)

end Dbgen4
