import Mathlib.Data.Nat.Basic
import Mathlib.Data.List.Basic
import Mathlib.Data.List.Induction
import Mathlib.Tactic.Ring

/-!
# Positional numerals as bytes

Numbers written in ASCII, in a base of at most 16 (lower case). A number has a
shortest numeral (`numeral`) and, below `b ^ w`, one of exactly `w` digits
(`fixed`); filling the shortest one up with zeros gives the other
(`pad_numeral`). Fixed numerals are what a reader of digit groups wants: they
come apart at any position (`fixed_add`), from the front (`fixed_cons`) as well
as from the back.
-/

namespace Numeral

/-- The byte of a digit. -/
def digit (d : ℕ) : UInt8 := d.digitChar.toNat.toUInt8

/-- The shortest numeral of a number, the most significant digit first. -/
def numeral (b n : ℕ) : List UInt8 := (Nat.toDigits b n).map fun c => c.toNat.toUInt8

/-- The last `w` digits of a number, the most significant one first. -/
def fixed (b : ℕ) : ℕ → ℕ → List UInt8
  | 0, _ => []
  | w + 1, n => fixed b w (n / b) ++ [digit (n % b)]

/-- A numeral filled up with zeros to at least `w` digits. -/
def pad (w : ℕ) (t : List UInt8) : List UInt8 := List.replicate (w - t.length) (digit 0) ++ t

@[simp] theorem fixed_zero (b n : ℕ) : fixed b 0 n = [] := rfl

theorem fixed_succ (b w n : ℕ) : fixed b (w + 1) n = fixed b w (n / b) ++ [digit (n % b)] := rfl

@[simp] theorem length_fixed (b w n : ℕ) : (fixed b w n).length = w := by
  induction w generalizing n with
  | zero => rfl
  | succ w ih => rw [fixed_succ, List.length_append, ih, List.length_singleton]

/-- A numeral of fixed width comes apart at any position. -/
theorem fixed_add (b v w n : ℕ) : fixed b (v + w) n = fixed b v (n / b ^ w) ++ fixed b w n := by
  induction w generalizing n with
  | zero => simp
  | succ w ih =>
    rw [← Nat.add_assoc, fixed_succ, fixed_succ, ih, Nat.div_div_eq_div_mul, ← Nat.pow_succ',
      List.append_assoc]

/-- The first digit of a numeral of fixed width. -/
theorem fixed_cons (b w n : ℕ) :
    fixed b (w + 1) n = digit (n / b ^ w % b) :: fixed b w n := by
  rw [Nat.add_comm, fixed_add]
  rfl

/-- Every digit of a numeral of fixed width is one of the base. -/
theorem mem_fixed {b w n : ℕ} (hb : 0 < b) {c : UInt8} (h : c ∈ fixed b w n) :
    ∃ d < b, c = digit d := by
  induction w generalizing n with
  | zero => cases h
  | succ w ih =>
    rcases List.mem_append.1 h with h | h
    · exact ih h
    · exact ⟨n % b, Nat.mod_lt n hb, List.mem_singleton.1 h⟩

variable {b : ℕ}

/-- The shortest numeral, digit by digit. -/
theorem numeral_eq (hb : 1 < b) (n : ℕ) :
    numeral b n = if n < b then [digit n] else numeral b (n / b) ++ [digit (n % b)] := by
  rw [numeral, Nat.toDigits_eq_if hb]
  split
  · rfl
  · rw [List.map_append]
    rfl

theorem numeral_ne_nil (b n : ℕ) : numeral b n ≠ [] := by
  simp [numeral, Nat.toDigits_ne_nil]

/-- A number has as many digits as its size in the base says. -/
theorem length_numeral_le (hb : 1 < b) {w : ℕ} (hw : 0 < w) (n : ℕ) :
    (numeral b n).length ≤ w ↔ n < b ^ w := by
  rw [numeral, List.length_map, Nat.length_toDigits_le_iff hb hw]

/-- Zero in every position. -/
theorem fixed_zero_right (b w : ℕ) : fixed b w 0 = List.replicate w (digit 0) := by
  induction w with
  | zero => rfl
  | succ w ih => rw [fixed_succ, Nat.zero_div, Nat.zero_mod, ih, List.replicate_succ']

/-- The shortest numeral is the one of its own width. -/
theorem numeral_eq_fixed (hb : 1 < b) (n : ℕ) : numeral b n = fixed b (numeral b n).length n := by
  induction n using Nat.strong_induction_on with
  | _ n ih =>
    rw [numeral_eq hb]
    split
    · rename_i h
      rw [List.length_singleton, fixed_succ, Nat.mod_eq_of_lt h]
      rfl
    · rename_i h
      have hlt : n / b < n := Nat.div_lt_self (by omega) hb
      rw [List.length_append, List.length_singleton, fixed_succ, ← ih _ hlt]

/-- Filled up with zeros, the shortest numeral is the one of fixed width. -/
theorem pad_numeral (hb : 1 < b) {w n : ℕ} (hw : 0 < w) (hn : n < b ^ w) :
    pad w (numeral b n) = fixed b w n := by
  have hlen := (length_numeral_le hb hw n).2 hn
  obtain ⟨v, hv⟩ := Nat.exists_eq_add_of_le' hlen
  have hpos : 0 < (numeral b n).length := List.length_pos_iff.2 (numeral_ne_nil b n)
  have hlt : n < b ^ (numeral b n).length := (length_numeral_le hb hpos n).1 le_rfl
  calc pad w (numeral b n)
      = List.replicate v (digit 0) ++ fixed b (numeral b n).length n := by
        rw [pad, ← numeral_eq_fixed hb, show w - (numeral b n).length = v by omega]
    _ = fixed b v (n / b ^ (numeral b n).length) ++ fixed b (numeral b n).length n := by
        rw [Nat.div_eq_of_lt hlt, fixed_zero_right]
    _ = fixed b w n := by rw [← fixed_add, ← hv]

/-! ## Decimal digits read back -/

/-- The decimal digits. -/
def isDigit (c : UInt8) : Bool := 48 ≤ c && c ≤ 57

/-- Reading decimal digits on, after the number `v`. -/
def value (v : ℕ) (t : List UInt8) : ℕ := t.foldl (fun v c => v * 10 + (c - 48).toNat) v

@[simp] theorem value_nil (v : ℕ) : value v [] = v := rfl

@[simp] theorem value_cons (v : ℕ) (c : UInt8) (t : List UInt8) :
    value v (c :: t) = value (v * 10 + (c - 48).toNat) t := rfl

theorem value_append (v : ℕ) (t t' : List UInt8) : value v (t ++ t') = value (value v t) t' :=
  List.foldl_append

theorem isDigit_digit {d : ℕ} (h : d < 10) : isDigit (digit d) := by
  revert h d
  decide

theorem digit_sub {d : ℕ} (h : d < 10) : digit d - 48 = UInt8.ofNat d := by
  revert h d
  decide

theorem toNat_digit_sub {d : ℕ} (h : d < 10) : (digit d - 48).toNat = d := by
  rw [digit_sub h, UInt8.toNat_ofNat', Nat.mod_eq_of_lt (by omega)]

theorem isDigit_of_mem_fixed {w n : ℕ} {c : UInt8} (h : c ∈ fixed 10 w n) : isDigit c := by
  obtain ⟨d, hd, rfl⟩ := mem_fixed (by omega) h
  exact isDigit_digit hd

theorem isDigit_of_mem_numeral {n : ℕ} {c : UInt8} (h : c ∈ numeral 10 n) : isDigit c := by
  rw [numeral_eq_fixed (by omega)] at h
  exact isDigit_of_mem_fixed h

/-- The digits are the bytes between `0` and `9`. -/
theorem isDigit_iff_exists {c : UInt8} : isDigit c ↔ ∃ d < 10, c = digit d := by
  refine ⟨fun h => ?_, fun ⟨d, hd, hc⟩ => hc ▸ isDigit_digit hd⟩
  have hbounds : 48 ≤ c.toNat ∧ c.toNat ≤ 57 := by
    simpa [isDigit, UInt8.le_iff_toNat_le] using h
  have hdigit : ∀ d < 10, UInt8.ofNat (48 + d) = digit d := by decide
  refine ⟨c.toNat - 48, by omega, ?_⟩
  rw [← hdigit _ (by omega), show 48 + (c.toNat - 48) = c.toNat by omega, UInt8.ofNat_toNat]

/-- A numeral of fixed width is read back, up to its width. -/
theorem value_fixed (v w n : ℕ) : value v (fixed 10 w n) = v * 10 ^ w + n % 10 ^ w := by
  induction w generalizing n with
  | zero => simp [Nat.mod_one]
  | succ w ih =>
    have hmod : n % 10 ^ (w + 1) = n / 10 % 10 ^ w * 10 + n % 10 := by
      rw [Nat.pow_succ', Nat.mod_mul]
      omega
    rw [fixed_succ, value_append, ih, value_cons, value_nil,
      toNat_digit_sub (Nat.mod_lt n (by omega)), hmod, Nat.pow_succ]
    ring

/-- Digits are the numeral, of their number, of their value. -/
theorem eq_fixed_of_isDigit {t : List UInt8} (h : ∀ c ∈ t, isDigit c) :
    t = fixed 10 t.length (value 0 t) ∧ value 0 t < 10 ^ t.length := by
  induction t using List.reverseRecOn with
  | nil => simp
  | append_singleton t c ih =>
    obtain ⟨hfixed, hlt⟩ := ih fun c hc => h c (List.mem_append_left _ hc)
    obtain ⟨d, hd, rfl⟩ := isDigit_iff_exists.1 (h c (by simp))
    rw [value_append, value_cons, value_nil, toNat_digit_sub hd, List.length_append,
      List.length_singleton, fixed_succ, Nat.pow_succ]
    refine ⟨?_, by omega⟩
    rw [show (value 0 t * 10 + d) / 10 = value 0 t by omega,
      show (value 0 t * 10 + d) % 10 = d by omega, ← hfixed]

/-- The shortest numeral is read back. -/
theorem value_numeral (n : ℕ) : value 0 (numeral 10 n) = n := by
  have hpos : 0 < (numeral 10 n).length := List.length_pos_iff.2 (numeral_ne_nil 10 n)
  have hlt : n < 10 ^ (numeral 10 n).length := (length_numeral_le (by omega) hpos n).1 le_rfl
  rw [numeral_eq_fixed (by omega), value_fixed, Nat.zero_mul, Nat.zero_add, Nat.mod_eq_of_lt hlt]

end Numeral
