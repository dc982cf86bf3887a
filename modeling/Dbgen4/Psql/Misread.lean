import Dbgen4.Psql.Query

/-!
# What is understood of a text

The readers of integers, dates and guids stop once they have what they look for, and
accept whatever follows it. So a text can be stored as a value that it does not denote
in the syntax of the server: `0044-03-15 BC` as a date of the year 44. Each reader
is described by how the texts begin that it accepts; of these, it understands those which
are a value in full (`neverMisread_iff`).
-/

namespace Dbgen4.Psql

open Rtl Numeral

/-! ## Integers -/

/-- The sign of a number. -/
def sign (negative : Bool) : Text := if negative then [ascii '-'] else []

/-- The number with a sign and digits. -/
def signed (negative : Bool) (ds : Text) : ℤ :=
  if negative then -(value 0 ds : ℤ) else value 0 ds

/-- A text that is an integer in decimal notation. -/
def IsInt (text : Text) (n : ℤ) : Prop :=
  ∃ negative ds, text = sign negative ++ ds ∧ ds ≠ [] ∧ (∀ c ∈ ds, isDigit c) ∧
    n = signed negative ds

/-- A text that begins with an integer. -/
def BeginsInt (text : Text) (n : ℤ) (rest : Text) : Prop :=
  ∃ number, text = number ++ rest ∧ IsInt number n ∧ ∀ c ∈ rest.head?, ¬isDigit c

/-- The integers of `w` bits. -/
def InRange (w : ℕ) (n : ℤ) : Prop := -2 ^ (w - 1) ≤ n ∧ n < 2 ^ (w - 1)

instance (w : ℕ) (n : ℤ) : Decidable (InRange w n) := inferInstanceAs (Decidable (_ ∧ _))

theorem takeWhile_isDigit {ds rest : Text} (hds : ∀ c ∈ ds, isDigit c)
    (hrest : ∀ c ∈ rest.head?, ¬isDigit c) : (ds ++ rest).takeWhile isDigit = ds := by
  rw [List.takeWhile_append_of_pos hds]
  cases rest with
  | nil => simp
  | cons c rest => rw [List.takeWhile_cons_of_neg (hrest c rfl), List.append_nil]

theorem dash_not_digit : ¬isDigit (ascii '-') := by decide

/-- What `parse_int` reads from a text that begins with digits, or with a sign and digits. -/
theorem parseInt_append {w : ℕ} {negative : Bool} {ds rest : Text}
    (hds : ∀ c ∈ ds, isDigit c) (hrest : ∀ c ∈ rest.head?, ¬isDigit c) (hne : ds ≠ []) :
    parseInt w (sign negative ++ (ds ++ rest)) =
      if InRange w (signed negative ds) then some (BitVec.ofInt w (signed negative ds))
      else none := by
  have htake := takeWhile_isDigit hds hrest
  cases negative with
  | true =>
    simp [parseInt, sign, signed, htake, hne, InRange]
  | false =>
    obtain ⟨c, ds, rfl⟩ := List.exists_cons_of_ne_nil hne
    have hc : c ≠ ascii '-' := fun he => dash_not_digit (he ▸ hds c List.mem_cons_self)
    rw [List.cons_append] at htake
    simp [parseInt, sign, signed, htake, hc, InRange]

/-- Where `parse_int` looks for digits: after a sign, if there is one. -/
theorem exists_sign (t : Text) :
    ∃ negative u, t = sign negative ++ u ∧ (negative = false → t.head? ≠ some (ascii '-')) := by
  by_cases h : t.head? = some (ascii '-')
  · obtain ⟨u, rfl⟩ := List.head?_eq_some_iff.1 h
    exact ⟨true, u, rfl, fun h => absurd h (by decide)⟩
  · exact ⟨false, t, rfl, fun _ => h⟩

/-- Without digits there, it fails. -/
theorem parseInt_eq_none {w : ℕ} {negative : Bool} {u : Text}
    (hneg : negative = false → (sign negative ++ u).head? ≠ some (ascii '-'))
    (h : u.takeWhile isDigit = []) : parseInt w (sign negative ++ u) = none := by
  cases negative with
  | true => simp [parseInt, sign, h]
  | false =>
    have hhead : u.head? ≠ some (ascii '-') := hneg rfl
    simp [parseInt, sign, h, hhead]

/-- `parse_int` reads what a text begins with. -/
theorem parseInt_eq_some_iff {w : ℕ} (hw : 0 < w) {t : Text} {v : BitVec w} :
    parseInt w t = some v ↔ ∃ rest, BeginsInt t v.toInt rest := by
  constructor
  · intro h
    obtain ⟨negative, u, rfl, hneg⟩ := exists_sign t
    have hne : u.takeWhile isDigit ≠ [] := fun hnil => by
      rw [parseInt_eq_none hneg hnil] at h
      cases h
    have hds : ∀ c ∈ u.takeWhile isDigit, isDigit c := fun c => List.mem_takeWhile_imp
    have hrest : ∀ c ∈ (u.dropWhile isDigit).head?, ¬isDigit c := fun c hc => by
      have hfalse := List.head?_dropWhile_not isDigit u
      rw [Option.mem_def.1 hc] at hfalse
      simpa using hfalse
    rw [← List.takeWhile_append_dropWhile (p := isDigit) (l := u),
      parseInt_append hds hrest hne] at h
    split at h
    · rename_i hrange
      cases Option.some.inj h
      refine ⟨u.dropWhile isDigit, sign negative ++ u.takeWhile isDigit, ?_, ?_, hrest⟩
      · rw [List.append_assoc, List.takeWhile_append_dropWhile]
      · exact ⟨negative, _, rfl, hne, hds, BitVec.toInt_ofInt_eq_self hw hrange.1 hrange.2⟩
    · cases h
  · rintro ⟨rest, number, rfl, ⟨negative, ds, rfl, hne, hds, hv⟩, hrest⟩
    have hrange : InRange w (signed negative ds) := hv ▸ ⟨v.le_toInt, v.toInt_lt⟩
    rw [List.append_assoc, parseInt_append hds hrest hne, if_pos hrange, ← hv, BitVec.ofInt_toInt]

/-- An integer is all of a text that begins with one if nothing follows it. -/
theorem isInt_iff_of_begins {text rest : Text} {n : ℤ} (h : BeginsInt text n rest) :
    IsInt text n ↔ rest = [] := by
  obtain ⟨number, rfl, hnumber, hrest⟩ := h
  refine ⟨fun hall => ?_, fun hnil => by rwa [hnil, List.append_nil]⟩
  obtain ⟨negative, ds, rfl, hne, hds, -⟩ := hnumber
  obtain ⟨negative', ds', heq, -, hds', -⟩ := hall
  -- The two decompositions have the same sign, so that the digits of the one are all of the other.
  have hall : ds ++ rest = ds' := by
    obtain ⟨c, ds, rfl⟩ := List.exists_cons_of_ne_nil hne
    have hc : c ≠ ascii '-' := fun he => dash_not_digit (he ▸ hds c List.mem_cons_self)
    cases negative with
    | true =>
      cases negative' with
      | true => exact (List.cons.inj heq).2
      | false =>
        rw [← show _ = ds' from heq] at hds'
        exact absurd (hds' _ List.mem_cons_self) dash_not_digit
    | false =>
      cases negative' with
      | true => exact absurd (List.cons.inj heq).1 hc
      | false => exact heq
  cases rest with
  | nil => rfl
  | cons c rest => exact absurd (hds' c (hall ▸ by simp)) (hrest c rfl)

/-- A text that begins with an integer of `w` bits goes no further. -/
def WholeInt (w : ℕ) (text : Text) : Prop :=
  ∀ n rest, BeginsInt text n rest → InRange w n → rest = []

theorem parseInt_isInt_iff {w : ℕ} (hw : 0 < w) {text : Text} :
    (∀ v : BitVec w, parseInt w text = some v → IsInt text v.toInt) ↔ WholeInt w text := by
  constructor
  · intro h n rest hbegins hrange
    have hn : (BitVec.ofInt w n).toInt = n := BitVec.toInt_ofInt_eq_self hw hrange.1 hrange.2
    have hread := (parseInt_eq_some_iff hw).2 ⟨rest, hn.symm ▸ hbegins⟩
    exact (isInt_iff_of_begins hbegins).1 (hn ▸ h _ hread)
  · intro h v hread
    obtain ⟨rest, hbegins⟩ := (parseInt_eq_some_iff hw).1 hread
    exact (isInt_iff_of_begins hbegins).2 (h _ rest hbegins ⟨v.le_toInt, v.toInt_lt⟩)

/-! ## Dates -/

/-- A leap year. -/
def isLeap (y : ℤ) : Bool := y % 4 = 0 ∧ (y % 100 ≠ 0 ∨ y % 400 = 0)

/-- The number of days of a month. -/
def daysOf (y : ℤ) (m : ℕ) : ℕ :=
  if m = 2 then if isLeap y then 29 else 28
  else if m = 4 ∨ m = 6 ∨ m = 9 ∨ m = 11 then 30
  else 31

/-- A day of the calendar. -/
def InCalendar (y : ℤ) (m d : ℕ) : Prop := (1 ≤ m ∧ m ≤ 12) ∧ 1 ≤ d ∧ d ≤ daysOf y m

/-- `year-mm-dd`. -/
def dateText (year : Text) (m d : ℕ) : Text :=
  year ++ ascii '-' :: (fixed 10 2 m ++ ascii '-' :: fixed 10 2 d)

/-- What marks a year before Christ. -/
def bcSuffix : Text := [ascii ' ', ascii 'B', ascii 'C']

/-- A text that is a date as the server writes it. The year before 1 is 1 BC. -/
def IsDate (text : Text) (y : ℤ) (m d : ℕ) : Prop :=
  ∃ year : Text, ∃ bc : Bool, text = dateText year m d ++ (if bc then bcSuffix else []) ∧
    (∀ c ∈ year, isDigit c) ∧ 4 ≤ year.length ∧ 1 ≤ value 0 year ∧
    y = (if bc then 1 - (value 0 year : ℤ) else value 0 year) ∧ InCalendar y m d

/-- A text that begins with a year of four digits, a month and a day. -/
def BeginsDate (text : Text) (y m d : ℕ) (rest : Text) : Prop :=
  (y < 10 ^ 4 ∧ m < 10 ^ 2 ∧ d < 10 ^ 2) ∧ text = dateText (fixed 10 4 y) m d ++ rest

theorem isDigit_of_digitsValue {t : Text} {v v' : UInt16} (h : digitsValue v t = some v') :
    ∀ c ∈ t, isDigit c := by
  induction t generalizing v with
  | nil => exact fun c hc => absurd hc List.not_mem_nil
  | cons c t ih =>
    rw [digitsValue] at h
    split at h
    · cases h
    · rename_i hc
      exact List.forall_mem_cons.2 ⟨(isDigit_iff c).2 hc, ih h⟩

/-- `read_digits` takes digits, all of which it reads. -/
theorem readDigits_eq_some_iff {n : ℕ} {t rest : Text} {v : UInt16} :
    readDigits n t = some (v, rest) ↔
      ∃ k < 10 ^ n, t = fixed 10 n k ++ rest ∧ v = UInt16.ofNat k := by
  constructor
  · intro h
    rw [readDigits] at h
    split at h
    · cases h
    · rename_i hlen
      obtain ⟨v', hv, hpair⟩ := Option.map_eq_some_iff.1 h
      obtain ⟨rfl, rfl⟩ := Prod.mk.inj hpair
      have hds := isDigit_of_digitsValue hv
      obtain ⟨hfixed, hlt⟩ := eq_fixed_of_isDigit hds
      have hn : (t.take n).length = n := by rw [List.length_take]; omega
      have hvalue := digitsValue_eq 0 hds
      rw [hn] at hfixed hlt
      refine ⟨value 0 (t.take n), hlt, ?_, ?_⟩
      · rw [← hfixed, List.take_append_drop]
      · exact Option.some.inj (hv.symm.trans hvalue)
  · rintro ⟨k, hk, rfl, rfl⟩
    exact readDigits_fixed hk rest

theorem expect_eq_some_iff {c : UInt8} {t rest : Text} :
    expect c t = some rest ↔ t = c :: rest := by
  refine ⟨fun h => ?_, fun h => h ▸ expect_cons c rest⟩
  cases t with
  | nil => cases h
  | cons d t =>
    rw [expect] at h
    split at h
    · rename_i hd
      rw [hd, Option.some.inj h]
    · cases h

/-- `parse_date` reads what a text begins with. -/
theorem parseDate_eq_some_iff {t : Text} {v : Date} :
    parseDate t = some v ↔ ∃ y m d rest, BeginsDate t y m d rest ∧
      v = ⟨(UInt16.ofNat y).toBitVec, UInt16.ofNat m, UInt16.ofNat d⟩ := by
  simp only [parseDate, Option.bind_eq_bind, Option.bind_eq_some_iff, Prod.exists,
    readDigits_eq_some_iff, expect_eq_some_iff, Option.pure_def, Option.some.injEq]
  constructor
  · rintro ⟨_, _, ⟨y, hy, rfl, rfl⟩, _, rfl, _, _, ⟨m, hm, rfl, rfl⟩, _, rfl, _, rest,
      ⟨d, hd, rfl, rfl⟩, rfl⟩
    exact ⟨y, m, d, rest, ⟨⟨hy, hm, hd⟩, by simp [dateText]⟩, rfl⟩
  · rintro ⟨y, m, d, rest, ⟨⟨hy, hm, hd⟩, rfl⟩, rfl⟩
    exact ⟨_, _, ⟨y, hy, by simp [dateText], rfl⟩, _, rfl, _, _, ⟨m, hm, rfl, rfl⟩, _, rfl, _, rest,
      ⟨d, hd, rfl, rfl⟩, rfl⟩

/-- What is stored of a date, as numbers. -/
theorem toNat_ofNat {n : ℕ} (h : n < 10 ^ 4) : (UInt16.ofNat n).toNat = n :=
  UInt16.toNat_ofNat_of_lt' (Nat.lt_trans h (by decide))

theorem toInt_ofNat {y : ℕ} (h : y < 10 ^ 4) : (UInt16.ofNat y).toBitVec.toInt = y := by
  have hy : (UInt16.ofNat y).toBitVec.toNat = y := toNat_ofNat h
  rw [BitVec.toInt_eq_toNat_of_lt (by omega), hy]

/-- A date with a year of four digits is all of a text that begins with one if nothing follows
    it. -/
theorem isDate_iff_of_begins {text rest : Text} {y m d : ℕ} (h : BeginsDate text y m d rest) :
    IsDate text y m d ↔ rest = [] ∧ 1 ≤ y ∧ InCalendar y m d := by
  obtain ⟨⟨hy, -, -⟩, rfl⟩ := h
  have hvalue : value 0 (fixed 10 4 y) = y := by
    rw [value_fixed, Nat.mod_eq_of_lt hy, Nat.zero_mul, Nat.zero_add]
  constructor
  · rintro ⟨year, bc, heq, hdigits, -, hpos, hyear, hcal⟩
    -- Both texts begin with their digits.
    have hdash (t : Text) : ∀ c ∈ (ascii '-' :: t).head?, ¬isDigit c := by
      rintro c ⟨⟩
      exact dash_not_digit
    have hsame : fixed 10 4 y = year := by
      have htake := congrArg (List.takeWhile isDigit) heq
      simp only [dateText, List.append_assoc, List.cons_append] at htake
      rwa [takeWhile_isDigit (fun c => isDigit_of_mem_fixed) (hdash _),
        takeWhile_isDigit hdigits (hdash _)] at htake
    rw [← hsame, hvalue] at hyear hpos
    rw [← hsame] at heq
    have hrest := List.append_cancel_left heq
    cases bc with
    | true => exact absurd hyear (by simp; omega)
    | false => exact ⟨hrest, hpos, hcal⟩
  · rintro ⟨rfl, hpos, hcal⟩
    exact ⟨fixed 10 4 y, false, rfl, fun c => isDigit_of_mem_fixed, by simp, by rwa [hvalue],
      by simp [hvalue], hcal⟩

/-- A text that begins with a date is one of the calendar, from year 1 on, and goes no further. -/
def WholeDate (text : Text) : Prop :=
  ∀ y m d rest, BeginsDate text y m d rest → rest = [] ∧ 1 ≤ y ∧ InCalendar y m d

theorem parseDate_isDate_iff {text : Text} :
    (∀ v, parseDate text = some v → IsDate text v.year.toInt v.month.toNat v.day.toNat) ↔
      WholeDate text := by
  constructor
  · intro h y m d rest hbegins
    have hdate := h _ (parseDate_eq_some_iff.2 ⟨y, m, d, rest, hbegins, rfl⟩)
    obtain ⟨hy, hm, hd⟩ := hbegins.1
    rw [toInt_ofNat hy, toNat_ofNat (by omega), toNat_ofNat (by omega)] at hdate
    exact (isDate_iff_of_begins hbegins).1 hdate
  · intro h v hread
    obtain ⟨y, m, d, rest, hbegins, rfl⟩ := parseDate_eq_some_iff.1 hread
    have hdate := (isDate_iff_of_begins hbegins).2 (h y m d rest hbegins)
    obtain ⟨hy, hm, hd⟩ := hbegins.1
    rwa [toInt_ofNat hy, toNat_ofNat (by omega), toNat_ofNat (by omega)]

/-! ## Guids -/

/-- A text that begins with `k` pairs of hex digits, with any number of dashes before each. -/
inductive HexRun : ℕ → Text → Prop
  | done (t : Text) : HexRun 0 t
  | dash {k : ℕ} {t : Text} (h : HexRun (k + 1) t) : HexRun (k + 1) (ascii '-' :: t)
  | pair {k : ℕ} {c d : UInt8} {t : Text} (hc : hexVal c ≠ 0xff) (hd : hexVal d ≠ 0xff)
    (h : HexRun k t) : HexRun (k + 1) (c :: d :: t)

theorem hexVal_ne_of_hexByte {c d b : UInt8} (h : hexByte c d = some b) :
    hexVal c ≠ 0xff ∧ hexVal d ≠ 0xff := by
  rw [hexByte] at h
  split at h
  · cases h
  · rename_i hcd
    exact not_or.1 hcd

/-- The loop of `parse_guid` reads a run of pairs. -/
theorem guidBytes_isSome_iff {k : ℕ} {t : Text} : (guidBytes k t).isSome ↔ HexRun k t := by
  constructor
  · intro h
    fun_induction guidBytes k t with
    | case1 t => exact .done t
    | case2 k => cases h
    | case3 k t ih => exact .dash (ih h)
    | case4 k c hc => cases h
    | case5 k c hc d t ih =>
      obtain ⟨bs, h⟩ := Option.isSome_iff_exists.1 h
      simp only [Option.bind_eq_bind, Option.bind_eq_some_iff] at h
      obtain ⟨b, hb, bs', hbs', -⟩ := h
      obtain ⟨hc, hd⟩ := hexVal_ne_of_hexByte hb
      exact .pair hc hd (ih (by rw [hbs', Option.isSome_some]))
  · intro h
    induction h with
    | done t => simp [guidBytes]
    | dash h ih => rwa [guidBytes_dash]
    | @pair k c d t hc hd h ih =>
      have hdash : c ≠ ascii '-' := fun he => hc (he ▸ by decide)
      obtain ⟨bs, hbs⟩ := Option.isSome_iff_exists.1 ih
      rw [guidBytes_pair k hdash, hexByte, if_neg (by simp [hc, hd]), hbs]
      rfl

/-- It reads as many bytes. -/
theorem length_of_guidBytes {k : ℕ} {t : Text} {bs : List UInt8} (h : guidBytes k t = some bs) :
    bs.length = k := by
  fun_induction guidBytes k t generalizing bs with
  | case1 t => cases h; rfl
  | case2 k => cases h
  | case3 k t ih => exact ih h
  | case4 k c hc => cases h
  | case5 k c hc d t ih =>
    simp only [Option.bind_eq_bind, Option.bind_eq_some_iff] at h
    obtain ⟨b, -, bs', hbs', ⟨⟩⟩ := h
    rw [List.length_cons, ih hbs']

theorem packGuid_isSome {bs : List UInt8} (h : bs.length = 16) : (packGuid bs).isSome := by
  match bs, h with
  | [_, _, _, _, _, _, _, _, _, _, _, _, _, _, _, _], _ => rfl

/-- `parse_guid` reads a run of sixteen pairs. -/
theorem parseGuid_isSome_iff {t : Text} : (parseGuid t).isSome ↔ HexRun 16 t := by
  rw [← guidBytes_isSome_iff, parseGuid]
  cases h : guidBytes 16 t with
  | none => simp
  | some bs => simpa using packGuid_isSome (length_of_guidBytes h)

/-- A text that begins with sixteen pairs of hex digits is the canonical text of a guid. -/
def WholeGuid (text : Text) : Prop := HexRun 16 text → ∃ v, text = formatGuid v

theorem parseGuid_eq_formatGuid_iff {text : Text} :
    (∀ v, parseGuid text = some v → text = formatGuid v) ↔ WholeGuid text := by
  constructor
  · intro h hrun
    obtain ⟨v, hv⟩ := Option.isSome_iff_exists.1 (parseGuid_isSome_iff.2 hrun)
    exact ⟨v, h v hv⟩
  · intro h v hread
    obtain ⟨v', hv'⟩ := h (parseGuid_isSome_iff.1 (Option.isSome_of_mem hread))
    rw [hv', parseGuid_formatGuid] at hread
    rw [hv', Option.some.inj hread]

/-! ## Columns -/

/-- The types of integers, dates and guids. -/
def exactTypes : List SqlType := [.tinyInt, .smallint, .integer, .bigint, .date, .typeDate, .guid]

/-- The text denotes the value, in the syntax of the server. Of other types nothing is said. -/
def Denotes (t : SqlType) (text : Text) (v : t.cppType.Elem) : Prop :=
  match t with
  | .tinyInt => IsInt text (BitVec.toInt (n := 8) v)
  | .smallint => IsInt text (BitVec.toInt (n := 16) v)
  | .integer => IsInt text (BitVec.toInt (n := 32) v)
  | .bigint => IsInt text (BitVec.toInt (n := 64) v)
  | .date => IsDate text (Date.year v).toInt (Date.month v).toNat (Date.day v).toNat
  | .typeDate => IsDate text (Date.year v).toInt (Date.month v).toNat (Date.day v).toNat
  | .guid => text = formatGuid v
  | _ => True

/-- The text denotes what the cell stores. -/
def CellDenotes {t : SqlType} {size : ℕ} : {cat : SqlCat} → Cell cat t size → Text → Prop
  | .atomic, cell, text => Denotes t text cell.slot
  | .struct, cell, text => Denotes t text cell.slot
  | _, _, _ => True

/-- A text of a column is never misread: what is stored of it is what it denotes, and `fetch`
    stores NULL of a text that denotes nothing. -/
def NeverMisread (F : FloatText) (d : BufferDscr) (text : Text) : Prop :=
  (∀ cell new : d.Cell, storeValue F d cell text = some new → CellDenotes new text) ∧
    ((¬∃ v : d.Cell, CellDenotes v text) → ∀ cell : d.Cell, storeValue F d cell text = none ∧
      ∀ h, Query.fetchCell F d (some ⟨text, h⟩) cell = { cell with indicator := nullData })

/-- A text that begins as the reader of a type wants it is a value in full. -/
def ReadsWhole (t : SqlType) (text : Text) : Prop :=
  match t with
  | .tinyInt => WholeInt 8 text
  | .smallint => WholeInt 16 text
  | .integer => WholeInt 32 text
  | .bigint => WholeInt 64 text
  | .date => WholeDate text
  | .typeDate => WholeDate text
  | .guid => WholeGuid text
  | _ => True

/-- A text that denotes nothing is refused if nothing is misread. -/
theorem neverMisread_of_denotes {F : FloatText} {d : BufferDscr} {text : Text}
    (h : ∀ cell new : d.Cell, storeValue F d cell text = some new → CellDenotes new text) :
    NeverMisread F d text := by
  refine ⟨h, fun hnone cell => ?_⟩
  have hrefused : storeValue F d cell text = none :=
    Option.eq_none_iff_forall_not_mem.2 fun new hnew => hnone ⟨new, h cell new hnew⟩
  refine ⟨hrefused, fun _ => ?_⟩
  rw [Query.fetchCell]
  simp only [hrefused]

/-- It is enough to look at the readers. -/
theorem neverMisread_atomic {F : FloatText} {name : String} {t : SqlType} {size : UInt32}
    (hcat : .atomic = t.category) {text : Text} :
    NeverMisread F ⟨name, .atomic, t, size, hcat⟩ text ↔
      ∀ v, storeAtomic F t text = some v → Denotes t text v := by
  constructor
  · intro h v hv
    exact h.1 ⟨t.cppType.zero, 0⟩ _ (storeCell_atomic _ hv)
  · refine fun h => neverMisread_of_denotes fun cell new hnew => ?_
    obtain ⟨v, hv, rfl⟩ := Option.map_eq_some_iff.1 hnew
    exact h v hv

theorem neverMisread_struct {F : FloatText} {name : String} {t : SqlType} {size : UInt32}
    (hcat : .struct = t.category) {text : Text} :
    NeverMisread F ⟨name, .struct, t, size, hcat⟩ text ↔
      ∀ v, storeStructure t text = some v → Denotes t text v := by
  constructor
  · intro h v hv
    exact h.1 ⟨t.cppType.zero, 0⟩ _ (storeCell_struct F _ hv)
  · refine fun h => neverMisread_of_denotes fun cell new hnew => ?_
    obtain ⟨v, hv, rfl⟩ := Option.map_eq_some_iff.1 hnew
    exact h v hv

/-- **What is understood.** A text of a column of integers, dates or guids is never misread
    if and only if it is a value in full whenever it begins with what is read of one. -/
theorem neverMisread_iff (F : FloatText) (d : BufferDscr) (hd : d.type ∈ exactTypes) (text : Text) :
    NeverMisread F d text ↔ ReadsWhole d.type text := by
  obtain ⟨name, cat, t, size, hcat⟩ := d
  simp only [exactTypes, List.mem_cons, List.not_mem_nil, or_false] at hd
  rcases hd with rfl | rfl | rfl | rfl | rfl | rfl | rfl <;> cases hcat
  · exact (neverMisread_atomic rfl).trans (parseInt_isInt_iff (by omega))
  · exact (neverMisread_atomic rfl).trans (parseInt_isInt_iff (by omega))
  · exact (neverMisread_atomic rfl).trans (parseInt_isInt_iff (by omega))
  · exact (neverMisread_atomic rfl).trans (parseInt_isInt_iff (by omega))
  · exact (neverMisread_struct rfl).trans parseDate_isDate_iff
  · exact (neverMisread_struct rfl).trans parseDate_isDate_iff
  · exact (neverMisread_struct rfl).trans parseGuid_eq_formatGuid_iff

/-- A column of dates. -/
def born : BufferDscr := ⟨"born", .struct, .typeDate, 6, rfl⟩

/-- `0044-03-15 BC`. -/
def idesOfMarch : Text := dateText (fixed 10 4 44) 3 15 ++ bcSuffix

/-- The day is stored as one of the year 44. -/
theorem not_neverMisread_idesOfMarch : ¬NeverMisread noFloats born idesOfMarch := by
  intro h
  have hwhole : WholeDate idesOfMarch := parseDate_isDate_iff.1 ((neverMisread_struct rfl).1 h)
  have hrest := (hwhole 44 3 15 bcSuffix ⟨by decide, rfl⟩).1
  exact absurd hrest (by decide)

/-- Without the suffix, the day is one of the year 44. -/
theorem neverMisread_born : NeverMisread noFloats born (dateText (fixed 10 4 44) 3 15) := by
  refine (neverMisread_iff noFloats born (by decide) _).2 (parseDate_isDate_iff.1 fun v hv => ?_)
  obtain rfl : v = ⟨44, 3, 15⟩ := Option.some.inj (hv.symm.trans (by decide))
  have hcalendar : InCalendar 44 3 15 := by
    rw [InCalendar]
    decide
  exact (isDate_iff_of_begins ⟨by decide, (List.append_nil _).symm⟩).2
    ⟨rfl, by decide, hcalendar⟩

end Dbgen4.Psql
