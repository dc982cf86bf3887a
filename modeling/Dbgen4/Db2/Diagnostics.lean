import Dbgen4.Db2.Connection

/-!
# Texts and names that the driver reports

Messages of diagnostic records and names of columns come in arrays of the caller, with the
length that the driver reports. Of a text that it had to cut off, that is the length of all of
it. Three places take the reported length for the number of bytes to copy: `chk_error`, which logs
the records of a failed call one after the other, the constructor of `odbc_error`, and
`get_sql_metadata`, for the names of the columns. They stay in their arrays just as long as no
length exceeds the array (`readsInside_iff`); then they do what they are modelled to do
elsewhere, on the texts (`odbcErrorBytes_eq`, `describeColumns_eq`).
-/

namespace Dbgen4.Db2

open Rtl

/-! ## Arrays and lengths -/

/-- A `std::string` of the first `len` bytes of an array; none when that leaves the array. -/
def readText {n : ℕ} (a : Vector UInt8 n) (len : ℤ) : Option (List UInt8) :=
  if 0 ≤ len ∧ len ≤ n then some (a.toList.take len.toNat) else none

/-- The bytes of a string. -/
def ofBytes (bytes : List UInt8) : String := String.ofList (bytes.map fun b => Char.ofNat b.toNat)

/-- What `SQLGetDiagRec` leaves in its caller's arrays, the one for the message of `n` bytes. -/
structure DiagRec (n : ℕ) where
  sqlState : Vector UInt8 6
  nativeError : Int32
  text : Vector UInt8 n
  length : Int16

/-- What `SQLDescribeCol` leaves; the name is in an array. -/
structure ColumnAnswer where
  name : Vector UInt8 129
  nameLen : Int16
  attr : OdbcAttribute

/-- What the driver answers: to the calls of `chk_error`, by their number, to the one of the
    constructor of `odbc_error`, whose array has `SQL_MAX_MESSAGE_LENGTH` bytes, and to those of
    `get_sql_metadata`, by the number of the column. -/
structure Answers (sqlMaxMessageLength : ℕ) where
  diag : ℕ → SqlReturn × DiagRec 1025
  record : SqlReturn × DiagRec sqlMaxMessageLength
  numColumns : ℕ
  column : ℕ → SqlReturn × ColumnAnswer

/-! ## The three places -/

/-- The loop of `chk_error`: what it has logged after up to `fuel` records, the message and the
    native error of each. The answers of the driver are by the number of the call. -/
def chkErrorLoop (diag : ℕ → SqlReturn × DiagRec 1025) (call : ℕ) :
    ℕ → Option (List (List UInt8 × Int32))
  | 0 => some []
  | fuel + 1 =>
    if succeeded (diag call).1 then do
      let message ← readText (diag call).2.text (diag call).2.length.toInt
      let rest ← chkErrorLoop diag (call + 1) fuel
      return (message, (diag call).2.nativeError) :: rest
    else some []

/-- `chk_error`. -/
def chkError (ret : SqlReturn) (diag : ℕ → SqlReturn × DiagRec 1025) (fuel : ℕ) :
    Option (List (List UInt8 × Int32)) :=
  if succeeded ret then some [] else chkErrorLoop diag 0 fuel

/-- `sqlchar_to_utf8`. -/
def sqlcharToUtf8 {n : ℕ} (src : Vector UInt8 n) (len : ℕ) : Option (List UInt8) :=
  if len = 0 then some [] else readText src len

/-- The constructor of `odbc_error`; the length becomes a `size_t`. -/
def odbcErrorBytes {n : ℕ} (ret dr : SqlReturn) (rec : DiagRec n) : Option OdbcError :=
  if succeeded dr then do
    let state ← readText rec.sqlState 5
    let message ← sqlcharToUtf8 rec.text (rec.length.toInt % 2 ^ 64).toNat
    return ⟨ret, ofBytes message, ofBytes state, rec.nativeError⟩
  else some (odbcError ret none)

/-- The loop of `get_sql_metadata` over the columns: `n` of them from the `i`th on. -/
def describeColumns (describe : ℕ → SqlReturn × ColumnAnswer) (i : ℕ) :
    ℕ → Option (Except DbSts (List MetaDscr))
  | 0 => some (.ok [])
  | n + 1 =>
    if succeeded (describe i).1 then do
      let name ← readText (describe i).2.name (describe i).2.nameLen.toInt
      let rest ← describeColumns describe (i + 1) n
      return rest.map (columnDscr i { (describe i).2.attr with name := ofBytes name } :: ·)
    else some (.error .invalidSql)

/-! ## Reads -/

/-- A length that is one of an array of `n` bytes. -/
def LengthFits (len : Int16) (n : ℕ) : Prop := 0 ≤ len.toInt ∧ len.toInt ≤ n

theorem readText_isSome_iff {n : ℕ} {a : Vector UInt8 n} {len : ℤ} :
    (readText a len).isSome ↔ 0 ≤ len ∧ len ≤ n := by
  rw [readText]
  split
  · rename_i h
    exact iff_of_true rfl h
  · rename_i h
    exact iff_of_false Bool.false_ne_true h

/-- The turns of a loop that stops at the first call which fails: each is as `p` says. -/
def WhileSucceeded (ret : ℕ → SqlReturn) (p : ℕ → Prop) (i : ℕ) : ℕ → Prop
  | 0 => True
  | n + 1 => succeeded (ret i) → p i ∧ WhileSucceeded ret p (i + 1) n

/-- Turn by turn: a turn is taken if all calls up to it succeed. -/
theorem whileSucceeded_iff {ret : ℕ → SqlReturn} {p : ℕ → Prop} {i n : ℕ} :
    WhileSucceeded ret p i n ↔ ∀ k < n, (∀ j ≤ k, succeeded (ret (i + j))) → p (i + k) := by
  induction n generalizing i with
  | zero => exact iff_of_true trivial fun k hk => absurd hk (Nat.not_lt_zero k)
  | succ n ih =>
    rw [WhileSucceeded, ih]
    constructor
    · intro h k hk hret
      obtain ⟨hp, hrest⟩ := h (hret 0 (Nat.zero_le k))
      cases k with
      | zero => exact hp
      | succ k =>
        rw [Nat.add_comm k, ← Nat.add_assoc]
        refine hrest k (Nat.lt_of_succ_lt_succ hk) fun j hj => ?_
        rw [Nat.add_assoc, Nat.add_comm 1]
        exact hret (j + 1) (Nat.succ_le_succ hj)
    · intro h hi
      refine ⟨h 0 (Nat.succ_pos n) fun j hj => ?_, fun k hk hret => ?_⟩
      · rwa [Nat.le_zero.1 hj]
      · rw [Nat.add_assoc, Nat.add_comm 1]
        refine h (k + 1) (Nat.succ_lt_succ hk) fun j hj => ?_
        cases j with
        | zero => exact hi
        | succ j =>
          rw [Nat.add_comm j, ← Nat.add_assoc]
          exact hret j (Nat.le_of_succ_le_succ hj)

/-- The reads of a sequence are those of its parts. -/
theorem isSome_bind_iff {α β : Type} {o : Option α} {f : α → Option β} {q : Prop}
    (h : ∀ a, (f a).isSome ↔ q) : (o.bind f).isSome ↔ o.isSome ∧ q := by
  cases o with
  | none => exact iff_of_false Bool.false_ne_true fun h => Bool.false_ne_true h.1
  | some a =>
    rw [Option.bind_some, h a, Option.isSome_some, eq_self_iff_true, true_and]

theorem isSome_bind_pure_iff {α β : Type} {o : Option α} {f : α → β} :
    (o.bind fun a => some (f a)).isSome ↔ o.isSome := by
  rw [isSome_bind_iff fun _ => iff_of_true rfl trivial, and_true]

theorem chkErrorLoop_isSome_iff {diag : ℕ → SqlReturn × DiagRec 1025} {call fuel : ℕ} :
    (chkErrorLoop diag call fuel).isSome ↔ WhileSucceeded (fun k => (diag k).1)
      (fun k => LengthFits (diag k).2.length 1025) call fuel := by
  induction fuel generalizing call with
  | zero => exact iff_of_true rfl trivial
  | succ fuel ih =>
    rw [chkErrorLoop, WhileSucceeded, ← ih]
    split
    · rename_i hret
      rw [forall_prop_of_true hret, LengthFits, ← readText_isSome_iff (a := (diag call).2.text)]
      exact isSome_bind_iff fun message => isSome_bind_pure_iff
    · rename_i hret
      exact iff_of_true rfl fun h => absurd h hret

theorem describeColumns_isSome_iff (describe : ℕ → SqlReturn × ColumnAnswer) (i n : ℕ) :
    (describeColumns describe i n).isSome ↔ WhileSucceeded (fun k => (describe k).1)
      (fun k => LengthFits (describe k).2.nameLen 129) i n := by
  induction n generalizing i with
  | zero => exact iff_of_true rfl trivial
  | succ n ih =>
    rw [describeColumns, WhileSucceeded, ← ih]
    split
    · rename_i hret
      rw [forall_prop_of_true hret, LengthFits, ← readText_isSome_iff (a := (describe i).2.name)]
      exact isSome_bind_iff fun name => isSome_bind_pure_iff
    · rename_i hret
      exact iff_of_true rfl fun h => absurd h hret

/-- A length less than zero becomes a `size_t` that no array has. -/
theorem toNat_emod_le_iff {len : Int16} {n : ℕ} (hn : n < 2 ^ 15) :
    (len.toInt % 2 ^ 64).toNat ≤ n ↔ LengthFits len n := by
  have hle := len.le_toInt
  have hlt := len.toInt_lt
  rw [LengthFits]
  by_cases hneg : len.toInt < 0
  · rw [← Int.add_emod_right, Int.emod_eq_of_lt (by omega) (by omega)]
    omega
  · rw [Int.emod_eq_of_lt (Int.not_lt.1 hneg) (by omega)]
    omega

theorem sqlcharToUtf8_isSome_iff {n : ℕ} (src : Vector UInt8 n) {len : ℕ} :
    (sqlcharToUtf8 src len).isSome ↔ len ≤ n := by
  rw [sqlcharToUtf8]
  split
  · rename_i h
    exact iff_of_true rfl (h ▸ Nat.zero_le n)
  · rw [readText_isSome_iff, and_iff_right (Int.natCast_nonneg len), Int.ofNat_le]

theorem odbcErrorBytes_isSome_iff {n : ℕ} (hn : n < 2 ^ 15) (ret : SqlReturn) {dr : SqlReturn}
    {rec : DiagRec n} :
    (odbcErrorBytes ret dr rec).isSome ↔ (succeeded dr → LengthFits rec.length n) := by
  rw [odbcErrorBytes, ← toNat_emod_le_iff hn, ← sqlcharToUtf8_isSome_iff rec.text]
  split
  · rename_i hret
    rw [forall_prop_of_true hret]
    refine (isSome_bind_iff fun state => isSome_bind_pure_iff).trans (and_iff_right ?_)
    exact readText_isSome_iff.2 (by decide)
  · rename_i hret
    exact iff_of_true rfl fun h => absurd h hret

/-! ## Where they stay inside -/

/-- All three read only bytes of their arrays, however long `chk_error` goes on. -/
structure Answers.ReadInside {n : ℕ} (a : Answers n) : Prop where
  chkError : ∀ ret fuel, (chkError ret a.diag fuel).isSome
  odbcError : ∀ ret, (odbcErrorBytes ret a.record.1 a.record.2).isSome
  getSqlMetadata : (describeColumns a.column 1 a.numColumns).isSome

/-- No call that is taken for a success reports a length beyond the array that it got. -/
structure Answers.LengthsFit {n : ℕ} (a : Answers n) : Prop where
  diag : ∀ k, (∀ j ≤ k, succeeded (a.diag j).1) → LengthFits (a.diag k).2.length 1025
  record : succeeded a.record.1 → LengthFits a.record.2.length n
  column : ∀ k < a.numColumns, (∀ j ≤ k, succeeded (a.column (1 + j)).1) →
    LengthFits (a.column (1 + k)).2.nameLen 129

theorem chkError_isSome_iff {diag : ℕ → SqlReturn × DiagRec 1025} :
    (∀ ret fuel, (chkError ret diag fuel).isSome) ↔
      ∀ k, (∀ j ≤ k, succeeded (diag j).1) → LengthFits (diag k).2.length 1025 := by
  have hloop : ∀ fuel, (chkErrorLoop diag 0 fuel).isSome ↔
      ∀ k < fuel, (∀ j ≤ k, succeeded (diag j).1) → LengthFits (diag k).2.length 1025 := by
    intro fuel
    rw [chkErrorLoop_isSome_iff, whileSucceeded_iff]
    simp only [Nat.zero_add]
  constructor
  · intro h k
    exact (hloop (k + 1)).1 (h sqlError (k + 1)) k (Nat.lt_succ_self k)
  · intro h ret fuel
    rw [chkError]
    split
    · rfl
    · exact (hloop fuel).2 fun k _ => h k

/-- **Reported lengths.** All that is read of a message or of a name is inside its array just if
    each length is one of the array, which that of a text that was cut off is not. -/
theorem readInside_iff {sqlMaxMessageLength : ℕ} (hn : sqlMaxMessageLength < 2 ^ 15)
    (a : Answers sqlMaxMessageLength) : a.ReadInside ↔ a.LengthsFit := by
  have hcolumn := (describeColumns_isSome_iff a.column 1 a.numColumns).trans whileSucceeded_iff
  constructor
  · intro h
    exact ⟨chkError_isSome_iff.1 h.chkError,
      (odbcErrorBytes_isSome_iff hn sqlError).1 (h.odbcError sqlError),
      hcolumn.1 h.getSqlMetadata⟩
  · intro h
    exact ⟨chkError_isSome_iff.2 h.diag, fun ret => (odbcErrorBytes_isSome_iff hn ret).2 h.record,
      hcolumn.2 h.column⟩

/-! ## What is read there -/

/-- The record, as texts. -/
def DiagRec.toDiag {n : ℕ} (rec : DiagRec n) : Diag where
  sqlState := ofBytes (rec.sqlState.toList.take 5)
  message := ofBytes (rec.text.toList.take rec.length.toInt.toNat)
  nativeError := rec.nativeError

/-- The column, with its name as a text. -/
def ColumnAnswer.attribute (c : ColumnAnswer) : OdbcAttribute :=
  { c.attr with name := ofBytes (c.name.toList.take c.nameLen.toInt.toNat) }

theorem eq_of_readText {n : ℕ} {a : Vector UInt8 n} {len : ℤ} {bytes : List UInt8}
    (h : readText a len = some bytes) : bytes = a.toList.take len.toNat := by
  rw [readText] at h
  split at h
  · exact (Option.some.inj h).symm
  · cases h

theorem eq_of_sqlcharToUtf8 {n : ℕ} {src : Vector UInt8 n} {len : ℕ} {bytes : List UInt8}
    (h : sqlcharToUtf8 src len = some bytes) : bytes = src.toList.take len := by
  rw [sqlcharToUtf8] at h
  split at h
  · rename_i hlen
    rw [hlen, List.take_zero]
    exact (Option.some.inj h).symm
  · exact eq_of_readText h

/-- Inside its arrays, the constructor makes the error that the texts of the record give. -/
theorem odbcErrorBytes_eq {n : ℕ} {ret dr : SqlReturn} {rec : DiagRec n}
    (hrec : 0 ≤ rec.length.toInt) {e : OdbcError} (h : odbcErrorBytes ret dr rec = some e) :
    e = odbcError ret (if succeeded dr then some rec.toDiag else none) := by
  rw [odbcErrorBytes] at h
  split at h
  · rename_i hret
    obtain ⟨state, hstate, h⟩ := Option.bind_eq_some_iff.1 h
    obtain ⟨message, hmessage, h⟩ := Option.bind_eq_some_iff.1 h
    rw [if_pos hret, ← Option.some.inj h, eq_of_readText hstate, eq_of_sqlcharToUtf8 hmessage,
      Int.emod_eq_of_lt hrec (Int.lt_trans rec.length.toInt_lt (by decide))]
    rfl
  · rename_i hret
    rw [if_neg hret]
    exact (Option.some.inj h).symm

/-- Inside its arrays, `get_sql_metadata` describes the columns that have the names as texts. -/
theorem describeColumns_eq {describe : ℕ → SqlReturn × ColumnAnswer} {i n : ℕ}
    {r : Except DbSts (List MetaDscr)} (h : describeColumns describe i n = some r) :
    r = describeLoop (fun k => ((describe k).1, (describe k).2.attribute)) columnDscr i n := by
  induction n generalizing i r with
  | zero => exact (Option.some.inj h).symm
  | succ n ih =>
    rw [describeColumns] at h
    rw [describeLoop]
    split at h
    · rename_i hret
      obtain ⟨name, hname, h⟩ := Option.bind_eq_some_iff.1 h
      obtain ⟨rest, hrest, h⟩ := Option.bind_eq_some_iff.1 h
      rw [if_pos hret, ← ih hrest, ← Option.some.inj h, eq_of_readText hname]
      rfl
    · rename_i hret
      rw [if_neg hret]
      exact (Option.some.inj h).symm

/-! ## A message of 2000 bytes -/

/-- `SQL_SUCCESS_WITH_INFO`. -/
def sqlSuccessWithInfo : SqlReturn := 1

/-- A message that is longer than the array, as the driver reports it: what fits of it, and the
    length of all. -/
def longMessage : DiagRec 1025 where
  sqlState := .ofFn fun _ => 48
  nativeError := -99999
  text := .ofFn fun k => if k.val < 1024 then 120 else 0
  length := 2000

/-- The driver has one record, with that message, which it cuts off, and no column. -/
def longAnswers : Answers 1024 where
  diag k := if k = 0 then (sqlSuccessWithInfo, longMessage) else (noData, longMessage)
  record := (noData, ⟨.ofFn fun _ => 48, 0, .ofFn fun _ => 0, 0⟩)
  numColumns := 0
  column _ := (noData, ⟨.ofFn fun _ => 0, 0, "", 4, 0, 0, 0⟩)

/-- `chk_error` reads beyond its array. -/
theorem not_readInside_longAnswers : ¬longAnswers.ReadInside := by
  intro h
  have hone := chkErrorLoop_isSome_iff.1 (h.chkError sqlError 1)
  exact absurd (hone (by decide)).1.2 (by decide)

/-- The same with a message of 1024 bytes, which fills the array up to the terminator, and with a
    column whose name is one byte long. -/
def fullAnswers : Answers 1024 where
  diag k := if k = 0 then (sqlSuccessWithInfo, { longMessage with length := 1024 })
    else (noData, longMessage)
  record := longAnswers.record
  numColumns := 1
  column _ := (0, ⟨.ofFn fun _ => 120, 1, "", 4, 0, 0, 0⟩)

theorem readInside_fullAnswers : fullAnswers.ReadInside := by
  refine (readInside_iff (by decide) fullAnswers).2 ⟨fun k hk => ?_, fun h => ?_, fun _ _ _ => ?_⟩
  · cases k with
    | zero => exact ⟨by decide, by decide⟩
    | succ k => exact absurd (hk (k + 1) (Nat.le_refl _)) Bool.false_ne_true
  · exact absurd h Bool.false_ne_true
  · show LengthFits 1 129
    exact ⟨by decide, by decide⟩

end Dbgen4.Db2
