import Mathlib.Data.List.Forall2
import Dbgen4.Gen.Statement

/-!
# The widths of string columns

A column of strings is as wide as the yaml file says for its name, which is the one that it has
after `push_column_names`; if it says nothing, as the database says; and if that is 0, as
`--max-field-len` says. A width is a `size_t` in the yaml file and on the command line, and becomes
a `uint32_t` in `apply_field_len`, which looks neither whether it is 0 nor whether it fits
(`settled_iff`).
-/

namespace Dbgen4.Gen

open Rtl

namespace DataStatement

variable (s : DataStatement) (fallback : ℕ)

/-- The width that a column of strings is to have. -/
def width (col : MetaDscr) : ℕ :=
  match s.fieldLen.lookup col.name with
  | some len => len
  | none => if col.size ≠ 0 then col.size.toNat else fallback

/-- A column has come out with the width that it is to have, which is one that can be used. -/
structure Usable (col col' : MetaDscr) : Prop where
  width : isString col.type.category = true →
    col'.size.toNat = s.width fallback col ∧ 0 < col'.size.toNat
  other : isString col.type.category = false → col'.size = col.size

/-- All columns have, of the results and of the parameters. -/
structure Settled : Prop where
  results : List.Forall₂ (s.Usable fallback) s.pushColumnNames.results
    (s.pushColumnNames.applyFieldLen fallback).results
  params : List.Forall₂ (s.Usable fallback) s.pushColumnNames.params
    (s.pushColumnNames.applyFieldLen fallback).params

/-- What is said of the width of a column of strings is not 0, and fits 32 bits. -/
def WidthFits (col : MetaDscr) : Prop :=
  isString col.type.category = true →
    match s.fieldLen.lookup col.name with
    | some len => 0 < len ∧ len < 2 ^ 32
    | none => col.size = 0 → fallback < 2 ^ 32

variable {s fallback}

/-- A length is cut to 32 bits: what comes out is the length, and not 0. -/
theorem toNat_ofNat_eq_iff {len : ℕ} :
    (UInt32.ofNat len).toNat = len ∧ 0 < (UInt32.ofNat len).toNat ↔ 0 < len ∧ len < 2 ^ 32 := by
  rw [UInt32.toNat_ofNat']
  constructor
  · rintro ⟨hlen, hpos⟩
    rw [hlen] at hpos
    exact ⟨hpos, hlen ▸ Nat.mod_lt len (Nat.two_pow_pos 32)⟩
  · rintro ⟨hpos, hlt⟩
    rw [Nat.mod_eq_of_lt hlt]
    exact ⟨rfl, hpos⟩

/-- A column of something else stays as it is. -/
theorem usable_settle_of_other {col : MetaDscr} (h : isString col.type.category = false) :
    s.Usable fallback col (s.settle fallback col) := by
  refine ⟨fun hstr => absurd (h.symm.trans hstr) Bool.false_ne_true, fun _ => ?_⟩
  rw [settle, h]
  split <;> rfl

/-- One column. -/
theorem usable_settle_iff (hpos : 0 < fallback) {col : MetaDscr} :
    s.Usable fallback col (s.settle fallback col) ↔ s.WidthFits fallback col := by
  cases hstr : isString col.type.category with
  | false =>
    exact iff_of_true (usable_settle_of_other hstr) fun h =>
      absurd (hstr.symm.trans h) Bool.false_ne_true
  | true =>
    have husable (col' : MetaDscr) : s.Usable fallback col col' ↔
        col'.size.toNat = s.width fallback col ∧ 0 < col'.size.toNat :=
      ⟨fun h => h.width hstr, fun h =>
        ⟨fun _ => h, fun hother => absurd (hother.symm.trans hstr) Bool.false_ne_true⟩⟩
    rw [husable, WidthFits, forall_prop_of_true hstr, settle, width, hstr]
    cases s.fieldLen.lookup col.name with
    | some len => exact toNat_ofNat_eq_iff
    | none =>
      dsimp only
      by_cases hsize : col.size = 0
      · rw [if_pos ⟨rfl, hsize⟩, if_neg (not_not.2 hsize), forall_prop_of_true hsize]
        exact toNat_ofNat_eq_iff.trans (and_iff_right hpos)
      · rw [if_neg fun h => hsize h.2, if_pos hsize]
        have hne : col.size.toNat ≠ 0 := fun h => hsize (UInt32.toNat_inj.1 h)
        exact iff_of_true ⟨rfl, Nat.pos_of_ne_zero hne⟩ fun h => absurd h hsize

theorem forall₂_settle_iff (hpos : 0 < fallback) {cols : List MetaDscr} :
    List.Forall₂ (s.Usable fallback) cols (cols.map (s.settle fallback)) ↔
      ∀ col ∈ cols, s.WidthFits fallback col := by
  rw [List.forall₂_map_right_iff, List.forall₂_same]
  exact forall₂_congr fun col _ => usable_settle_iff hpos

/-- **Usable widths.** With a fallback that is not 0, all columns of strings come out as wide as
    they are to be, and all others as they were, just if what is said of the widths of the former
    is not 0 and fits 32 bits. -/
theorem settled_iff (hpos : 0 < fallback) : s.Settled fallback ↔
    ∀ col ∈ s.pushColumnNames.results ++ s.pushColumnNames.params, s.WidthFits fallback col := by
  rw [List.forall_mem_append, ← forall₂_settle_iff hpos, ← forall₂_settle_iff hpos]
  exact ⟨fun h => ⟨h.results, h.params⟩, fun h => ⟨h.1, h.2⟩⟩

end DataStatement

/-! ## A width of 0 -/

/-- A text column, for which the yaml file says 0. -/
def emptyNote : DataStatement where
  id := "notes"
  sql := "select note from notes"
  results := [⟨1, "note", .longVarChar, 25, 0, 0, 1⟩]
  fieldLen := [("note", 0)]

theorem not_settled_emptyNote : ¬emptyNote.Settled 4096 := by
  intro h
  obtain ⟨hnote, -⟩ := List.forall₂_cons.1 h.results
  exact absurd (hnote.width rfl).2 (by decide)

/-- With a width of 80, and a column of the same type that the yaml file does not name. -/
def wideNote : DataStatement where
  id := "notes"
  sql := "select note, author from notes"
  results := [⟨1, "note", .longVarChar, 25, 0, 0, 1⟩, ⟨2, "author", .longVarChar, 25, 0, 0, 1⟩]
  fieldLen := [("note", 80)]

/-- Both come out usable, the second one as wide as the fallback. -/
theorem settled_wideNote : wideNote.Settled 4096 := by
  refine (DataStatement.settled_iff (by decide)).2 ?_
  have hcols : wideNote.pushColumnNames.results ++ wideNote.pushColumnNames.params =
      wideNote.results := by decide
  rw [hcols]
  intro col hcol _
  simp only [wideNote, List.mem_cons, List.not_mem_nil, or_false] at hcol
  rcases hcol with rfl | rfl
  · show 0 < 80 ∧ 80 < 2 ^ 32
    decide
  · show _ → 4096 < 2 ^ 32
    decide

end Dbgen4.Gen
