import Dbgen4.Gen.Common

/-!
# Errors in a yaml file

What the generator says about a yaml file that it could not read (`Error` in
`parser/parse_yaml.hpp`). yaml-cpp counts lines and columns from 0, and `load` takes both over as
they are; `Error::to_string` counts from 1. It shows the lines around the one that it takes the
position for (`Error.excerpt`), and marks this one.

* An excerpt has lines of the file only (`exists_of_mem_excerpt`), and it points at a line if, and
  only if, the error has the one-based number of that line (`pointsAt_iff`).
* So it never points at the line of a mark, but at the one before (`not_pointsAtMark`); for a mark
  in the first line there is no excerpt (`shown_firstLine`).
-/

namespace Dbgen4.Gen

/-! ## What is thrown -/

/-- `YAML::Mark`: a position, from 0 on; -1 where there is none. -/
structure Mark where
  line : ℤ
  column : ℤ

/-- `YAML::Exception`. -/
structure YamlException where
  mark : Mark
  msg : String

/-- `dbgen4::gen::Error`. -/
structure Error where
  message : String
  line : ℤ
  column : ℤ
  filename : String

/-- The error that `load` and `load_from_string` return for an exception. -/
def Error.ofException (e : YamlException) (filename : String) : Error where
  message := e.msg
  line := e.mark.line
  column := e.mark.column
  filename := filename

/-! ## What is said -/

/-- A line of an excerpt: its number, its text, and if it is the marked one. -/
structure ExcerptLine where
  number : ℤ
  text : List Char
  marked : Bool
  deriving DecidableEq

/-- `static_cast<int>` of a size. -/
def intOfSize (n : ℕ) : ℤ := (n : ℤ).bmod 4294967296

namespace Error

variable (e : Error)

/-- `cur_idx`. -/
def curIdx : ℤ := e.line - 1

/-- `start`, the first index of the excerpt. -/
def start : ℤ := max 0 (e.curIdx - 3)

/-- `end`, the index after the last one. -/
def stop (lines : List (List Char)) : ℤ := min (intOfSize lines.length) (e.curIdx + 4)

/-- The lines over which the loop of `to_string` goes. -/
def excerpt (lines : List (List Char)) : List ExcerptLine :=
  (List.range (e.stop lines - e.start).toNat).map fun k : ℕ =>
    let i := e.start + (k : ℤ)
    { number := i + 1, text := lines.getD i.toNat [], marked := i = e.curIdx }

end Error

/-- What the loop prints for one line. -/
def ExcerptLine.render (l : ExcerptLine) (width : ℕ) (column : ℤ) : String :=
  let num := toString l.number
  let pad := String.ofList (List.replicate (width - num.length) ' ')
  if l.marked then
    let msgFeed := String.ofList (List.replicate (if 0 < column then (column - 1).toNat else 0) ' ')
    "\x1b[1;37m" ++ pad ++ num ++ " \x1b[1;31m>\x1b[0m " ++ String.ofList l.text ++ "\n" ++
      msgFeed ++ "\x1b[1;31m^ here\x1b[0m\n"
  else "\x1b[2m" ++ pad ++ num ++ "  \x1b[0m " ++ String.ofList l.text ++ "\n"

namespace Error

variable (e : Error)

/-- `Error::to_string`, with the content of the file if it can be opened. -/
def toString (file : Option (List Char)) : String :=
  if e.line ≤ 0 ∨ e.filename.isEmpty then
    "\x1b[1;31mYAML error\x1b[0m" ++ (if e.filename.isEmpty then "" else " in " ++ e.filename) ++
      ":\n  " ++ e.message ++ "\n"
  else
    let lines := (file.map (getlines '\n')).getD []
    let position := ToString.toString e.line ++ ":" ++ ToString.toString e.column
    if lines.isEmpty then
      "\x1b[1;31mYAML error in " ++ e.filename ++ " at " ++ position ++ " :\x1b[0m\n" ++
        e.message ++ "\n"
    else
      let width := (ToString.toString (e.stop lines)).length
      "\x1b[1;31mYAML error in " ++ e.filename ++ " at " ++ position ++ ":\x1b[0m\n " ++
        e.message ++ "\n\n" ++ String.join ((e.excerpt lines).map (·.render width e.column)) ++ "\n"

/-- The lines of the file that `to_string` shows: none, if it does not get to the excerpt. -/
def shown (file : Option (List Char)) : List ExcerptLine :=
  if e.line ≤ 0 ∨ e.filename.isEmpty then [] else e.excerpt ((file.map (getlines '\n')).getD [])

end Error

/-! ## Where it points -/

/-- An excerpt has lines of the file only, and the line with the index `k` is the one that is
    marked, with its one-based number. -/
structure PointsAt (rows : List ExcerptLine) (lines : List (List Char)) (k : ℕ) : Prop where
  exist : ∀ row ∈ rows, ∃ i : ℕ, row.number = i + 1 ∧ lines[i]? = some row.text
  marked : ∃ text, lines[k]? = some text ∧ rows.filter (·.marked) = [⟨k + 1, text, true⟩]

/-- An excerpt points at the line of a mark. -/
def PointsAtMark (mark : Mark) (rows : List ExcerptLine) (lines : List (List Char)) : Prop :=
  ∃ k : ℕ, mark.line = k ∧ PointsAt rows lines k

theorem bmod_le_self (n m : ℕ) : (n : ℤ).bmod m ≤ n := by
  have hmod : (n : ℤ) % m ≤ n := by
    rw [← Int.natCast_mod]
    exact Int.ofNat_le.2 (Nat.mod_le n m)
  rw [Int.bmod_def]
  split_ifs <;> omega

theorem intOfSize_eq {n : ℕ} (h : n < 2 ^ 31) : intOfSize n = n :=
  Int.bmod_eq_of_le (by omega) (by omega)

namespace Error

variable {e : Error} {lines : List (List Char)}

/-- An excerpt is a window of the file. -/
theorem mem_excerpt {row : ExcerptLine} : row ∈ e.excerpt lines ↔
    ∃ i : ℕ, e.start ≤ i ∧ (i : ℤ) < e.stop lines ∧
      row = ⟨i + 1, lines.getD i [], (i : ℤ) = e.curIdx⟩ := by
  have hstart : 0 ≤ e.start := Int.le_max_left 0 _
  simp only [excerpt, List.mem_map, List.mem_range]
  constructor
  · rintro ⟨k, hk, rfl⟩
    refine ⟨(e.start + k).toNat, by omega, by omega, ?_⟩
    rw [Int.toNat_of_nonneg (by omega)]
  · rintro ⟨i, hlo, hhi, rfl⟩
    refine ⟨(i - e.start).toNat, by omega, ?_⟩
    have hi : e.start + ((i - e.start).toNat : ℤ) = i := by omega
    rw [hi, Int.toNat_natCast]

/-- The lines of an excerpt are there in the file. -/
theorem exists_of_mem_excerpt {row : ExcerptLine} (h : row ∈ e.excerpt lines) :
    ∃ i : ℕ, row.number = i + 1 ∧ lines[i]? = some row.text := by
  obtain ⟨i, -, hhi, rfl⟩ := mem_excerpt.1 h
  have hlen : i < lines.length := by
    have hsize : intOfSize lines.length ≤ lines.length := bmod_le_self lines.length _
    rw [stop] at hhi
    omega
  exact ⟨i, rfl, by rw [List.getD_eq_getElem?_getD, List.getElem?_eq_getElem hlen]; rfl⟩

/-- The marked line of an excerpt: the one with the number of the error. -/
theorem filter_marked_excerpt (h : 0 ≤ e.curIdx) :
    (e.excerpt lines).filter (·.marked) =
      if e.curIdx < intOfSize lines.length then
        [⟨e.line, lines.getD e.curIdx.toNat [], true⟩] else [] := by
  have hstart : 0 ≤ e.start ∧ e.start ≤ e.curIdx := by
    rw [start]
    omega
  obtain ⟨m, hm⟩ : ∃ m : ℕ, e.curIdx = e.start + m := ⟨(e.curIdx - e.start).toNat, by omega⟩
  -- Of the indices that the loop goes through, only `m` is that of the marked line.
  have hindex : ∀ k : ℕ, (e.start + (k : ℤ) = e.curIdx) ↔ k = m := fun k => by omega
  have hstop : m < (e.stop lines - e.start).toNat ↔ e.curIdx < intOfSize lines.length := by
    rw [stop]
    omega
  have hfilter : (List.range (e.stop lines - e.start).toNat).filter (fun k => k = m) =
      List.replicate (List.count m (List.range (e.stop lines - e.start).toNat)) m := by
    rw [← List.filter_beq]
    rfl
  rw [excerpt, List.filter_map]
  simp only [Function.comp_def, hindex, hfilter, List.count_range, hstop]
  split_ifs
  · have hline : e.curIdx + 1 = e.line := by
      rw [curIdx]
      omega
    simp only [List.replicate_one, List.map_singleton, ← hm, hline, decide_true]
  · rfl

/-- The error has the number of the line at which it points. -/
theorem line_of_pointsAt {file : Option (List Char)} {k : ℕ} (h : PointsAt (e.shown file) lines k) :
    e.line = k + 1 := by
  obtain ⟨text, -, hmarked⟩ := h.marked
  rw [shown] at hmarked
  split_ifs at hmarked with hbrief
  · cases hmarked
  · have hidx : 0 ≤ e.curIdx := by
      rw [curIdx]
      omega
    rw [filter_marked_excerpt hidx] at hmarked
    split_ifs at hmarked
    exact congrArg ExcerptLine.number (List.singleton_inj.1 hmarked)

/-- An excerpt of a readable file points at the line with the number of the error. -/
theorem pointsAt_of_line {content : List Char} {k : ℕ} (hname : e.filename ≠ "")
    (hsize : (getlines '\n' content).length < 2 ^ 31) (hk : k < (getlines '\n' content).length)
    (hline : e.line = k + 1) : PointsAt (e.shown (some content)) (getlines '\n' content) k := by
  have hidx : e.curIdx = k := by
    rw [curIdx]
    omega
  have hshown : e.shown (some content) = e.excerpt (getlines '\n' content) :=
    if_neg fun hbrief => hbrief.elim (by omega) fun hempty => hname (String.isEmpty_iff.1 hempty)
  have htext : (getlines '\n' content).getD k [] = (getlines '\n' content)[k] :=
    (List.getElem_eq_getD []).symm
  rw [hshown]
  refine ⟨fun row => exists_of_mem_excerpt, _, List.getElem?_eq_getElem hk, ?_⟩
  rw [filter_marked_excerpt (by omega), intOfSize_eq hsize, hidx, if_pos (by omega), hline,
    Int.toNat_natCast, htext]

/-- An excerpt points at a line if, and only if, the error has the one-based number of it. -/
theorem pointsAt_iff {content : List Char} {k : ℕ} (hname : e.filename ≠ "")
    (hsize : (getlines '\n' content).length < 2 ^ 31) :
    PointsAt (e.shown (some content)) (getlines '\n' content) k ↔
      e.line = k + 1 ∧ k < (getlines '\n' content).length := by
  refine ⟨fun h => ⟨line_of_pointsAt h, ?_⟩, fun h => pointsAt_of_line hname hsize h.2 h.1⟩
  obtain ⟨text, htext, -⟩ := h.marked
  exact (List.getElem?_eq_some_iff.1 htext).1

/-- What is shown is in the text, line by line, after what is wrong. -/
theorem toString_of_shown {file : Option (List Char)} (h : e.shown file ≠ []) :
    ∃ header width, e.toString file =
      header ++ String.join ((e.shown file).map (·.render width e.column)) ++ "\n" := by
  by_cases hbrief : e.line ≤ 0 ∨ e.filename.isEmpty
  · exact absurd (if_pos hbrief) h
  have hshown : e.shown file = e.excerpt ((file.map (getlines '\n')).getD []) := if_neg hbrief
  have hlines : ¬ ((file.map (getlines '\n')).getD []).isEmpty := by
    intro hempty
    obtain ⟨row, hrow⟩ := List.exists_mem_of_ne_nil _ h
    rw [hshown, List.isEmpty_iff.1 hempty] at hrow
    obtain ⟨i, -, htext⟩ := exists_of_mem_excerpt hrow
    cases htext
  rw [hshown, toString, if_neg hbrief]
  dsimp only
  rw [if_neg hlines]
  exact ⟨_, _, rfl⟩

/-- **Wrong line.** What is said about an exception never points at the line of its mark, whatever
    the mark and the file. -/
theorem not_pointsAtMark (x : YamlException) (filename : String) (content : List Char) :
    ¬ PointsAtMark x.mark ((ofException x filename).shown (some content))
      (getlines '\n' content) := by
  rintro ⟨k, hmark, hpoints⟩
  have hline : (ofException x filename).line = k + 1 := line_of_pointsAt hpoints
  have hsame : (ofException x filename).line = x.mark.line := rfl
  omega

/-- There is no excerpt for a mark in the first line. -/
theorem shown_firstLine (x : YamlException) (filename : String) (file : Option (List Char))
    (h : x.mark.line = 0) : (ofException x filename).shown file = [] :=
  if_pos (.inl (le_of_eq h))

/-- It is the line before that is marked. -/
theorem pointsAt_line_before (x : YamlException) {filename : String} {content : List Char} {k : ℕ}
    (hname : filename ≠ "") (hsize : (getlines '\n' content).length < 2 ^ 31)
    (hk : k < (getlines '\n' content).length) (hmark : x.mark.line = k + 1) :
    PointsAt ((ofException x filename).shown (some content)) (getlines '\n' content) k :=
  pointsAt_of_line hname hsize hk hmark

/-- There is no token that begins with the `@` in the second line: the first one is marked. -/
theorem not_pointsAtMark_secondLine :
    let x : YamlException := ⟨⟨1, 3⟩, "unknown token"⟩
    let content := "a: 1\nb: @\n".toList
    (ofException x "q.yaml").shown (some content) =
        [⟨1, "a: 1".toList, true⟩, ⟨2, "b: @".toList, false⟩] ∧
      ¬ PointsAtMark x.mark ((ofException x "q.yaml").shown (some content))
        (getlines '\n' content) := by
  intro x content
  have hshown : (ofException x "q.yaml").shown (some content) =
      [⟨1, "a: 1".toList, true⟩, ⟨2, "b: @".toList, false⟩] := by decide
  refine ⟨hshown, ?_⟩
  rw [hshown]
  rintro ⟨k, hk, -, text, -, hmarked⟩
  have hone : (1 : ℤ) = k + 1 := congrArg ExcerptLine.number (List.singleton_inj.1 hmarked)
  have htwo : (1 : ℤ) = k := hk
  omega

end Error

end Dbgen4.Gen
