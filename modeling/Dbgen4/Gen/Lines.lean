import Dbgen4.Gen.Header

/-!
# Lines of a text

The texts that go into a comment are split at their newlines, and every line is put back with a
prefix (`prefix_split` and `join` in `common/common.cpp`). Reading with `std::getline` drops an
empty segment at the end (`splitOn_eq_getlines`), but a trimmed text has none: so all its lines are
there, in order, and taking the prefixes off again gives the text back
(`join_prefixSplit_roundTrip`).
-/

namespace Dbgen4.Gen

/-- `offset_text`: a single line as it is, several with spaces in front of each. -/
def offsetText (text : List Char) (offs : ℕ) : List Char :=
  let sqlView := trimWhitespaceView text
  if '\n' ∈ sqlView then
    '\n' :: join (prefixSplit sqlView '\n' (List.replicate offs ' ')) ['\n']
  else sqlView

/-- `prefix_text`. -/
def prefixText (text : List Char) (offs : ℕ) : List Char :=
  join (prefixSplit (trimWhitespaceView text) '\n' (List.replicate offs ' ')) ['\n']

/-! ## Splitting and joining -/

/-- Cutting the last delimiter off again leaves the delimiters between the parts. -/
theorem join_eq_intercalate (o : List (List Char)) (delim : List Char) :
    join o delim = delim.intercalate o := by
  cases o with
  | nil => rfl
  | cons a o =>
    rw [join_cons]
    induction o generalizing a with
    | nil => simp
    | cons b o ih => rw [List.intercalate_cons_cons, ← ih b, List.flatMap_cons]; simp

/-- What `std::getline` reads, and what it drops: an empty segment at the end. -/
theorem splitOn_eq_getlines (delimiter : Char) (l : List Char) :
    l.splitOn delimiter = getlines delimiter l ++
      if l = [] ∨ l.getLast? = some delimiter then [[]] else [] := by
  induction l with
  | nil => rfl
  | cons c cs ih =>
    rw [List.splitOn_cons_eq_if_modifyHead, ih, getlines]
    by_cases hc : c = delimiter
    · cases cs <;> simp [hc, getlines]
    · rw [if_neg (by simpa using hc), if_neg hc]
      cases hcs : getlines delimiter cs with
      | nil =>
        rw [getlines_eq_nil] at hcs
        simp [hcs, hc]
      | cons line lines =>
        have hne : cs ≠ [] := fun h => by simp [h, getlines] at hcs
        simp [hne, List.getLast?_cons_of_ne_nil]

/-! ## Trimmed texts -/

/-- A trimmed text does not end with a newline. -/
theorem getLast?_trimWhitespaceView (t : List Char) :
    (trimWhitespaceView t).getLast? ≠ some '\n' := by
  intro h
  have hne : trimWhitespaceView t ≠ [] := fun hnil => by simp [hnil] at h
  rw [List.getLast?_eq_some_getLast hne, Option.some_inj] at h
  have hlast : ¬ isSpace ((trimWhitespaceView t).getLast hne) :=
    List.rdropWhile_last_not isSpace (t.dropWhile isSpace) hne
  rw [h] at hlast
  exact hlast (by decide)

/-- Nothing of a trimmed text is dropped: its lines are what is read. -/
theorem getlines_trimWhitespaceView {t : List Char} (h : trimWhitespaceView t ≠ []) :
    getlines '\n' (trimWhitespaceView t) = (trimWhitespaceView t).splitOn '\n' := by
  rw [splitOn_eq_getlines, if_neg, List.append_nil]
  exact not_or.2 ⟨h, getLast?_trimWhitespaceView t⟩

/-- The lines of a text have no newline in them. -/
theorem notMem_of_mem_splitOn {l line : List Char} {delimiter : Char}
    (h : line ∈ l.splitOn delimiter) : delimiter ∉ line := by
  induction l generalizing line with
  | nil =>
    rw [List.splitOn_nil, List.mem_singleton] at h
    rw [h]
    exact List.not_mem_nil
  | cons c cs ih =>
    rw [List.splitOn_cons_eq_if_modifyHead] at h
    by_cases hc : c = delimiter
    · rw [if_pos (by simpa using hc)] at h
      rcases List.mem_cons.1 h with rfl | hcs
      · exact List.not_mem_nil
      · exact ih hcs
    · rw [if_neg (by simpa using hc)] at h
      cases hcs : cs.splitOn delimiter with
      | nil => exact absurd hcs (List.splitOn_ne_nil delimiter cs)
      | cons first lines =>
        rw [hcs, List.modifyHead_cons] at h
        rw [hcs] at ih
        rcases List.mem_cons.1 h with rfl | hlines
        · exact List.not_mem_cons_of_ne_of_not_mem (Ne.symm hc) (ih List.mem_cons_self)
        · exact ih (List.mem_cons_of_mem first hlines)

/-- Every line of a trimmed text, with its prefix. -/
theorem splitOn_join_prefixSplit {t p : List Char} (hp : '\n' ∉ p) (h : trimWhitespaceView t ≠ []) :
    (join (prefixSplit (trimWhitespaceView t) '\n' p) ['\n']).splitOn '\n' =
      ((trimWhitespaceView t).splitOn '\n').map (p ++ ·) := by
  rw [join_eq_intercalate, prefixSplit, getlines_trimWhitespaceView h]
  refine List.splitOn_intercalate '\n' ?_ ?_
  · intro line hline
    obtain ⟨line', hmem, rfl⟩ := List.mem_map.1 hline
    exact fun hn => (List.mem_append.1 hn).elim hp (notMem_of_mem_splitOn hmem)
  · exact fun hnil => List.splitOn_ne_nil '\n' (trimWhitespaceView t) (List.map_eq_nil_iff.1 hnil)

/-- **Lines keep their text.** A prefix without a newline goes in front of the lines of a trimmed
    text, of every line once, and without it the lines are the text again. -/
theorem join_prefixSplit_roundTrip (t p : List Char) (hp : '\n' ∉ p) :
    (trimWhitespaceView t ≠ [] →
      (join (prefixSplit (trimWhitespaceView t) '\n' p) ['\n']).splitOn '\n' =
          ((trimWhitespaceView t).splitOn '\n').map (p ++ ·) ∧
        join (((join (prefixSplit (trimWhitespaceView t) '\n' p) ['\n']).splitOn '\n').map
          (List.drop p.length)) ['\n'] = trimWhitespaceView t) ∧
    (trimWhitespaceView t = [] → join (prefixSplit (trimWhitespaceView t) '\n' p) ['\n'] = []) := by
  constructor
  · intro ht
    have hlines := splitOn_join_prefixSplit hp ht
    have hdrop (l : List (List Char)) : (l.map (p ++ ·)).map (List.drop p.length) = l := by
      rw [List.map_map]
      exact List.map_id'' (fun line => List.drop_left) l
    refine ⟨hlines, ?_⟩
    rw [hlines, hdrop, join_eq_intercalate, List.intercalate_splitOn]
  · intro ht
    rw [ht]
    rfl

/-- An empty line in the middle is a line too. -/
theorem join_prefixSplit_emptyLine :
    (join (prefixSplit (trimWhitespaceView " a\n\nb\n ".toList) '\n' "* ".toList)
        ['\n']).splitOn '\n' =
      ((trimWhitespaceView " a\n\nb\n ".toList).splitOn '\n').map ("* ".toList ++ ·) :=
  ((join_prefixSplit_roundTrip " a\n\nb\n ".toList "* ".toList (by decide)).1 (by decide)).1

/-- The comment of a statement shows every line of the SQL that is executed. -/
theorem DataStatement.splitOn_jsonSql {stmt : DataStatement} (h : stmt.jsonSqlLiteral ≠ []) :
    stmt.jsonSql.splitOn '\n' =
      (stmt.jsonSqlLiteral.splitOn '\n').map ("     *   ".toList ++ ·) :=
  splitOn_join_prefixSplit (by decide) h

/-! ## Offsets -/

theorem newline_notMem_spaces (offs : ℕ) : '\n' ∉ List.replicate offs ' ' := fun h =>
  absurd (List.eq_of_mem_replicate h) (by decide)

/-- The lines of a text with an offset: one stays where it is, several go below each other. -/
theorem splitOn_offsetText (text : List Char) (offs : ℕ) :
    (offsetText text offs).splitOn '\n' =
      if '\n' ∈ trimWhitespaceView text then
        [] :: ((trimWhitespaceView text).splitOn '\n').map (List.replicate offs ' ' ++ ·)
      else [trimWhitespaceView text] := by
  rw [offsetText]
  split_ifs with h
  · rw [List.splitOn_cons_eq_if_modifyHead, if_pos (by simp),
      splitOn_join_prefixSplit (newline_notMem_spaces offs) (List.ne_nil_of_mem h)]
  · exact List.splitOn_eq_singleton h

/-- The lines of a text that is not blank, all with the same offset. -/
theorem splitOn_prefixText {text : List Char} (offs : ℕ) (h : trimWhitespaceView text ≠ []) :
    (prefixText text offs).splitOn '\n' =
      ((trimWhitespaceView text).splitOn '\n').map (List.replicate offs ' ' ++ ·) :=
  splitOn_join_prefixSplit (newline_notMem_spaces offs) h

end Dbgen4.Gen
