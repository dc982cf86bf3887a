import Dbgen4.CppText
import Dbgen4.Gen.Common
import Dbgen4.Gen.Parser

/-!
# The texts of the generated header

The texts of a yaml file that the generated header repeats: its comments have the summary and
the description of the file, the summary, the description and the SQL of every statement, and
`sql_` is a raw string with the SQL again (`internal_model_to_json` in `gen/generator.cpp`, and
`config/main_hpp.jinja`). Nothing is escaped. `texts_survive_iff` says when the comments end
where the template ends them and the raw string is the SQL.
-/

namespace Dbgen4.Gen

open Cpp

/-! ## What is copied -/

/-- The lines of a text, trimmed and each with a prefix. -/
def prefixed (text : String) (pre : List Char) : List Char :=
  join (prefixSplit (trimWhitespaceView text.toList) '\n' pre) ['\n']

/-- `description` of the model for the templates. -/
def DataStatements.jsonDescription (s : DataStatements) : List Char :=
  prefixed s.description " *   ".toList

namespace DataStatement

variable (stmt : DataStatement)

/-- `sql` of a statement. -/
def jsonSql : List Char := prefixed stmt.sql "     *   ".toList

/-- `dscr` of a statement. -/
def jsonDscr : List Char := if stmt.dscr.isEmpty then [] else prefixed stmt.dscr "   * ".toList

/-- `sql-literal` of a statement. -/
def jsonSqlLiteral : List Char := trimWhitespaceView stmt.sql.toList

/-! ## The template -/

/-- What `@brief` says of a statement. -/
def brief : List Char :=
  if stmt.summary.isEmpty then "sql statement ".toList ++ stmt.id.toList else stmt.summary.toList

/-- The comment before the namespace of a statement. -/
def statementComment : List Char :=
  comment ("*\n   * @brief ".toList ++ stmt.brief ++
    ((if stmt.jsonDscr.isEmpty then [] else "\n   *\n".toList ++ stmt.jsonDscr) ++ "\n   ".toList))

/-- The comment before the class `qry`. -/
def queryComment : List Char :=
  comment ("*\n     * perform operations with the database\n     *\n".toList ++
    "     * The statement, as it goes to the server:\n     * @code\n".toList ++ stmt.jsonSql ++
    "\n     * @endcode\n     ".toList)

/-- What `sql_` is initialised with. -/
def sqlLiteral : List Char := rawLiteral "SQL".toList stmt.jsonSqlLiteral

end DataStatement

/-- The comment at the beginning of the header. -/
def DataStatements.fileComment (s : DataStatements) : List Char :=
  comment ("*\n * @brief ".toList ++ s.summary.toList ++
    ("\n *\n".toList ++ s.jsonDescription ++ "\n *\n * version: 0.1.0\n ".toList))

/-! ## What ought to come of it -/

/-- The comment ends at its own end, whatever follows it in the header. -/
def EndsItself (c : List Char) : Prop := ∀ rest, skipComment (c ++ rest) = some rest

/-- The texts of a statement as it was read, in what is generated from the statement that was
    made of it. -/
structure DataStatement.Survives (stmt generated : DataStatement) : Prop where
  sql : ∀ rest, rawString (generated.sqlLiteral ++ rest) =
    some (trimWhitespaceView stmt.sql.toList, rest)
  queryComment : EndsItself generated.queryComment
  statementComment : generated.summary ≠ "" ∨ generated.jsonDscr ≠ [] →
    EndsItself generated.statementComment

/-- The texts of a file as it was read, in the header generated from the statements that were
    made of it. -/
structure DataStatements.Survives (s generated : DataStatements) : Prop where
  fileComment : EndsItself generated.fileComment
  statements : List.Forall₂ DataStatement.Survives s.statements generated.statements

/-- No line of a text, when it is trimmed, ends a comment. -/
def HarmlessLines (text : String) : Prop :=
  ∀ line ∈ getlines '\n' (trimWhitespaceView text.toList), ¬ Closes line

instance (text : String) : Decidable (HarmlessLines text) := List.decidableBAll ..

/-- The texts of a statement have no end in them of what they are copied into. -/
structure DataStatement.Harmless (stmt : DataStatement) : Prop where
  noRawEnd : ¬ ")SQL\"".toList <:+: trimWhitespaceView stmt.sql.toList
  noCarriageReturn : '\r' ∉ trimWhitespaceView stmt.sql.toList
  sql : HarmlessLines stmt.sql
  dscr : HarmlessLines stmt.dscr
  summary : ¬ Closes stmt.summary.toList
  /-- The id stands in for the summary. -/
  id : stmt.summary = "" → trimWhitespaceView stmt.dscr.toList ≠ [] → ¬ Closes stmt.id.toList

/-- The texts of a file have no end in them of what they are copied into. -/
structure DataStatements.Harmless (s : DataStatements) : Prop where
  summary : ¬ Closes s.summary.toList
  description : HarmlessLines s.description
  statements : ∀ stmt ∈ s.statements, stmt.Harmless

/-! ## Lines with prefixes -/

theorem getlines_eq_nil (delimiter : Char) {l : List Char} :
    getlines delimiter l = [] ↔ l = [] := by
  cases l with
  | nil => exact iff_of_true rfl rfl
  | cons c cs =>
    refine iff_of_false (fun h => ?_) (List.cons_ne_nil c cs)
    rw [getlines] at h
    split_ifs at h
    split at h <;> cases h

theorem join_cons (a : List Char) (o : List (List Char)) (delim : List Char) :
    join (a :: o) delim = a ++ o.flatMap (delim ++ ·) := by
  have hflat : (a :: o).flatMap (· ++ delim) = (a ++ o.flatMap (delim ++ ·)) ++ delim := by
    induction o generalizing a with
    | nil => simp
    | cons b o ih =>
      rw [List.flatMap_cons, ih b, List.flatMap_cons]
      simp only [List.append_assoc]
  rw [join, hflat]
  split_ifs with h
  · rw [List.isEmpty_iff, List.append_eq_nil_iff] at h
    rw [h.1, h.2, List.append_nil]
  · rw [List.length_append, Nat.add_sub_cancel, List.take_left]

variable {text : String} {pre : List Char}

theorem prefixed_eq_nil (hpre : pre ≠ []) :
    prefixed text pre = [] ↔ trimWhitespaceView text.toList = [] := by
  refine Iff.trans ?_ (getlines_eq_nil '\n')
  rw [prefixed, prefixSplit]
  cases getlines '\n' (trimWhitespaceView text.toList) with
  | nil => exact iff_of_true rfl rfl
  | cons line lines =>
    rw [List.map_cons, join_cons]
    refine iff_of_false (fun h => ?_) (List.cons_ne_nil _ _)
    exact hpre (List.append_eq_nil_iff.1 (List.append_eq_nil_iff.1 h).1).1

/-- The prefixes of the lines keep the lines apart. -/
theorem not_closes_prefixed (hpre : Mode.text.run pre = some .text)
    (hreset : Mode.Resets ('\n' :: pre)) : ¬ Closes (prefixed text pre) ↔ HarmlessLines text := by
  have hlines : ∀ lines : List (List Char), Closes (join (lines.map (pre ++ ·)) ['\n']) ↔
      ∃ line ∈ lines, Closes line := by
    intro lines
    cases lines with
    | nil =>
      have hnil : ¬ Closes [] := by decide
      exact iff_of_false hnil fun ⟨_, h, _⟩ => List.not_mem_nil h
    | cons line lines =>
      have hflat : join ((line :: lines).map (pre ++ ·)) ['\n'] =
          pre ++ (line ++ lines.flatMap ('\n' :: pre ++ ·)) := by
        rw [List.map_cons, join_cons, List.flatMap_map, List.append_assoc]
        rfl
      rw [hflat, ← Mode.run_eq_none_iff, Mode.run_append_eq_none_of_eq_some hpre, Mode.run_append,
        List.exists_mem_cons_iff, ← Mode.run_eq_none_iff]
      cases Mode.text.run line with
      | none => exact iff_of_true rfl (.inl rfl)
      | some m =>
        exact (Mode.run_flatMap_eq_none hreset m lines).trans
          (or_iff_right (Option.some_ne_none m)).symm
  rw [HarmlessLines, prefixed, prefixSplit, hlines]
  exact ⟨fun h line hmem hline => h ⟨line, hmem, hline⟩,
    fun h ⟨line, hmem, hline⟩ => h line hmem hline⟩

/-! ## The comments -/

theorem endsItself_comment (body : List Char) : EndsItself (comment body) ↔ ¬ Closes body :=
  ⟨fun h => (skipComment_comment body []).1 (h []),
    fun h rest => (skipComment_comment body rest).2 h⟩

theorem DataStatements.endsItself_fileComment (s : DataStatements) :
    EndsItself s.fileComment ↔ ¬ Closes s.summary.toList ∧ HarmlessLines s.description := by
  rw [fileComment, endsItself_comment, closes_between_append rfl, not_or, jsonDescription,
    not_closes_prefixed rfl (by decide)]
  all_goals decide

namespace DataStatement

variable (stmt : DataStatement)

theorem endsItself_queryComment : EndsItself stmt.queryComment ↔ HarmlessLines stmt.sql := by
  rw [queryComment, endsItself_comment, closes_between (by decide +kernel), jsonSql,
    not_closes_prefixed rfl (by decide)]
  decide

theorem jsonDscr_eq_nil : stmt.jsonDscr = [] ↔ trimWhitespaceView stmt.dscr.toList = [] := by
  rw [jsonDscr]
  split_ifs with h
  · rw [String.isEmpty_iff.1 h]
    exact iff_of_true rfl rfl
  · exact prefixed_eq_nil (by decide)

theorem not_closes_jsonDscr : ¬ Closes stmt.jsonDscr ↔ HarmlessLines stmt.dscr := by
  rw [jsonDscr]
  split_ifs with h
  · rw [String.isEmpty_iff.1 h]
    exact iff_of_true (by decide) (by decide)
  · exact not_closes_prefixed rfl (by decide)

theorem endsItself_statementComment :
    EndsItself stmt.statementComment ↔ ¬ Closes stmt.brief ∧ HarmlessLines stmt.dscr := by
  have hbrief : Mode.text.run "*\n   * @brief ".toList = some .text := rfl
  have hend : Mode.Resets "\n   ".toList := by decide
  rw [statementComment, endsItself_comment, ← not_closes_jsonDscr]
  cases h : stmt.jsonDscr with
  | nil =>
    exact (not_congr (closes_between hbrief hend stmt.brief)).trans (and_iff_left (by decide)).symm
  | cons c cs =>
    have hsep : Mode.Resets "\n   *\n".toList := by decide
    exact (not_congr (closes_between_append hbrief hsep hend stmt.brief (c :: cs))).trans not_or

/-! ## The header -/

theorem sqlLiteral_iff : (∀ rest, rawString (stmt.sqlLiteral ++ rest) =
    some (trimWhitespaceView stmt.sql.toList, rest)) ↔
      ¬ ")SQL\"".toList <:+: trimWhitespaceView stmt.sql.toList ∧
        '\r' ∉ trimWhitespaceView stmt.sql.toList := by
  have h := @rawString_rawLiteral "SQL".toList (by decide) (by decide) stmt.jsonSqlLiteral
  exact ⟨fun hraw => (h []).1 (hraw []), fun hsql rest => (h rest).2 hsql⟩

/-- Nothing of what the header repeats of a statement comes from the database. -/
theorem survives_withMetadata (n : ℕ) (m : Rtl.QryMetadata) :
    stmt.Survives (stmt.withMetadata n m) ↔ stmt.Survives stmt :=
  ⟨fun h => ⟨h.sql, h.queryComment, h.statementComment⟩,
    fun h => ⟨h.sql, h.queryComment, h.statementComment⟩⟩

theorem copied_statementComment_iff :
    (stmt.summary ≠ "" ∨ stmt.jsonDscr ≠ [] → EndsItself stmt.statementComment) ↔
      ¬ Closes stmt.summary.toList ∧ HarmlessLines stmt.dscr ∧
        (stmt.summary = "" → trimWhitespaceView stmt.dscr.toList ≠ [] →
          ¬ Closes stmt.id.toList) := by
  rw [endsItself_statementComment]
  by_cases hsummary : stmt.summary = ""
  · have hbrief : Closes stmt.brief ↔ Closes stmt.id.toList := by
      rw [brief, hsummary, if_pos (by decide), ← Mode.run_eq_none_iff, ← Mode.run_eq_none_iff]
      exact Mode.run_append_eq_none_of_eq_some rfl _
    have hnone : ¬ Closes stmt.summary.toList := by
      rw [hsummary]
      decide
    rw [hbrief, and_iff_right hnone, ne_eq (trimWhitespaceView _), ← stmt.jsonDscr_eq_nil]
    by_cases hdscr : stmt.jsonDscr = []
    · -- There is nothing in the comment but the id.
      have hlines : HarmlessLines stmt.dscr := by
        rw [HarmlessLines, stmt.jsonDscr_eq_nil.1 hdscr]
        exact fun line h => absurd h List.not_mem_nil
      exact iff_of_true (fun h => absurd h (not_or.2 ⟨not_not.2 hsummary, not_not.2 hdscr⟩))
        ⟨hlines, fun _ h => absurd hdscr h⟩
    · exact ⟨fun h => ⟨(h (.inr hdscr)).2, fun _ _ => (h (.inr hdscr)).1⟩,
        fun h _ => ⟨h.2 hsummary hdscr, h.1⟩⟩
  · have hbrief : stmt.brief = stmt.summary.toList := by
      rw [brief, if_neg (mt String.isEmpty_iff.1 hsummary)]
    rw [hbrief]
    exact ⟨fun h => ⟨(h (.inl hsummary)).1, (h (.inl hsummary)).2, fun h' => absurd h' hsummary⟩,
      fun h _ => ⟨h.1, h.2.1⟩⟩

theorem survives_iff : stmt.Survives stmt ↔ stmt.Harmless := by
  constructor
  · intro h
    obtain ⟨hend, hreturn⟩ := stmt.sqlLiteral_iff.1 h.sql
    obtain ⟨hsummary, hdscr, hid⟩ := stmt.copied_statementComment_iff.1 h.statementComment
    exact ⟨hend, hreturn, stmt.endsItself_queryComment.1 h.queryComment, hdscr, hsummary, hid⟩
  · intro h
    exact ⟨stmt.sqlLiteral_iff.2 ⟨h.noRawEnd, h.noCarriageReturn⟩,
      stmt.endsItself_queryComment.2 h.sql,
      stmt.copied_statementComment_iff.2 ⟨h.summary, h.dscr, h.id⟩⟩

end DataStatement

/-- What is loaded are the statements that were read, each with metadata. -/
theorem Protocol.forall₂ {n : ℕ} {stmts : List DataStatement} {calls : List DbCall}
    {r : Except ExitStatus (List DataStatement)} (h : Protocol n stmts calls r)
    {generated : List DataStatement} (hr : r = .ok generated) :
    List.Forall₂ (fun stmt stmt' => ∃ m, stmt' = stmt.withMetadata n m) stmts generated := by
  induction h generalizing generated with
  | done =>
    cases hr
    exact .nil
  | failed => cases hr
  | @next stmt _ _ _ m r _ _ ih =>
    cases r with
    | error e => cases hr
    | ok rest =>
      cases hr
      exact .cons ⟨m, rfl⟩ (ih rfl)

/-- **The texts of a file survive into the header** if and only if none of them has the end in it of
    what it is copied into, whatever the database says of the statements. -/
theorem texts_survive_iff {σ : Type} (db : Database σ) (s : DataStatements) (maxFieldLen : ℕ)
    (st : σ) {generated : DataStatements}
    (h : (db.loadFileMetaData s maxFieldLen st).1 = .ok generated) :
    s.Survives generated ↔ s.Harmless := by
  cases hd : db.describer with
  | none =>
    rw [Database.loadFileMetaData, hd] at h
    cases h
  | some describe =>
    obtain ⟨hprotocol, hframe⟩ := loadFileMetaData_protocol db hd s maxFieldLen st
    obtain ⟨hsummary, hdescription, -⟩ := hframe generated h
    rw [h] at hprotocol
    have hfile : EndsItself generated.fileComment ↔
        ¬ Closes s.summary.toList ∧ HarmlessLines s.description := by
      rw [generated.endsItself_fileComment, hsummary, hdescription]
    have hstmts : List.Forall₂ DataStatement.Survives s.statements generated.statements ↔
        ∀ stmt ∈ s.statements, stmt.Harmless := by
      have hall := hprotocol.forall₂ rfl
      generalize s.statements = stmts at hall
      generalize generated.statements = stmts' at hall
      induction hall with
      | nil => exact iff_of_true .nil fun _ h => absurd h List.not_mem_nil
      | cons hstmt _ ih =>
        obtain ⟨m, rfl⟩ := hstmt
        rw [List.forall₂_cons, List.forall_mem_cons, DataStatement.survives_withMetadata,
          DataStatement.survives_iff]
        exact and_congr_right' ih
    exact ⟨fun h => ⟨(hfile.1 h.fileComment).1, (hfile.1 h.fileComment).2, hstmts.1 h.statements⟩,
      fun h => ⟨hfile.2 ⟨h.summary, h.description⟩, hstmts.2 h.statements⟩⟩

/-- The texts of the documents. -/
theorem texts_survive_iff_documents :
    ∃ generated, ((describing ⟨[bodyColumn], []⟩).loadFileMetaData documents 4096 ()).1 =
      .ok generated ∧ documents.Survives generated := by
  refine ⟨_, rfl, (texts_survive_iff (describing ⟨[bodyColumn], []⟩) documents 4096 () rfl).2 ?_⟩
  refine ⟨by decide, by decide, ?_⟩
  rw [documents, List.forall_mem_singleton]
  exact ⟨by decide, by decide, by decide, by decide, by decide, by decide⟩

/-- A statement with a comment of its own, and with the end of the raw string in it. -/
def quoted : DataStatements where
  statements := [{
    id := "sel"
    sql := "select body /* quoted */ from stage where body <> ')SQL\"'" }]
  sorted := List.pairwise_singleton ..

/-- The database accepts it, and neither the comment nor the raw string has it whole. -/
theorem not_texts_survive :
    ∃ generated, ((describing ⟨[bodyColumn], []⟩).loadFileMetaData quoted 4096 ()).1 =
      .ok generated ∧ ¬ quoted.Survives generated ∧
      ∀ stmt ∈ generated.statements, ¬ EndsItself stmt.queryComment ∧
        ¬ ∀ rest, rawString (stmt.sqlLiteral ++ rest) =
          some (trimWhitespaceView stmt.sql.toList, rest) := by
  have hquery : ∀ stmt ∈ quoted.statements, ¬ HarmlessLines stmt.sql := by
    rw [quoted, List.forall_mem_singleton]
    decide
  refine ⟨_, rfl, fun h => ?_, ?_⟩
  · obtain ⟨hstmt, -⟩ := List.forall₂_cons.1 h.statements
    exact hquery _ List.mem_cons_self
      ((DataStatement.endsItself_queryComment _).1 hstmt.queryComment)
  · refine List.forall_mem_singleton.2 ⟨?_, ?_⟩
    · rw [DataStatement.endsItself_queryComment]
      decide
    · rw [DataStatement.sqlLiteral_iff]
      decide

end Dbgen4.Gen
