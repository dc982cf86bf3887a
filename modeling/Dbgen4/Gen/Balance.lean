import Mathlib.Tactic.FinCases
import Dbgen4.Gen.Schema
import Dbgen4.Gen.Types
import Dbgen4.Template.Code

/-!
# The generated code is balanced

In both files every comment, every literal and every bracket that is opened is closed, however
many statements and columns there are and of whatever types: if the names that are copied into
the code are words, and the texts that are copied into comments and raw strings do not end them
(`generated_balanced`). The four templates are scanned once for it, with what is known of the texts
in the place of the texts (`endsInRemark`).
-/

namespace Dbgen4.Gen

open Cpp Template

/-- A word: it may be part of an identifier. -/
def IsName (l : List Char) : Prop := ∀ c ∈ l, isWord c = true

instance (l : List Char) : Decidable (IsName l) := List.decidableBAll ..

/-- What is copied into the code are words. -/
structure DataStatements.Named (s : DataStatements) : Prop where
  ids : ∀ stmt ∈ s.statements, IsName stmt.id.toList
  columns : ∀ stmt ∈ s.statements, ∀ el ∈ stmt.results ++ stmt.params, IsName el.name.toList

/-- No text of a statement ends what it is copied into. For its id, which may stand in for the
    summary, that is known of a word; and a carriage return ends nothing. -/
structure DataStatement.Enclosed (stmt : DataStatement) : Prop where
  noRawEnd : ¬ ")SQL\"".toList <:+: trimWhitespaceView stmt.sql.toList
  sql : HarmlessLines stmt.sql
  dscr : HarmlessLines stmt.dscr
  summary : ¬ Closes stmt.summary.toList

/-- No text of a file does. -/
structure DataStatements.Enclosed (s : DataStatements) : Prop where
  summary : ¬ Closes s.summary.toList
  description : HarmlessLines s.description
  statements : ∀ stmt ∈ s.statements, stmt.Enclosed

/-- What is known of the texts. -/
def codeTexts : Texts Effect where
  column
    | "storage" | "getter-code" | "setter-code" | "dump-value" => .of Effect.afterFragment
    | "base-type" | "storage-raw" => .of Effect.afterQuoted
    | _ => .word
  statement
    | "id" => .word
    | "sql-literal" => .of (Effect.afterRaw "SQL".toList)
    | _ => .of Effect.afterRemark
  file
    | "schema" => .word
    | "hpp-include-file" => .of Effect.afterQuoted
    | _ => .of Effect.afterRemark

/-! ## Columns -/

section Columns

variable {name : Text} (hname : IsName name)

include hname

/-- Code around the name. -/
theorem holds_around {pre post : Text}
    (h : Effect.append (.append (.lit pre) .word) (.lit post) [{}] = some [{}]) :
    (Effect.of Effect.afterFragment).Holds (pre ++ name ++ post) :=
  (((Effect.holds_lit pre).append (Effect.holds_word hname)).append
    (Effect.holds_lit post)).fragment h

theorem holds_attrGetterCode (t : Rtl.SqlType) :
    (Effect.of Effect.afterFragment).Holds (attrGetterCode t name) := by
  have hn := Effect.holds_word hname
  unfold attrGetterCode
  cases t.category with
  | atomic | struct =>
    dsimp only
    split_ifs
    · exact holds_around hname (by decide +kernel)
    · exact holds_around hname (by decide +kernel)
  | cString | wString | bString =>
    exact (((((Effect.holds_lit _).append hn).append (Effect.holds_lit _)).append hn).append
      (Effect.holds_lit _)).fragment (by decide +kernel)

/-- The effect of what a setter does besides the assignment. -/
def lengthEffect : Effect :=
  .append (.append (.append (.append (.lit " len_".toList) .word)
    (.lit "_.at(row) = static_cast<int32_t>(sizeof(".toList)) .word) (.lit "_.at(0)));\x7d".toList)

theorem holds_storeLength : lengthEffect.Holds (storeLength name) := by
  have hn := Effect.holds_word hname
  exact ((((Effect.holds_lit _).append hn).append (Effect.holds_lit _)).append hn).append
    (Effect.holds_lit _)

/-- The effect of a setter of a string. -/
def setValueEffect (elem plus : String) : Effect :=
  .append (.append (.append (.append (.append (.append (.append (.append (.append
    (.lit "\x7brtl::set_value<".toList) (.lit elem.toList)) (.lit ",l_".toList)) .word)
    (.lit plus.toList)) (.lit ">(v, row, len_".toList)) .word) (.lit "_, ".toList)) .word)
    (.lit "_);\x7d".toList)

theorem holds_attrSetterCode (t : Rtl.SqlType) :
    (Effect.of Effect.afterFragment).Holds (attrSetterCode t name) := by
  have hn := Effect.holds_word hname
  have hlen := holds_storeLength hname
  -- The setters of strings differ in the type of the elements and the place for a terminator.
  have hstring (elem plus : String) :
      (setValueEffect elem plus).Holds (setValueCode elem name plus) :=
    (((((((((Effect.holds_lit _).append (Effect.holds_lit _)).append (Effect.holds_lit _)).append
      hn).append (Effect.holds_lit _)).append (Effect.holds_lit _)).append hn).append
      (Effect.holds_lit _)).append hn).append (Effect.holds_lit _)
  unfold attrSetterCode
  cases t.category with
  | atomic | struct =>
    dsimp only
    split_ifs
    · exact ((((Effect.holds_lit _).append hn).append (Effect.holds_lit _)).append hlen).fragment
        (by decide +kernel)
    · exact ((((Effect.holds_lit _).append hn).append (Effect.holds_lit _)).append hlen).fragment
        (by decide +kernel)
  | cString => exact (hstring "char" "+1").fragment (by decide +kernel)
  | wString => exact (hstring "wchar_t" "+1").fragment (by decide +kernel)
  | bString => exact (hstring "uint8_t" "").fragment (by decide +kernel)

theorem holds_attrDumpValueToString (t : Rtl.SqlType) :
    (Effect.of Effect.afterFragment).Holds (attrDumpValueToString t name) := by
  have hn := Effect.holds_word hname
  unfold attrDumpValueToString
  cases t.category with
  | struct | wString | bString => exact holds_around hname (by decide +kernel)
  | atomic | cString =>
    exact (hn.append (Effect.holds_lit _)).fragment (by decide +kernel)

theorem holds_attrStorageType (t : Rtl.SqlType) :
    (Effect.of Effect.afterFragment).Holds (attrStorageType t name) := by
  have hn := Effect.holds_word hname
  have hword : Scan.run {} (unqualified (cppTypeName t)) = some ⟨.word, []⟩ := by
    cases t <;> decide +kernel
  have helem : IsName (unqualified (cppTypeName t)) := by cases t <;> decide +kernel
  unfold attrStorageType
  cases t.category with
  | atomic =>
    dsimp only
    split_ifs
    · exact Effect.holds_fragment (y := .word) (by decide) (by decide +kernel)
    · exact Effect.holds_fragment (by decide) hword
  | struct => exact Effect.holds_fragment (by decide) hword
  | cString | wString | bString =>
    exact (((((Effect.holds_lit _).append (Effect.holds_word helem)).append
      (Effect.holds_lit _)).append hn).append (Effect.holds_lit _)).fragment (by decide +kernel)

end Columns

/-- A character of a string literal that stands for itself. -/
def isPlain (c : Char) : Bool := c ≠ '"' ∧ c ≠ '\\' ∧ c ≠ '\n' ∧ c ≠ '\r'

theorem holds_plain {l : Text} (h : l.all isPlain = true) :
    (Effect.of Effect.afterQuoted).Holds l :=
  Effect.holds_quoted fun c hc => of_decide_eq_true (List.all_eq_true.1 h c hc)

theorem isPlain_of_isWord {c : Char} (h : isWord c = true) : isPlain c = true :=
  decide_eq_true ⟨Scan.ne_of_isWord h (by decide), Scan.ne_of_isWord h (by decide),
    Scan.ne_of_isWord h (by decide), Scan.ne_of_isWord h (by decide)⟩

theorem all_isPlain_width3 (n : ℕ) : (width3 n).all isPlain = true := by
  have hdigits : ∀ c ∈ Nat.toDigits 10 n, isPlain c = true := fun c hc =>
    isPlain_of_isWord (Effect.isWord_of_isDigit
      (Nat.isDigit_of_mem_toDigits (by decide) (by decide) hc))
  rw [List.all_eq_true, width3, List.forall_mem_append]
  constructor
  · intro c hc
    rw [List.eq_of_mem_replicate hc]
    decide
  · exact hdigits

theorem holds_attrStorageRawType (t : Rtl.SqlType) (len : ℕ) :
    (Effect.of Effect.afterQuoted).Holds (attrStorageRawType t len) := by
  have hname : (cppTypeName t).all isPlain = true := by cases t <;> decide +kernel
  unfold attrStorageRawType
  cases t.category with
  | atomic | struct => exact holds_plain hname
  | cString | wString | bString =>
    refine holds_plain ?_
    rw [List.all_append, List.all_append, List.all_append, hname, all_isPlain_width3]
    decide

theorem hasTexts_column {el : Rtl.MetaDscr} (h : IsName el.name.toList) :
    HasTexts effects columnTexts codeTexts.column (attrMappings el) := by
  have hwords : IsName (enumName el.type).toList ∧ IsName (categoryName el.type.category).toList ∧
      IsName (unqualified (viewTypeName el.type)) := by
    cases el.type <;> decide +kernel
  have hbase : (cppTypeName el.type).all isPlain = true := by cases el.type <;> decide +kernel
  intro k hk
  fin_cases hk
  · exact ⟨_, rfl, Effect.holds_word h⟩
  · exact ⟨_, rfl, holds_plain hbase⟩
  · exact ⟨_, rfl, Effect.holds_word hwords.1⟩
  · exact ⟨_, rfl, Effect.holds_word hwords.2.1⟩
  · exact ⟨_, rfl, Effect.holds_word hwords.2.2⟩
  · exact ⟨_, rfl, Effect.holds_word hwords.2.2⟩
  · exact ⟨_, rfl, holds_attrStorageType h el.type⟩
  · exact ⟨_, rfl, holds_attrStorageRawType el.type _⟩
  · exact ⟨_, rfl, holds_attrGetterCode h el.type⟩
  · exact ⟨_, rfl, holds_attrSetterCode h el.type⟩
  · exact ⟨_, rfl, holds_attrDumpValueToString h el.type⟩

/-! ## Statements and files -/

theorem hasTexts_statement {stmt : DataStatement} (hid : IsName stmt.id.toList)
    (h : stmt.Enclosed) : HasTexts effects statementTexts codeTexts.statement stmt.toJson := by
  have hsql : ¬Closes stmt.jsonSql := (not_closes_prefixed rfl (by decide)).2 h.sql
  have hdscr : ¬Closes stmt.jsonDscr := stmt.not_closes_jsonDscr.2 h.dscr
  intro k hk
  fin_cases hk
  · exact ⟨_, rfl, Effect.holds_word hid⟩
  · exact ⟨_, rfl, Effect.holds_remark hsql⟩
  · exact ⟨_, rfl, Effect.holds_remark h.summary⟩
  · exact ⟨_, rfl, Effect.holds_remark hdscr⟩
  · exact ⟨_, rfl, Effect.holds_raw h.noRawEnd⟩

/-- A name of a file: words and hyphens. -/
def IsStem (l : List Char) : Prop := ∀ c ∈ l, isWord c = true ∨ c = '-'

instance (l : List Char) : Decidable (IsStem l) := List.decidableBAll ..

theorem IsStem.isName_schemaNamespace {barename : List Char} (h : IsStem barename) :
    IsName (schemaNamespace barename) := by
  rw [IsName, schemaNamespace, List.forall_mem_map]
  intro c hc
  split_ifs with hhyphen
  · decide
  · exact (h c hc).resolve_right hhyphen

theorem fileName_append_slash {x : List Char} (folder : List Char) (h : ∀ c ∈ x, c ≠ '/') :
    fileName (folder ++ '/' :: x) = x := by
  rw [fileName, List.append_cons]
  induction x using List.reverseRecOn with
  | nil => rw [List.append_nil, List.rtakeWhile_concat_neg _ _ _ (by decide)]
  | append_singleton x c ih =>
    rw [List.forall_mem_append, List.forall_mem_singleton] at h
    rw [← List.append_assoc,
      List.rtakeWhile_concat_pos (fun d => decide (d ≠ '/')) _ c (decide_eq_true h.2), ih h.1]

/-- The name that the source includes is as plain as the name of the file. -/
theorem all_isPlain_fileName (outFolder : List Char) {barename : List Char}
    (h : IsStem barename) :
    (fileName (outputFilename outFolder barename "hpp")).all isPlain = true := by
  have hextension : ".hpp".toList.all (fun c => c ≠ '/' ∧ isPlain c = true) = true := by decide
  have hplain : ∀ c ∈ barename ++ ".hpp".toList, c ≠ '/' ∧ isPlain c = true := by
    rw [List.forall_mem_append]
    refine ⟨fun c hc => ?_, fun c hc => of_decide_eq_true (List.all_eq_true.1 hextension c hc)⟩
    rcases h c hc with hword | rfl
    · exact ⟨Scan.ne_of_isWord hword (by decide), isPlain_of_isWord hword⟩
    · decide
  have hname : fileName (outputFilename outFolder barename "hpp") = barename ++ ".hpp".toList :=
    fileName_append_slash outFolder fun c hc => (hplain c hc).1
  rw [hname, List.all_eq_true]
  exact fun c hc => (hplain c hc).2

theorem hasTexts_file (outFolder : List Char) {barename : List Char} {timestamp : String}
    {s : DataStatements} (hs : s.Enclosed) (hstem : IsStem barename)
    (hstamp : ¬Closes timestamp.toList) :
    HasTexts effects fileTexts codeTexts.file
      (internalModelToJson outFolder barename timestamp s) := by
  have hdscr : ¬Closes s.jsonDescription := (not_closes_prefixed rfl (by decide)).2 hs.description
  intro k hk
  fin_cases hk
  · exact ⟨_, rfl, holds_plain (all_isPlain_fileName outFolder hstem)⟩
  · exact ⟨_, rfl, Effect.holds_remark hs.summary⟩
  · exact ⟨_, rfl, Effect.holds_remark hdscr⟩
  · exact ⟨_, rfl, Effect.holds_remark (by decide)⟩
  · exact ⟨_, rfl, Effect.holds_word hstem.isName_schemaNamespace⟩
  · exact ⟨_, rfl, Effect.holds_remark hstamp⟩

theorem hold_codeTexts (outFolder : List Char) {barename : List Char} {timestamp : String}
    {s : DataStatements} (hs : s.Enclosed) (hnames : s.Named) (hstem : IsStem barename)
    (hstamp : ¬Closes timestamp.toList) :
    codeTexts.Hold effects outFolder barename timestamp s where
  column stmt hstmt el hel := hasTexts_column (hnames.columns stmt hstmt el hel)
  statement stmt hstmt := hasTexts_statement (hnames.ids stmt hstmt) (hs.statements stmt hstmt)
  file := hasTexts_file outFolder hs hstem hstamp

/-! ## The templates -/

/-- What is known of the text of a buffer, which stands in three namespaces and is trimmed. -/
def bufferEffect (a : Effect) : Effect := .only [⟨.code, ['}', '}', '}']⟩] a.trim

theorem holds_bufferEffect (a : Effect) (l : Text) (h : a.Holds l) :
    (bufferEffect a).Holds (trimTrailingWhitespaceView l) := by
  have hsplit : trimTrailingWhitespaceView l ++ l.rtakeWhile isSpace = l :=
    List.rdropWhile_append_rtakeWhile
  rw [← hsplit] at h
  -- What is cut off are blanks, before which the scan is in code already.
  refine (h.trim fun c hc => ?_).only _
  have hspace : isSpace c = true := List.mem_rtakeWhile_imp hc
  simpa [isSpace, Scan.blanks] using hspace

/-- With such templates of buffers, a template ends in the comment of its last line. -/
def EndsInRemark (nodes bufHpp bufCpp : List Node) : Prop :=
  ((Node.checkAll effects (mainSig effects bufferEffect bufHpp bufCpp) nodes
    (.start codeTexts.fileFields)).bind fun p => p.1 [{}]) = some [⟨.lineComment, []⟩]

instance (nodes bufHpp bufCpp : List Node) : Decidable (EndsInRemark nodes bufHpp bufCpp) :=
  inferInstanceAs (Decidable (_ = _))

set_option maxRecDepth 20000 in
/-- The files end in the comment of their last line. The literals of the templates are spelled out
    for it. -/
theorem endsInRemark (tpl : Tpl) : EndsInRemark tpl.nodes Jinja.bufHpp Jinja.bufCpp := by
  suffices h : EndsInRemark Jinja.mainHpp Jinja.bufHpp Jinja.bufCpp ∧
      EndsInRemark Jinja.mainCpp Jinja.bufHpp Jinja.bufCpp by
    cases tpl with
    | hpp => exact h.1
    | cpp => exact h.2
  apply of_spelled (fun (mainHpp, mainCpp, bufHpp, bufCpp) =>
    EndsInRemark mainHpp bufHpp bufCpp ∧ EndsInRemark mainCpp bufHpp bufCpp)
    (y := (Jinja.mainHpp, Jinja.mainCpp, Jinja.bufHpp, Jinja.bufCpp))
  case h =>
    -- The characters of a string literal are slow to evaluate, those of a list are not.
    unfold Jinja.mainHpp Jinja.headerStatement Jinja.mainCpp Jinja.bufHpp Jinja.bufCpp
    repeat' first
      | exact Node.text_spelled
      | exact Expr.str_spelled
      | apply congrArg₂ Prod.mk
      | apply append_congr
      | apply cons_congr
      | apply Node.print_congr
      | apply Node.set_congr
      | apply Node.ite_congr
      | apply Node.forIn_congr
      | apply Expr.fn_congr
      | rfl
  decide +kernel

/-! ## The files -/

/-- **The files are balanced.** Both files are rendered, and every comment, every literal and every
    bracket that is opened in one is closed in it, if the names are words, the name of the yaml
    file is one but for hyphens, and no text ends what it is copied into. The last line is a
    comment, which the newline ends that C++ adds to a file without one at its end. -/
theorem generated_balanced (outFolder : String) (tpl : Tpl) {barename : List Char}
    {timestamp : String} {s : DataStatements} (hs : s.Enclosed) (hnames : s.Named)
    (hstem : IsStem barename) (hstamp : ¬Closes timestamp.toList) :
    ∃ contents, generated outFolder tpl barename timestamp s = .text contents ∧
      Cpp.Balanced (contents ++ ['\n']) := by
  obtain ⟨⟨a, Γ⟩, hcheck, ha⟩ := Option.bind_eq_some_iff.1 (endsInRemark tpl)
  obtain ⟨contents, hr, hholds⟩ := render_of_checkAll (mainSig_sound holds_bufferEffect) hcheck
    (hold_codeTexts outFolder.toList hs hnames hstem hstamp).fileFields
  refine ⟨contents, by rw [generated, generateFileThroughTemplate, hr], ?_⟩
  rw [Cpp.Balanced, Scan.run_append_of_eq_some (hholds.run ha)]
  rfl

/-- Two statements, which the database has described. -/
def insertAuthor : DataStatement where
  id := "insert_author"
  sql := "insert into author (name, portrait) values (?, ?)"
  dscr := "A portrait may be missing."
  params := [⟨1, "name", .varChar, 1043, 80, 0, 0⟩, ⟨2, "portrait", .varBinary, 17, 4096, 0, 1⟩]

def selectAuthor : DataStatement where
  id := "select_author"
  sql := "select id, name, born, changed -- the time of the last change\nfrom author"
  summary := "all of them (\"authors\")"
  results := [⟨1, "id", .bigint, 20, 8, 0, 0⟩, ⟨2, "name", .varChar, 1043, 80, 0, 0⟩,
    ⟨3, "born", .typeDate, 1082, 4, 0, 1⟩, ⟨4, "changed", .typeTimestamp, 1114, 8, 6, 1⟩]

/-- A file with them. -/
def authors : DataStatements where
  summary := "authors"
  statements := [insertAuthor, selectAuthor]
  sorted := List.pairwise_pair.2 (by decide)

theorem generated_balanced_authors :
    ∃ contents, generated "gen" .cpp "ct-out".toList "2026-03-01 12:00:00" authors =
      .text contents ∧ Cpp.Balanced (contents ++ ['\n']) := by
  refine generated_balanced "gen" .cpp ⟨by decide, by decide, ?_⟩ ⟨?_, ?_⟩ (by decide) (by decide)
  · rw [authors, List.forall_mem_cons, List.forall_mem_singleton]
    exact ⟨⟨by decide +kernel, by decide +kernel, by decide, by decide⟩,
      ⟨by decide +kernel, by decide +kernel, by decide, by decide⟩⟩
  · rw [authors, List.forall_mem_cons, List.forall_mem_singleton]
    decide
  · rw [authors, List.forall_mem_cons, List.forall_mem_singleton]
    decide

end Dbgen4.Gen
