import Mathlib.Data.String.Basic
import Dbgen4.KeyedList
import Dbgen4.Rtl.SqlTypes

/-!
# Statements of a yaml file

What the generator knows of the statements of one file
(`parser/data_statement.hpp`, `parser/data_statements.hpp`). The statements are in a
map by their ids, which an iteration goes through in the order of the ids; a
statement is only ever put into it under its own id, so that the map is the list of
the statements (`DataStatements.sorted`).
-/

namespace Dbgen4.Gen

open Rtl

/-- `exit_status_enum`. -/
inductive ExitStatus
  | notImplemented
  | ok
  | fileCantBeOpen | yamlSyntaxError | invTopLevelStruct
  | statementsAttrMissing | invStatementSyntax | stmtUniqueIdIsMissing | duplicatedStmtId
  | noSqlStmtFound | parseError | unhandledException | connectionError | sqlSyntaxErr
  | injaParserError | injaRenderError | injaDataError | injaFileError | injaGeneralError
  | errorWritingFile | errorReadingFile | runtimeError
  | cmdHelp | cmdAllHelp | cmdVersion | cmdLineParseError
  deriving DecidableEq, Repr

/-- The categories whose columns have a width. -/
def isString : SqlCat → Bool
  | .cString | .wString | .bString => true
  | .atomic | .struct => false

/-- `data_statement`. -/
structure DataStatement where
  id : String
  sql : String
  beforeSql : String := ""
  afterSql : String := ""
  summary : String := ""
  dscr : String := ""
  parBufSize : ℕ := 1
  resBufSize : ℕ := 1
  results : List MetaDscr := []
  params : List MetaDscr := []
  resultNames : List String := []
  paramNames : List String := []
  /-- The widths of the columns named in the yaml file. -/
  fieldLen : List (String × ℕ) := []
  deriving DecidableEq

namespace DataStatement

variable (s : DataStatement)

/-- The loop of `push_column_names`: as long as there are both names and columns. -/
def pushNames : List String → List MetaDscr → List MetaDscr
  | name :: names, col :: cols => { col with name := name } :: pushNames names cols
  | _, cols => cols

/-- `push_column_names`. -/
def pushColumnNames : DataStatement :=
  { s with
    params := pushNames s.paramNames s.params
    results := pushNames s.resultNames s.results }

/-- The width of one column, as `apply_field_len` settles it. -/
def settle (fallback : ℕ) (col : MetaDscr) : MetaDscr :=
  match s.fieldLen.lookup col.name with
  | some len =>
    if ¬isString col.type.category then col else { col with size := UInt32.ofNat len }
  | none =>
    if isString col.type.category ∧ col.size = 0 then { col with size := UInt32.ofNat fallback }
    else col

/-- `apply_field_len`. -/
def applyFieldLen (fallback : ℕ) : DataStatement :=
  { s with
    results := s.results.map (s.settle fallback)
    params := s.params.map (s.settle fallback) }

/-- The names override those of the columns position by position. -/
theorem pushNames_eq (names : List String) (cols : List MetaDscr) :
    pushNames names cols = cols.mapIdx fun i col => { col with name := names.getD i col.name } := by
  induction cols generalizing names with
  | nil => cases names <;> rfl
  | cons col cols ih =>
    cases names with
    | nil =>
      have h : pushNames [] cols = cols := by cases cols <;> rfl
      rw [List.mapIdx_cons]
      exact congrArg (col :: ·) (h.symm.trans (ih []))
    | cons name names =>
      rw [pushNames, List.mapIdx_cons, ih]
      rfl

end DataStatement

/-- `data_statements`. -/
structure DataStatements where
  summary : String := ""
  description : String := ""
  filename : String := ""
  /-- `map_statements_`. -/
  statements : List DataStatement
  sorted : KeyedList.Sorted DataStatement.id statements

namespace DataStatements

theorem sorted_nil : KeyedList.Sorted DataStatement.id [] := .nil

/-- `add_statement_with_replace`. -/
def addStatementWithReplace (s : DataStatements) (stmt : DataStatement) : DataStatements :=
  { s with
    statements := KeyedList.put DataStatement.id stmt s.statements
    sorted := s.sorted.put }

/-- `add_statement`: none if the id is taken. -/
def addStatement (s : DataStatements) (stmt : DataStatement) : Option DataStatements :=
  if s.statements.any (·.id == stmt.id) then none else some (s.addStatementWithReplace stmt)

theorem statements_addStatementWithReplace (s : DataStatements) (stmt : DataStatement) :
    (s.addStatementWithReplace stmt).statements =
      KeyedList.put DataStatement.id stmt s.statements :=
  rfl

end DataStatements

end Dbgen4.Gen
