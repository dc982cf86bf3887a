import Dbgen4.Gen.Common
import Dbgen4.Gen.Statement

/-!
# Reading a yaml file

`parser::parse_yaml_file` (`parser/parser.cpp`), and the access to the nodes of a document
that it makes (`parser/parse_yaml.hpp`, `parser/parse_yaml.cpp`). The document is a tree;
what the yaml library makes of a file, and of a scalar as a number, is an input
(`Loader`).
-/

namespace Dbgen4.Gen

/-- A node; keys that are no strings are never asked for. -/
inductive Yaml
  | null
  | scalar (text : String)
  | seq (items : List Yaml)
  | map (entries : List (String × Yaml))

/-- `YAML::LoadFile`, where `none` is an exception, and the conversion to `size_t`. -/
structure Loader where
  loadFile : String → Option Yaml
  asSize : String → Option ℕ

namespace Yaml

variable (n : Yaml) (key : String)

/-- The value of a key, unless it is missing or null: the test of `get` and of `exists`. -/
def value : Option Yaml :=
  match n with
  | map entries => match entries.lookup key with
    | some null => none
    | v => v
  | _ => none

/-- `get<std::string>`. -/
def getString : Option String :=
  match n.value key with
  | some (scalar text) => some text
  | _ => none

/-- `get_or<std::string>`. -/
def getStringOr (default : String) : String := (n.getString key).getD default

/-- `get_or<size_t>`. -/
def getSizeOr (l : Loader) (default : ℕ) : ℕ := ((n.getString key).bind l.asSize).getD default

/-- The value of a key that is a map: `is_map` and `get_map`. -/
def getMap : Option Yaml :=
  match n.value key with
  | some (map entries) => some (map entries)
  | _ => none

/-- The node, if it is a map. -/
def asMap : Yaml → Option Yaml
  | map entries => some (map entries)
  | _ => none

/-- The node as a string, if it is a scalar. -/
def asScalar : Yaml → Option String
  | scalar text => some text
  | _ => none

/-- `get_seq_of_maps`. -/
def getSeqOfMaps : Option (List Yaml) :=
  match n.value key with
  | some (seq items) => items.mapM asMap
  | _ => none

/-- `get_seq_of_strings_or`. -/
def getSeqOfStringsOr (default : List String) : List String :=
  match n.value key with
  | some (seq items) => (items.mapM asScalar).getD default
  | _ => default

/-- `get_map_of_sizes_or`: an entry that is no number is left out, and a later one of the same
    name is the one that counts. -/
def getMapOfSizesOr (l : Loader) : List (String × ℕ) :=
  match n.value key with
  | some (map entries) => entries.foldl (fun sizes e =>
      match e.2.asScalar.bind l.asSize with
      | some size => KeyedList.put Prod.fst (e.1, size) sizes
      | none => sizes) []
  | _ => []

end Yaml

/-- `db_type_enum`. -/
inductive DbType
  | sql | mariadb | psql | db2
  deriving DecidableEq, Repr

/-- `enum_name`. -/
def DbType.name : DbType → String
  | sql => "sql"
  | mariadb => "mariadb"
  | psql => "psql"
  | db2 => "db2"

/-- `resolve_dialect_sql`. -/
def resolveDialectSql (n : Yaml) (dbType : DbType) : String :=
  n.getStringOr dbType.name (n.getStringOr "sql" "")

/-- The text before or after a statement. -/
def optionalSql (n : Yaml) (key : String) (dbType : DbType) : String :=
  match n.getMap key with
  | some m => resolveDialectSql m dbType
  | none => ""

/-- One turn of the loop of `parse_yaml_file_json`. -/
def parseStatement (l : Loader) (dbType : DbType) (s : Yaml) : Except ExitStatus DataStatement :=
  let sql := resolveDialectSql s dbType
  match s.getString "id" with
  | none => .error .stmtUniqueIdIsMissing
  | some id =>
    if sql.isEmpty then .error .noSqlStmtFound
    else .ok {
      id := id
      sql := trimWhitespace sql
      beforeSql := trimWhitespace (optionalSql s "before" dbType)
      afterSql := trimWhitespace (optionalSql s "after" dbType)
      summary := s.getStringOr "summary" ""
      dscr := s.getStringOr "dscr" ""
      resBufSize := s.getSizeOr "res-buf-size" l 1
      parBufSize := s.getSizeOr "par-buf-size" l 1
      paramNames := s.getSeqOfStringsOr "parameter-names" []
      resultNames := s.getSeqOfStringsOr "result-names" []
      fieldLen := s.getMapOfSizesOr "field-len" l }

/-- The loop of `parse_yaml_file_json`. -/
def parseStatements (l : Loader) (dbType : DbType) :
    List Yaml → DataStatements → Except ExitStatus DataStatements
  | [], stmts => .ok stmts
  | s :: ss, stmts => match parseStatement l dbType s with
    | .error e => .error e
    | .ok stmt => match stmts.addStatement stmt with
      | none => .error .duplicatedStmtId
      | some stmts => parseStatements l dbType ss stmts

/-- `parse_yaml_file_json`. -/
def parseYamlFileJson (l : Loader) (filename : String) (n : Yaml) (dbType : DbType) :
    Except ExitStatus DataStatements :=
  match n.getSeqOfMaps "statements" with
  | none => .error .statementsAttrMissing
  | some ss => parseStatements l dbType ss {
      summary := n.getStringOr "summary" ""
      description := n.getStringOr "description" ""
      filename := filename
      statements := []
      sorted := DataStatements.sorted_nil }

/-- `parse_yaml_file`. -/
def parseYamlFile (l : Loader) (filename : String) (dbType : DbType) :
    Except ExitStatus DataStatements :=
  match l.loadFile filename with
  | none => .error .fileCantBeOpen
  | some n => parseYamlFileJson l filename n dbType

/-! ## Errors -/

variable {l : Loader} {dbType : DbType} {e : ExitStatus}

theorem parseStatement_error {s : Yaml} (h : parseStatement l dbType s = .error e) :
    e = .stmtUniqueIdIsMissing ∨ e = .noSqlStmtFound := by
  unfold parseStatement at h
  dsimp only at h
  split at h
  · exact .inl (Except.error.inj h).symm
  · split at h
    · exact .inr (Except.error.inj h).symm
    · cases h

/-- The loop fails with what the first bad statement fails with. -/
theorem parseStatements_error {ss : List Yaml} {stmts : DataStatements}
    (h : parseStatements l dbType ss stmts = .error e) :
    e = .stmtUniqueIdIsMissing ∨ e = .noSqlStmtFound ∨ e = .duplicatedStmtId := by
  induction ss generalizing stmts with
  | nil => cases h
  | cons s ss ih =>
    rw [parseStatements] at h
    split at h
    · rename_i hs
      cases Except.error.inj h
      exact (parseStatement_error hs).imp_right .inl
    · split at h
      · exact .inr (.inr (Except.error.inj h).symm)
      · exact ih h

/-- A file that cannot be parsed has an error that is not `ok`. -/
theorem parseYamlFile_ne_ok {filename : String} (h : parseYamlFile l filename dbType = .error e) :
    e ≠ .ok := by
  rintro rfl
  unfold parseYamlFile at h
  split at h
  · cases h
  · unfold parseYamlFileJson at h
    split at h
    · cases h
    · rcases parseStatements_error h with h | h | h <;> cases h

end Dbgen4.Gen
