import Dbgen4.Gen.Header
import Dbgen4.Gen.Schema
import Dbgen4.Template.Render

/-!
# The data of the templates

What the templates are rendered with (`internal_model_to_json` in `gen/generator.cpp`): the
texts of the yaml file, of every statement and of every column and parameter. What a column
contributes to the C++ code, its types and the bodies of its getter and its setter, is worked
out here (`attrMappings`); a buffer template only puts it in its place.
-/

namespace Dbgen4.Gen

open Rtl Template

/-! ## The table of types -/

/-- `ME::enum_name` of a SQL type. -/
def enumName : SqlType → String
  | .unknown => "unknown"
  | .integer => "integer"
  | .smallint => "smallint"
  | .bigint => "bigint"
  | .tinyInt => "tiny_int"
  | .float => "float_"
  | .real => "real"
  | .double => "double_"
  | .bit => "bit"
  | .char => "char_"
  | .numeric => "numeric"
  | .decimal => "decimal"
  | .varChar => "var_char"
  | .decfloat => "decfloat"
  | .longVarChar => "long_var_char"
  | .clob => "clob"
  | .xml => "xml"
  | .wchar => "wchar"
  | .wvarChar => "wvar_char"
  | .wlongVarChar => "wlong_var_char"
  | .dbclob => "dbclob"
  | .graphic => "graphic"
  | .varGraphic => "var_graphic"
  | .binary => "binary"
  | .varBinary => "var_binary"
  | .longVarBinary => "long_var_binary"
  | .blob => "blob"
  | .date => "date"
  | .time => "time"
  | .timestamp => "timestamp"
  | .typeDate => "type_date"
  | .typeTime => "type_time"
  | .typeTimestamp => "type_timestamp"
  | .intervalYear => "interval_year"
  | .intervalMonth => "interval_month"
  | .intervalYearToMonth => "interval_year_to_month"
  | .intervalDay => "interval_day"
  | .intervalHour => "interval_hour"
  | .intervalMinute => "interval_minute"
  | .intervalSecond => "interval_second"
  | .intervalDayToHour => "interval_day_to_hour"
  | .intervalDayToMinute => "interval_day_to_minute"
  | .intervalDayToSecond => "interval_day_to_second"
  | .intervalHourToMinute => "interval_hour_to_minute"
  | .intervalHourToSecond => "interval_hour_to_second"
  | .intervalMinuteToSecond => "interval_minute_to_second"
  | .guid => "guid"

/-- `mnemonic` of the table. -/
def mnemonic : SqlType → String
  | .tinyInt => "tinyint"
  | .float => "float"
  | .double => "double"
  | .char => "char"
  | .varChar => "varchar"
  | .longVarChar => "longvarchar"
  | .wvarChar => "wvarchar"
  | .wlongVarChar => "wlongvarchar"
  | .varGraphic => "vargraphic"
  | .varBinary => "varbinary"
  | .longVarBinary => "longvarbinary"
  | t => enumName t

/-- `ME::enum_name` of a category. -/
def categoryName : SqlCat → String
  | .atomic => "atomic"
  | .cString => "c_string"
  | .wString => "w_string"
  | .bString => "b_string"
  | .struct => "structure"

/-- The name of a C++ type. -/
def cppName : CppType → String
  | .int8 => "int8_t"
  | .int16 => "int16_t"
  | .int32 => "int32_t"
  | .int64 => "int64_t"
  | .float => "float"
  | .double => "double"
  | .bool => "bool"
  | .char => "char"
  | .wchar => "wchar_t"
  | .uint8 => "uint8_t"
  | .date => "rtl::date"
  | .time => "rtl::time"
  | .timestamp => "rtl::timestamp"
  | .interval => "rtl::interval"
  | .guid => "rtl::guid"
  | .void => "void"

/-- `cpp_type_name` of the table. -/
def cppTypeName (t : SqlType) : Text := (cppName t.cppType).toList

/-- `par_type_name` of the table, and `ret_type_name`. -/
def viewTypeName (t : SqlType) : Text :=
  match t.category with
  | .cString => "rtl::cstr_t".toList
  | .wString => "rtl::wcstr_t".toList
  | .bString => "rtl::bcstr_t".toList
  | .atomic | .struct => cppTypeName t

/-! ## Columns -/

/-- `unqualified`. -/
def unqualified (typeName : Text) : Text :=
  if "rtl::".toList <+: typeName then typeName.drop 5 else typeName

/-- `attr_storage_type`. -/
def attrStorageType (t : SqlType) (name : Text) : Text :=
  match t.category with
  | .atomic => if t.cppType = .bool then "uint8_t".toList else unqualified (cppTypeName t)
  | .struct => unqualified (cppTypeName t)
  | .cString | .wString =>
    "std::array<".toList ++ unqualified (cppTypeName t) ++ ", l_".toList ++ name ++ "+1>".toList
  | .bString =>
    "std::array<".toList ++ unqualified (cppTypeName t) ++ ", l_".toList ++ name ++ ">".toList

/-- The replacement field `{:3}` for a number. -/
def width3 (n : ℕ) : Text :=
  List.replicate (3 - (decimal n).length) ' ' ++ decimal n

/-- `attr_storage_raw_type`. -/
def attrStorageRawType (t : SqlType) (len : ℕ) : Text :=
  match t.category with
  | .atomic | .struct => cppTypeName t
  | .cString | .wString => cppTypeName t ++ "[".toList ++ width3 len ++ "+1]".toList
  | .bString => cppTypeName t ++ "[".toList ++ width3 len ++ "]".toList

/-- `attr_getter_code`. -/
def attrGetterCode (t : SqlType) (name : Text) : Text :=
  match t.category with
  | .atomic | .struct =>
    if t.cppType = .bool then
      "\x7b return static_cast<bool>(".toList ++ name ++ "_.at(row));\x7d".toList
    else "\x7b return ".toList ++ name ++ "_.at(row);\x7d".toList
  | .cString | .wString | .bString =>
    "\x7b return \x7b".toList ++ name ++ "_.at(row).data(), ".toList ++ name ++
      "_length(row) \x7d;\x7d".toList

/-- What a setter does besides the assignment. -/
def storeLength (name : Text) : Text :=
  " len_".toList ++ name ++ "_.at(row) = static_cast<int32_t>(sizeof(".toList ++ name ++
    "_.at(0)));\x7d".toList

/-- The setter of a string. -/
def setValueCode (elem : String) (name : Text) (plus : String) : Text :=
  "\x7brtl::set_value<".toList ++ elem.toList ++ ",l_".toList ++ name ++ plus.toList ++
    ">(v, row, len_".toList ++ name ++ "_, ".toList ++ name ++ "_);\x7d".toList

/-- `attr_setter_code`. -/
def attrSetterCode (t : SqlType) (name : Text) : Text :=
  match t.category with
  | .atomic | .struct =>
    if t.cppType = .bool then
      "\x7b ".toList ++ name ++ "_.at(row) = static_cast<uint8_t>(v);".toList ++ storeLength name
    else "\x7b ".toList ++ name ++ "_.at(row) = v;".toList ++ storeLength name
  | .cString => setValueCode "char" name "+1"
  | .wString => setValueCode "wchar_t" name "+1"
  | .bString => setValueCode "uint8_t" name ""

/-- `attr_dump_value_to_string`. -/
def attrDumpValueToString (t : SqlType) (name : Text) : Text :=
  match t.category with
  | .struct => "fmt::format(\"\x7b\x7d\", ".toList ++ name ++ "(n))".toList
  | .atomic | .cString => name ++ "(n)".toList
  | .wString => "dbgen4::to_utf8(".toList ++ name ++ "(n))".toList
  | .bString => "dbgen4::to_hex(".toList ++ name ++ "(n))".toList

/-- `attr_mappings`. -/
def attrMappings (el : MetaDscr) : Json :=
  let name := el.name.toList
  .obj [("index", .int el.index.toInt),
    ("name", .str name),
    ("col-name", .str ('"' :: name ++ ['"'])),
    ("base-type", .str (cppTypeName el.type)),
    ("type", .str (enumName el.type).toList),
    ("mnemonic", .str (mnemonic el.type).toList),
    ("size", .int el.size.toNat),
    ("digits", .int el.digits.toInt),
    ("nullable", .int el.nullable.toInt),
    ("category", .str (categoryName el.type.category).toList),
    ("as-param", .str (unqualified (viewTypeName el.type))),
    ("as-result", .str (unqualified (viewTypeName el.type))),
    ("storage", .str (attrStorageType el.type name)),
    ("storage-raw", .str (attrStorageRawType el.type el.size.toNat)),
    ("getter-code", .str (attrGetterCode el.type name)),
    ("setter-code", .str (attrSetterCode el.type name)),
    ("dump-value", .str (attrDumpValueToString el.type name))]

/-! ## Statements -/

/-- A statement, as the templates see it. -/
def DataStatement.toJson (stmt : DataStatement) : Json :=
  .obj [("id", .str stmt.id.toList),
    ("sql", .str stmt.jsonSql),
    ("summary", .str stmt.summary.toList),
    ("dscr", .str stmt.jsonDscr),
    ("sql-literal", .str stmt.jsonSqlLiteral),
    ("res-set-size", .int stmt.resBufSize),
    ("par-set-size", .int stmt.parBufSize),
    ("result", .arr (stmt.results.map attrMappings)),
    ("param", .arr (stmt.params.map attrMappings))]

/-- Some column or parameter is of a category. -/
def DataStatements.hasCategory (s : DataStatements) (cat : SqlCat) : Bool :=
  s.statements.any fun stmt => (stmt.results ++ stmt.params).any (·.type.category = cat)

/-- `filename`, with an extension. -/
def outputFilename (outFolder barename : List Char) (extension : String) : List Char :=
  outFolder ++ '/' :: (barename ++ '.' :: extension.toList)

/-- `internal_model_to_json`, at a time. -/
def internalModelToJson (outFolder barename : List Char) (timestamp : String)
    (s : DataStatements) : Json :=
  .obj [("cpp-file", .str (outputFilename outFolder barename "cpp")),
    ("hpp-file", .str (outputFilename outFolder barename "hpp")),
    ("hpp-include-file", .str (fileName (outputFilename outFolder barename "hpp"))),
    ("summary", .str s.summary.toList),
    ("description", .str s.jsonDescription),
    ("version", .str "0.1.0".toList),
    ("schema", .str (schemaNamespace barename)),
    ("timestamp", .str timestamp.toList),
    ("statements", .arr (s.statements.map DataStatement.toJson)),
    ("needs-rtl-fmt", .bool (s.hasCategory .struct)),
    ("needs-utf8", .bool (s.hasCategory .wString)),
    ("needs-hex", .bool (s.hasCategory .bString))]

end Dbgen4.Gen
