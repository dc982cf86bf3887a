import Mathlib.Data.List.Basic

/-!
# The SQL type vocabulary

What a column is, independently of the backend (`rtl/sql_types.hpp`), and the
status codes and errors the runtime reports (`rtl/rtl.hpp`, `rtl/db_error.hpp`).
The generator stores a column according to its *category* (`SqlType.category`);
dates, times and guids are structures of fixed-width fields.
-/

namespace Dbgen4.Rtl

/-- The SQL types known to the generator (`schema::sql_type`). -/
inductive SqlType
  | unknown
  | integer | smallint | bigint | tinyInt | float | real | double | bit
  | char | numeric | decimal | varChar | decfloat | longVarChar | clob | xml
  | wchar | wvarChar | wlongVarChar | dbclob
  | graphic | varGraphic | binary | varBinary | longVarBinary | blob
  | date | time | timestamp | typeDate | typeTime | typeTimestamp
  | intervalYear | intervalMonth | intervalYearToMonth | intervalDay | intervalHour
  | intervalMinute | intervalSecond | intervalDayToHour | intervalDayToMinute
  | intervalDayToSecond | intervalHourToMinute | intervalHourToSecond | intervalMinuteToSecond
  | guid
  deriving DecidableEq, Repr

/-- How a SQL type is stored in a generated buffer (`schema::sql_cat`). -/
inductive SqlCat
  | atomic
  | cString
  | wString
  | bString
  | struct
  deriving DecidableEq, Repr

/-- The storage category of a type, as `sql_to_cpp_table` gives it. -/
def SqlType.category : SqlType → SqlCat
  | .integer | .smallint | .bigint | .tinyInt | .float | .real | .double | .bit => .atomic
  | .char | .numeric | .decimal | .varChar | .decfloat | .longVarChar | .clob | .xml => .cString
  | .wchar | .wvarChar | .wlongVarChar | .dbclob => .wString
  | .graphic | .varGraphic | .binary | .varBinary | .longVarBinary | .blob => .bString
  | _ => .struct

/-- The C++ types that store the elements of a column. -/
inductive CppType
  | int8 | int16 | int32 | int64
  | float | double
  | bool
  | char | wchar | uint8
  | date | time | timestamp | interval | guid
  | void
  deriving DecidableEq, Repr

/-- The storage type of a SQL type (`cpp_type_name` of `sql_to_cpp_table`). -/
@[reducible] def SqlType.cppType : SqlType → CppType
  | .integer => .int32
  | .smallint => .int16
  | .bigint => .int64
  | .tinyInt => .int8
  | .real => .float
  | .float | .double => .double
  | .bit => .bool
  | .char | .numeric | .decimal | .varChar | .decfloat | .longVarChar | .clob | .xml => .char
  | .wchar | .wvarChar | .wlongVarChar | .dbclob => .wchar
  | .graphic | .varGraphic | .binary | .varBinary | .longVarBinary | .blob => .uint8
  | .date | .typeDate => .date
  | .time | .typeTime => .time
  | .timestamp | .typeTimestamp => .timestamp
  | .guid => .guid
  | .unknown => .void
  | _ => .interval

/-- The value of a length/indicator that marks a SQL NULL (`null_data`). -/
def nullData : Int32 := -1

/-! ## Structures -/

/-- `rtl::date`; the year is an `int16_t`. -/
structure Date where
  year : BitVec 16
  month : UInt16
  day : UInt16
  deriving DecidableEq, Repr

/-- `rtl::time`. -/
structure Time where
  hour : UInt16
  minute : UInt16
  second : UInt16
  deriving DecidableEq, Repr

/-- `rtl::timestamp`; the fraction is in nanoseconds. -/
structure Timestamp where
  year : BitVec 16
  month : UInt16
  day : UInt16
  hour : UInt16
  minute : UInt16
  second : UInt16
  fraction : UInt32
  deriving DecidableEq, Repr

/-- `rtl::interval`. The kind is a number, as a value-initialised one is no `interval_kind`;
    the union is its five words, of which a `year_month` has the first two. -/
structure Interval where
  kind : UInt32
  sign : Int16
  value : Vector UInt32 5
  deriving DecidableEq, Repr

/-- `rtl::guid`. -/
structure Guid where
  data1 : UInt32
  data2 : UInt16
  data3 : UInt16
  data4 : Vector UInt8 8
  deriving DecidableEq, Repr

/-! ## Descriptions -/

/-- `schema::meta_dscr`: one result column or one parameter, as the database describes it. -/
structure MetaDscr where
  index : Int16
  name : String
  type : SqlType
  nativeType : Int32
  size : UInt32
  digits : Int16
  nullable : Int16
  deriving DecidableEq

/-- `rtl::qry_metadata`. -/
structure QryMetadata where
  columns : List MetaDscr
  params : List MetaDscr
  deriving DecidableEq

/-! ## Status codes and errors -/

/-- `rtl::db_sts`. -/
inductive DbSts
  | success | successWithInfo | noData
  | error | invalidHandle | needData | stillExecuting
  | connectionError | connectionLost | serverGone | timeout | busy | accessDenied
  | invalidSql | syntaxError | constraintViolation | duplicateKey | truncated | invalidCursor
  | transactionError | deadlock | serializationFailure
  | memoryError | resourceError | diskFull | quotaExceeded
  | driverNotFound | envError | notImplemented | osError
  | dataConversionError | dataTruncated | invalidParameter
  | adminError | configError | licenseError
  | customError | unknown
  deriving DecidableEq, Repr

/-- `rtl::is_success`. -/
def DbSts.isSuccess (sts : DbSts) : Bool := sts == .success || sts == .successWithInfo

/-- `rtl::db_error`: a failure, in terms no backend owns. -/
structure DbError where
  sts : DbSts := .unknown
  message : String
  sqlState : String
  driverStatus : Int := 0
  nativeError : Int := 0
  deriving DecidableEq, Repr

/-- The table `by_code`: the SQLSTATEs with a status of their own. -/
def byCode : List (String × DbSts) :=
  [("00000", .success), ("23505", .duplicateKey), ("40001", .serializationFailure),
    ("40P01", .deadlock), ("40003", .transactionError), ("22001", .dataTruncated),
    ("53100", .diskFull), ("53200", .memoryError), ("53400", .quotaExceeded),
    ("57014", .timeout), ("28000", .accessDenied), ("28P01", .accessDenied)]

/-- The table `by_class`: what a whole SQLSTATE class means. -/
def byClass : List (String × DbSts) :=
  [("01", .successWithInfo), ("02", .noData), ("08", .connectionLost), ("0A", .notImplemented),
    ("22", .dataConversionError), ("23", .constraintViolation), ("24", .invalidCursor),
    ("25", .transactionError), ("28", .accessDenied), ("40", .transactionError),
    ("42", .invalidSql), ("53", .resourceError), ("54", .resourceError), ("57", .adminError),
    ("58", .osError)]

/-- `rtl::has_class`: the first two characters of a SQLSTATE are its class. -/
def hasClass (s cls : String) : Bool := 2 ≤ s.length && (s.toList.take 2 == cls.toList)

/-- `rtl::sqlstate_to_db_sts`: the codes first, then the classes. -/
def sqlstateToDbSts (sqlState : String) : DbSts :=
  if sqlState.isEmpty then .error
  else match byCode.find? fun e => sqlState == e.1 with
    | some e => e.2
    | none => match byClass.find? fun e => hasClass sqlState e.1 with
      | some e => e.2
      | none => .error

end Dbgen4.Rtl
