import Dbgen4.Gen.BufferTemplates

/-!
# The templates of the two files

The templates of the generated header and source, `config/main_hpp.jinja` and
`config/main_cpp.jinja`, as their parts.
-/

namespace Dbgen4.Gen.Jinja

open Template

/-- A field of the statement. -/
def statement (field : String) : Node := .print (.var "statement" [field])

/-- The name of the statement. -/
def id : Expr := .var "statement" ["id"]

/-- The number of result columns. -/
def resultLength : Expr := .fn .length [.var "statement" ["result"]]

/-- The number of parameters. -/
def paramLength : Expr := .fn .length [.var "statement" ["param"]]

/-! ## The header -/

/-- What comes before the statements. -/
def headerPrologue : List Node := [
  "/***** do not alter - autogenerated ", put "timestamp", " *****/\n",
  "#pragma once\n",
  "#include \"buffer_dscr.hpp\"\n",
  "#include \"query.hpp\"\n",
  "#include \"rtl.hpp\"\n",
  "#include <algorithm>\n",
  "#include <functional>\n",
  "#include <vector>\n",
  "/**\n",
  " * @brief ", put "summary", "\n",
  " *\n",
  put "description", "\n",
  " *\n",
  " * version: ", put "version", "\n",
  " */\n"]

/-- The namespaces begin, with the types that the runtime library has names for. -/
def headerNamespaces : List Node := [
  "namespace dbx\n",
  "\x7b\n",
  "\n",
  "namespace ", put "schema", "\n",
  "\x7b\n",
  "  using cstr_t    = rtl::cstr_t;\n",
  "  using str_t     = rtl::str_t;\n",
  "  using wcstr_t   = rtl::wcstr_t;\n",
  "  using bcstr_t   = rtl::bcstr_t;\n",
  "  using date      = rtl::date;\n",
  "  using time      = rtl::time;\n",
  "  using timestamp = rtl::timestamp;\n"]

/-- The comment on a statement. -/
def statementHead : List Node := [
  "  /**\n",
  .ite (.fn .gt [.fn .length [.var "statement" ["summary"]], .num 0]) [
    "   * @brief ", statement "summary", "\n"] [
    "   * @brief sql statement ", statement "id", "\n"],
  .ite (.fn .gt [.fn .length [.var "statement" ["dscr"]], .num 0]) [
    "   *\n",
    statement "dscr", "\n"] [],
  "   */\n"]

/-- The namespace of a statement, and its buffers. -/
def statementBuffers : List Node := [
  "  namespace s_", statement "id", "\n",
  "  \x7b\n",
  .ite (.fn .gt [resultLength, .num 0]) [
    "    //////////////////////////////////////////////",
    "//////////////////////////////////////////////////\n",
    "    /**\n",
    "     * result buffer for select classes\n",
    "     */\n",
    "    ",
    .print (.fn (.callback "buffer-definition")
      [.var "statement" ["result"], "r", .var "statement" ["res-set-size"]]),
    "\n"] [],
  .ite (.fn .gt [paramLength, .num 0]) [
    "    //////////////////////////////////////////////",
    "//////////////////////////////////////////////////\n",
    "    /**\n",
    "     * buffer for sql statement parameters\n",
    "     */\n",
    "    ",
    .print (.fn (.callback "buffer-definition")
      [.var "statement" ["param"], "p", .var "statement" ["par-set-size"]]),
    "\n"] []]

/-- What the query class is derived from. -/
def setBaseQuery : List Node := [
  .ite (.and (.fn .ne [paramLength, .num 0]) (.fn .ne [resultLength, .num 0])) [
    .set "base_query"
      (.fn .add [.fn .add [.fn .add [.fn .add ["rtl::query<s_", id], "::p, s_"], id], "::r>"])] [],
  .ite (.and (.fn .ne [paramLength, .num 0]) (.fn .eq [resultLength, .num 0])) [
    .set "base_query" (.fn .add [.fn .add ["rtl::query<s_", id], "::p, rtl::no_results>"])] [],
  .ite (.and (.fn .eq [paramLength, .num 0]) (.fn .ne [resultLength, .num 0])) [
    .set "base_query" (.fn .add [.fn .add ["rtl::query<rtl::no_params, s_", id], "::r>"])] [],
  .ite (.and (.fn .eq [paramLength, .num 0]) (.fn .eq [resultLength, .num 0])) [
    .set "base_query" "rtl::query<rtl::no_params, rtl::no_results>"] []]

/-- The comment on the query class. -/
def queryDoc : List Node := [
  "    //////////////////////////////////////////////",
  "//////////////////////////////////////////////////\n",
  "    /**\n",
  "     * perform operations with the database\n",
  "     *\n",
  "     * The statement, as it goes to the server:\n",
  "     * @code\n",
  statement "sql", "\n",
  "     * @endcode\n",
  "     */\n"]

/-- The query class. -/
def queryClass : List Node := [
  "    class qry : public ", put "base_query", "\n",
  "    \x7b\n",
  "      public:\n",
  "        ", "\n",
  "        /** @brief fetch sql statement */\n",
  "        [[nodiscard]] static consteval cstr_t sql() noexcept \x7breturn sql_;\x7d\n",
  "        ", "\n",
  "        explicit qry(const rtl::database* db) : ", put "base_query", "(db, sql()) \x7b\x7d\n",
  "        ", "\n",
  "        using ", put "base_query", "::query;\n",
  "      private:\n",
  "        static constexpr cstr_t sql_ = R\"SQL(", statement "sql-literal", ")SQL\";\n",
  "    \x7d; // class qry\n",
  "    using stmt = qry; ///< kept for source",
  " compatibility with code written against the old, separate alias\n",
  "  \x7d; // namespace s_", statement "id", "\n"]

/-- What comes after the statements. -/
def headerEpilogue : List Node := [
  "\x7d; // namespace ", put "schema", "\n",
  "\x7d; // namespace dbx"]

/-- What is generated for a statement. -/
def headerStatement : List Node :=
  statementHead ++ (statementBuffers ++ (setBaseQuery ++ (queryDoc ++ queryClass)))

/-- `main_hpp.jinja`. -/
def mainHpp : List Node :=
  headerPrologue ++ (headerNamespaces ++
    (.forIn "statement" (.var "statements" []) headerStatement :: headerEpilogue))

/-! ## The source -/

/-- What comes before the statements. -/
def sourcePrologue : List Node := [
  "/***** do not alter - autogenerated ", put "timestamp", " *****/\n",
  "#include \"", put "hpp-include-file", "\"\n",
  .ite (.var "needs-rtl-fmt" []) [
    "#include \"rtl_fmt.hpp\" // IWYU pragma: keep\n"] [],
  .ite (.var "needs-utf8" []) [
    "#include \"utf8.hpp\"\n"] [],
  .ite (.var "needs-hex" []) [
    "#include \"hex.hpp\"\n"] [],
  "#include <algorithm>\n",
  "/**\n",
  " * @brief ", put "summary", "\n",
  " *\n",
  put "description", "\n",
  " *\n",
  " * version: ", put "version", "\n",
  " */\n",
  "namespace dbx\n",
  "\x7b\n",
  "\n",
  "namespace ", put "schema", "\n",
  "\x7b\n"]

/-- The namespace of a statement. -/
def sourceStatement : List Node := [
  .ite (.fn .gt [.fn .add [resultLength, paramLength], .num 0]) [
    "  namespace s_", statement "id", "\n",
    "  \x7b\n",
    .ite (.fn .gt [resultLength, .num 0]) [
      "    ", .print (.fn (.callback "buffer-implementation") [.var "statement" ["result"], "r"]),
      "\n"] [],
    .ite (.fn .gt [paramLength, .num 0]) [
      "    ", .print (.fn (.callback "buffer-implementation") [.var "statement" ["param"], "p"]),
      "\n"] [],
    "  \x7d; // namespace s_", statement "id", "\n"] []]

/-- What comes after the statements. -/
def sourceEpilogue : List Node := [
  "\x7d; // namespace ", put "schema", "\n",
  "\x7d; // namespace dbx"]

/-- `main_cpp.jinja`. -/
def mainCpp : List Node :=
  sourcePrologue ++ (.forIn "statement" (.var "statements" []) sourceStatement :: sourceEpilogue)

end Dbgen4.Gen.Jinja
