import Dbgen4.Template.Render

/-!
# The templates of a buffer

The templates of a buffer class, `config/buf_hpp.jinja` and `config/buf_cpp.jinja`, as their parts:
the expressions are between `<<` and `>>`, the comments are left out, and a line that begins with
`##` is a statement, whose end is the end of the line. A text of several lines is a part for each
line. The parts that later modules look into have names of their own.
-/

namespace Dbgen4.Gen.Jinja

open Template

/-- A variable of the data. -/
def put (x : String) : Node := .print (.var x [])

/-- A field of the column. -/
def el (field : String) : Node := .print (.var "el" [field])

/-- The title of a section. -/
def banner (title : String) : Node :=
  .print (.fn (.callback "pad") [title, .num 85, "", "", "-"])

/-- The title of a section, with the name of the class. -/
def classBanner (title : String) : Node :=
  .print (.fn (.callback "pad")
    [.fn .add [.fn .add ["--- ", .var "class-name" []], title], .num 85, "", "", "-"])

/-- Whether the column is a string. -/
def isString : Expr :=
  .or (.or (.fn .eq [.var "el" ["category"], "c_string"])
    (.fn .eq [.var "el" ["category"], "w_string"])) (.fn .eq [.var "el" ["category"], "b_string"])

/-! ## The header -/

/-- The class begins, with its constants and its constructors. -/
def classHead : List Node := [
  "class ", put "class-name", " : public ", put "root-class", "\n",
  "    \x7b\n",
  "      public:\n",
  "        /** ", banner "--- buffer dimension ", " */\n",
  "        static constexpr size_t default_buffer_size = ", put "buf-size", ";\n",
  "        /** ", banner "--- number of columns in this buffer ", " */\n",
  "        static constexpr size_t column_count = ", .print (.fn .length [.var "buf" []]), ";\n"]

/-- The constructors and the assignments. -/
def constructorDeclarations : List Node := [
  "        /** ", banner "--- constructors and destructor ", " */\n",
  "        explicit ", put "class-name", "(size_t rows = default_buffer_size);\n",
  "        ~", put "class-name", "() override = default;\n",
  "        ", put "class-name", "(const ", put "class-name", "& o) = default;\n",
  "        ", put "class-name", "(", put "class-name", "&& o) = delete;\n",
  "        ", put "class-name", "& operator=(const ", put "class-name", "& o) = default;\n",
  "        ", put "class-name", "& operator=(", put "class-name", "&& o) = delete;\n"]

/-- The size of the buffer, and the widths of the columns. -/
def sizeDeclarations : List Node := [
  "        /** ", banner "--- buffer size ", " */\n",
  "        [[nodiscard]] size_t buffer_size() const noexcept override;\n",
  "      protected:\n",
  "        void resize_storage(size_t rows) override;\n",
  "      public:\n",
  "        /** ", classBanner " buffer widths ", " */\n",
  "        /** ", banner "--- char values length without trailing zero ", " */\n",
  "        /** ", banner "--- atomic and structures size in bytes ", " */\n",
  .forIn "el" (.var "buf" []) [
    "        static constexpr const size_t l_", el "name", " = ", el "size", ";\n"]]

/-- The type of a row, and the views of its strings. -/
def rowStruct : List Node := [
  "        /** ", banner "--- single row, mirrors the database record ", " */\n",
  "        /**\n",
  "         * @brief row-wise view over ", put "class-name", "'s column-wise storage\n",
  "         *\n",
  "         * Every member is a reference into the one and only copy of the data,\n",
  "         * which stays in ", put "class-name", "'s column-wise vectors below - this\n",
  "         * struct adds no storage of its own. The is_..._null members\n",
  "         * reference the length/indicator slot directly (rtl::null_data marks\n",
  "         * a sql NULL), so they read live even if a value is set or nulled\n",
  "         * after this row was fetched.\n",
  "         *\n",
  .ite (.var "is-param" []) [
    "         * Parameter rows are writable: the caller fills them in before the\n",
    "         * statement executes.\n"] [
    "         * Result rows are read-only: a row fetched from the server is not\n",
    "         * something a caller can meaningfully write back.\n"],
  "         */\n",
  "        struct row_t\n",
  "        \x7b\n",
  .forIn "el" (.var "buf" []) [
    .ite (.var "is-param" []) [
      "          std::reference_wrapper< ", el "storage", " > ", el "name", ";\n"] [
      "          std::reference_wrapper<const ", el "storage", "> ", el "name", ";\n"]],
  .forIn "el" (.var "buf" []) [
    .ite (.var "is-param" []) [
      "          std::reference_wrapper<int32_t> is_", el "name", "_null;\n"] [
      "          std::reference_wrapper<const int32_t> is_", el "name", "_null;\n"]],
  "        \x7d; // struct row_t\n",
  .ite (.var "is-param" []) [] [
    .forIn "el" (.var "buf" []) [
      .ite isString [
        "        /**\n",
        "         * @brief row.", el "name", " read live as a view, without a separate call to ",
        el "name", "_length()\n",
        "         *\n",
        "         * Built on every call from the same two row_t references - ", el "name", "\n",
        "         * and is_", el "name", "_null - so it is never stale, even if the underlying\n",
        "         * length changes after this row was fetched. A free function, not a\n",
        "         * row_t member: row_t stays a plain aggregate of references, with no\n",
        "         * behaviour of its own.\n",
        "         */\n",
        "        [[nodiscard]] static ", el "as-result", " ", el "name",
        "_view(const row_t& row) noexcept\n",
        "        \x7b\n",
        "          const auto l = row.is_", el "name", "_null.get();\n",
        "          return \x7brow.", el "name",
        ".get().data(), static_cast<size_t>(l != rtl::null_data ? l : 0)\x7d;\n",
        "        \x7d\n"] []]]]

/-- The members that read and write are declared. -/
def declarations : List Node := [
  "        /** ", banner "--- getters ", " */\n",
  .forIn "el" (.var "buf" []) [
    "        [[nodiscard]]", el "as-result", " ", el "name", "(size_t row=0) const;\n"],
  "        /** ", banner "--- row-wise view ", " */\n",
  "        /**\n",
  "         * @brief one row, as references into the column-wise storage below\n",
  "         *\n",
  "         * row_t has one member per column, each a reference to that column's\n",
  "         * slot for this row - an int/date/... member compares and prints\n",
  "         * like the plain value it wraps. A string or byte column's member is\n",
  "         * a reference to the raw fixed-size array; the matching static\n",
  "         * \"_view(row)\" method reads it together with the length in one call,\n",
  "         * live every time.\n",
  "         *\n",
  "         * @code\n",
  "         *   const auto& row = buf.row(2);            // third row\n",
  "         *   int32_t     id  = row.id.get();           // int\n",
  "         *   dbx::cstr_t name = buf.name_view(row);     // string (c_string)\n",
  "         *   dbx::bcstr_t blob = buf.payload_view(row);  // bytes (b_string)\n",
  "         * @endcode\n",
  "         */\n"]

/-- The rows, the indicators and the lengths, and what sets them. -/
def accessDeclarations : List Node := [
  "        [[nodiscard]]const row_t& row(size_t row=0) const;\n",
  "        [[nodiscard]]const std::vector<row_t>& row_wise() const noexcept;\n",
  "        /** ", banner "--- null getters ", " */\n",
  .forIn "el" (.var "buf" []) [
    "        [[nodiscard]]bool is_", el "name", "_null(size_t row=0) const;\n"],
  "        /** ", banner "--- length getters ", " */\n",
  .forIn "el" (.var "buf" []) [
    "        [[nodiscard]]size_t ", el "name", "_length(size_t row=0) const;\n"],
  .ite (.var "is-param" []) [
    "        /** ", banner "--- setters ", " */\n",
    .forIn "el" (.var "buf" []) [
      "        void set_", el "name", "(const ", el "as-param", "& v, size_t row=0);\n"],
    "        /** ", banner "--- null setters ", " */\n",
    .forIn "el" (.var "buf" []) [
      "        void set_", el "name", "_null(size_t row=0);\n"]] []]

/-- What describes the columns is declared, and what is done to all of them. -/
def descriptionDeclarations : List Node := [
  "        /** ", classBanner " types constant array ", " */\n",
  "        static constexpr rtl::span_buffer_dscr_const buffer_description_const() noexcept;\n",
  "        /** ", banner "--- static interface ", " */\n",
  .ite (.var "is-param" []) [
    "        static constexpr bool   has_parameters() noexcept;\n"] [
    "        static constexpr bool   has_results() noexcept;\n"],
  "        /** ", banner "--- max column name width ", " */\n",
  "        static consteval size_t max_column_name_len() noexcept;\n",
  "        /** ", banner "--- max attribute type name width ", " */\n",
  "        static consteval size_t max_column_type_name_len() noexcept;\n",
  "        /** ", classBanner " max category name width ", " */\n",
  "        static constexpr size_t max_category_name_len() noexcept;\n",
  "        /** ", classBanner " types init array ", " */\n",
  "        [[nodiscard]] rtl::span_buffer_dscr_init buffer_description_init() override;\n",
  .ite (.var "is-param" []) [
    "        /** ", banner "--- mark every field of every row as sql NULL ", " */\n",
    "        /**\n",
    "         * widened to public on purpose: parameter_root keeps it protected\n",
    "         * because most callers reach it through set_..._null(), but a batch\n",
    "         * caller wants to clear every row at once before filling only some -\n",
    "         * see reset_all_null() usage in the tests.\n",
    "         */\n",
    "        void reset_all_null() noexcept override;",
    " // NOLINT(misc-override-with-different-visibility)\n",
    "        /** ", banner "--- per row status of a batch execute ", " */\n",
    "        [[nodiscard]] std::span<uint16_t> row_status() noexcept override;\n",
    "        void                              clear_row_status() noexcept override;\n"] [],
  "        /** ", banner "--- dump ", " */\n",
  "        [[nodiscard]]str_t dump(uint8_t offs=0) const;\n"]

/-- The data members, and the end of the class. -/
def dataMembers : List Node := [
  "      private:\n",
  "        /** ", banner "--- one entry per row of the buffer ", " */\n",
  "        using arr_int32 = std::vector<int32_t>;\n",
  "        using arr_int16 = std::vector<uint16_t>;\n",
  "        /** ", banner "--- members ", " */\n",
  .forIn "el" (.var "buf" []) [
    "        std::vector< ", el "storage", " > ", el "name", "_;\n"],
  "        /** ", banner "--- length or NULL indicators ", " */\n",
  "        /** ", banner "--- positive values actual length ", " */\n",
  .forIn "el" (.var "buf" []) [
    "        arr_int32 len_", el "name", "_;\n"],
  .ite (.var "is-param" []) [
    "        /** ", banner "--- per row status, filled in by the driver on a batch execute ",
    " */\n",
    "        arr_int16 row_status_;\n"] [],
  "        /** ", banner "--- where buffer_description_init() publishes this object's buffers ",
  " */\n",
  "        std::array<rtl::buffer_dscr_init, column_count> dscr_init_\x7b\x7d;\n",
  "        /** ", banner "--- row-wise view, rebuilt whenever the vectors above move ", " */\n",
  "        std::vector<row_t> row_wise_;\n",
  "        void                rebuild_row_wise();\n",
  "    \x7d; // class ", put "class-name",
  " // -------------------------------------------------\n"]

/-- The inline members. -/
def inlineMembers : List Node := [
  "    /** ", banner "--- buffer size ", " */\n",
  "    inline size_t ", put "class-name", "::buffer_size() const noexcept \x7b return ",
  .print (.var "buf" ["0", "name"]), "_.size(); \x7d\n",
  .ite (.var "is-param" []) [
    "    /** ", banner "--- per row status of a batch execute ", " */\n",
    "    inline std::span<uint16_t> ", put "class-name",
    "::row_status() noexcept \x7b return row_status_; \x7d\n",
    "    inline void ", put "class-name",
    "::clear_row_status() noexcept \x7b std::ranges::fill(row_status_, 0); \x7d\n"] [],
  "    /** ", banner "--- getters ", " */\n",
  .forIn "el" (.var "buf" []) [
    "    inline ", el "as-result", " ", put "class-name", "::", el "name", "(size_t row) const ",
    el "getter-code", "\n"],
  "    /** ", banner "--- null getters ", " */\n",
  .forIn "el" (.var "buf" []) [
    "    inline bool ", put "class-name", "::is_", el "name",
    "_null(size_t row) const \x7breturn rtl::null_data == len_", el "name", "_.at(row);\x7d\n"],
  "    /** ", banner "--- row-wise view ", " */\n",
  "    inline const ", put "class-name", "::row_t& ", put "class-name",
  "::row(size_t row) const \x7b return row_wise_.at(row); \x7d\n",
  "    inline const std::vector< ", put "class-name", "::row_t >& ", put "class-name",
  "::row_wise() const noexcept \x7b return row_wise_; \x7d\n"]

/-- The lengths, and the setters. -/
def inlineSetters : List Node := [
  "    /** ", banner "--- length getters ", " */\n",
  .forIn "el" (.var "buf" []) [
    "    inline size_t ", put "class-name", "::", el "name",
    "_length(size_t row) const \x7bauto l = len_", el "name",
    "_.at(row); return (rtl::null_data != l)?l:0;\x7d\n"],
  .ite (.var "is-param" []) [
    "    /** ", banner "--- setters ", " */\n",
    .forIn "el" (.var "buf" []) [
      "    inline void ", put "class-name", "::set_", el "name", "(const ", el "as-param",
      "& v, size_t row) ", el "setter-code", "\n"],
    "    /** ", banner "--- null setters ", " */\n",
    .forIn "el" (.var "buf" []) [
      "    inline void ", put "class-name", "::set_", el "name", "_null(size_t row) \x7b len_",
      el "name", "_.at(row) = rtl::null_data;\x7d\n"]] []]

/-- The array of descriptions begins. -/
def descriptionHead : List Node := [
  "    /** ", classBanner " types constant array ", " */\n",
  "    constexpr rtl::span_buffer_dscr_const ", put "class-name",
  "::buffer_description_const() noexcept\n",
  "    \x7b\n",
  "      constexpr static const",
  " std::array<rtl::buffer_dscr_const, column_count> arr = \x7b\x7b\n",
  "        // clang-format off\n"]

/-- The description of a column. -/
def descriptionRow : List Node := [
  "        \x7b", .print (.fn (.callback "pad") [.var "el" ["name"], .num 17, "\"", "\","]),
  " rtl::schema::sql_cat::",
  .print (.fn (.callback "pad") [.var "el" ["category"], .num 10, "", ","]), " ",
  .print (.fn (.callback "pad") [.var "el" ["base-type"], .num 24, "\"", "\", "]),
  "rtl::schema::sql_type::", .print (.fn (.callback "pad") [.var "el" ["type"], .num 26, "", ", "]),
  .print (.fn (.callback "lpad") [.var "el" ["size"], .num 6, "", ", "]),
  .print (.fn (.callback "lpad") [.var "el" ["digits"], .num 2]), "\x7d,\n"]

/-- The array ends. -/
def descriptionTail : List Node := [
  "        // clang-format on\n",
  "      \x7d\x7d;\n",
  "      return arr;\n",
  "    \x7d\n",
  "    /** ", banner "--- static interface ", " */\n",
  .ite (.var "is-param" []) [
    "    constexpr bool ", put "class-name",
    "::has_parameters() noexcept \x7b return ! buffer_description_const().empty(); \x7d\n"] [
    "    constexpr bool ", put "class-name",
    "::has_results() noexcept \x7b return ! buffer_description_const().empty(); \x7d\n"],
  "    /** ", banner "--- widths of the description columns, for dump() ", " */\n"]

/-- The widths for `dump`. -/
def widthMembers : List Node := [
  "    consteval size_t ", put "class-name", "::max_column_name_len() noexcept\n",
  "    \x7b\n",
  "      size_t max = 0; // NOLINT(misc-const-correctness) - reassigned in the loop below\n",
  "      for (const auto& el: buffer_description_const())\n",
  "        max = std::max(el.name.size(), max);\n",
  "      return max;\n",
  "    \x7d\n",
  "    consteval size_t ", put "class-name", "::max_column_type_name_len() noexcept\n",
  "    \x7b\n",
  "      size_t max = 0; // NOLINT(misc-const-correctness) - reassigned in the loop below\n",
  "      for (const auto& el: buffer_description_const())\n",
  "        max = std::max(el.base_type.size(), max);\n",
  "      return max;\n",
  "    \x7d\n"]

/-- The width of the categories. -/
def categoryWidth : List Node := [
  "    constexpr size_t ", put "class-name", "::max_category_name_len() noexcept\n",
  "    \x7b\n",
  "      size_t max = 0; // NOLINT(misc-const-correctness) - reassigned in the loop below\n",
  "      for (const auto& el: buffer_description_const())\n",
  "        switch(el.category)\n",
  "        \x7b\n",
  "          // clang-format off\n",
  "          case rtl::schema::sql_cat::atomic:   ",
  " \x7bmax = std::max(cstr_t(\"atomic\").size(), max); break;\x7d\n",
  "          case rtl::schema::sql_cat::structure: \x7bmax",
  " = std::max(cstr_t(\"structure\").size(), max); break;\x7d\n",
  "          case rtl::schema::sql_cat::c_string:  \x7bmax",
  " = std::max(cstr_t(\"c_string\").size(), max); break;\x7d\n",
  "          case rtl::schema::sql_cat::w_string:  \x7bmax",
  " = std::max(cstr_t(\"w_string\").size(), max); break;\x7d\n",
  "          case rtl::schema::sql_cat::b_string:  \x7bmax",
  " = std::max(cstr_t(\"b_string\").size(), max); break;\x7d\n",
  "          default: \x7bbreak;\x7d\n",
  "          // clang-format on\n",
  "        \x7d\n",
  "      return max;\n",
  "    \x7d\n"]

/-- `buf_hpp.jinja`. -/
def bufHpp : List Node :=
  classHead ++ (constructorDeclarations ++ (sizeDeclarations ++ (rowStruct ++ (declarations ++
    (accessDeclarations ++ (descriptionDeclarations ++ (dataMembers ++ (inlineMembers ++
      (inlineSetters ++ (descriptionHead ++ (.forIn "el" (.var "buf" []) descriptionRow ::
        (descriptionTail ++ (widthMembers ++ categoryWidth)))))))))))))

/-! ## The source -/

/-- The number of the first argument for a column. -/
def slot : Expr := .fn .add [.num 5, .fn .mul [.var "loop" ["index"], .num 4]]

/-- The constructor, and the size of the buffer. -/
def sizeMembers : List Node := [
  "/** ", banner "--- construction ", " */\n",
  "    ", put "class-name", "::", put "class-name",
  "(size_t rows) \x7b set_buffer_size(rows); \x7d\n",
  "    /** ", banner "--- buffer dimension ", " */\n",
  "    void ", put "class-name", "::resize_storage(size_t rows)\n",
  "    \x7b\n",
  .forIn "el" (.var "buf" []) [
    "      ", el "name", "_.assign(rows, \x7b\x7d);\n",
    "      len_", el "name", "_.assign(rows, 0);\n"],
  .ite (.var "is-param" []) [
    "      row_status_.assign(rows, 0);\n"] []]

/-- The pointers follow the vectors. -/
def resizeEnd : List Node := [
  "      /** the vectors have just moved - republish the pointers into them */\n",
  "      // set_buffer_size() (called from the constructor above) reaches this\n",
  "      // override through ", put "root-class", "'s non-virtual wrapper, and the call\n",
  "      // below is to another override that already belongs to ", put "class-name", ",\n",
  "      // not to ", put "root-class", " - safe, but indistinguishable to the analyzer\n",
  "      // from genuine virtual dispatch out of a base class constructor.\n",
  "      static_cast<void>(buffer_description_init());",
  " // NOLINT(clang-analyzer-optin.cplusplus.VirtualCall)\n",
  "      rebuild_row_wise();\n",
  "    \x7d\n"]

/-- The row-wise view, and where the columns are. -/
def rowWiseMembers : List Node := [
  "    /** ", banner "--- row-wise view, addresses only valid until the next resize ", " */\n",
  "    void ", put "class-name", "::rebuild_row_wise()\n",
  "    \x7b\n",
  "      row_wise_.clear();\n",
  "      row_wise_.reserve(buffer_size());\n",
  "      for (size_t row = 0; row < buffer_size(); ++row)\n",
  "        row_wise_.push_back(row_t\x7b\n",
  .forIn "el" (.var "buf" []) [
    "          .", el "name", " = ", el "name", "_.at(row),\n"],
  .forIn "el" (.var "buf" []) [
    "          .is_", el "name", "_null = len_", el "name", "_.at(row),\n"],
  "        \x7d);\n",
  "    \x7d\n"]

/-- Where the columns are, and how all of them become NULL. -/
def initMembers : List Node := [
  "    /** ", classBanner " types init array ", " */\n",
  "    rtl::span_buffer_dscr_init ", put "class-name", "::buffer_description_init()\n",
  "    \x7b\n",
  "        dscr_init_ =\n",
  "        \x7b\x7b\n",
  .forIn "el" (.var "buf" []) [
    "            \x7b ", el "name", "_.data(), len_", el "name", "_.data(), sizeof(", el "name",
    "_.at(0)) \x7d,\n"],
  "        \x7d\x7d;\n",
  "        return dscr_init_;\n",
  "    \x7d;\n",
  .ite (.var "is-param" []) [
    "    /** ", banner "--- mark every field of every row as sql NULL ", " */\n",
    "    void ", put "class-name", "::reset_all_null() noexcept\n",
    "    \x7b\n",
    .forIn "el" (.var "buf" []) [
      "      std::ranges::fill(len_", el "name", "_, rtl::null_data);\n"],
    "      std::ranges::fill(row_status_, 0);\n",
    "    \x7d\n"] [],
  "    /** ", banner "--- dump ", " */\n",
  "    [[nodiscard]]str_t ", put "class-name", "::dump(uint8_t offs) const\n",
  "    \x7b\n",
  "      constexpr const char* fmt = R\"FMT("]

/-- The format of `dump`. -/
def dumpFormat : List Node := [
  "\n",
  "\x7b1\x7drec: \x7b0:\x7d:",
  .forIn "el" (.var "buf" []) [
    "\n",
    "\x7b1\x7d  \x7b", .print slot, ":\x7b2\x7d\x7d cat: \x7b",
    .print (.fn .add [slot, .num 1]), ":\x7b3\x7d\x7d type: \x7b",
    .print (.fn .add [slot, .num 2]), ":\x7b4\x7d\x7d value: '\x7b",
    .print (.fn .add [slot, .num 3]), "\x7d'"]]

/-- What `dump` does, up to the values of the columns. -/
def dumpLoop : List Node := [
  ")FMT\";\n",
  "      /**\n",
  "       * one branch, called once per column below, instead of a ternary\n",
  "       * spelled out at every call site - readability-function-cognitive-complexity\n",
  "       * counts each inline ternary against this function, and a wide buffer\n",
  "       * has one per column. Returns by value, not by reference: value is a\n",
  "       * column's formatted str_t, alive only for this call, so handing back\n",
  "       * a reference to it (or to a shared \"NULL\" one) would dangle the\n",
  "       * moment the caller's temporary goes away.\n",
  "       */\n",
  "      const auto or_null = [](bool is_null, const",
  " str_t& value) -> str_t // NOLINT(*swappable-parameters)\n",
  "      \x7b return is_null ? \"NULL\" : value; \x7d;\n",
  "      str_t offs_str(offs*2UL, '.');\n",
  "      str_t s;\n",
  .forIn "el" (.var "buf" []) [
    "      str_t str_", el "name", ";\n"],
  "      for (auto n=0UL; n < buffer_size(); n++)\n",
  "      \x7b\n",
  .forIn "el" (.var "buf" []) [
    "        str_", el "name", " = fmt::format(\"\x7b\x7d\", ", el "dump-value", ");\n"],
  "        s +=  fmt::format(fmt, n, offs_str,",
  " max_column_name_len(), max_category_name_len(), max_column_type_name_len(), "]

/-- The arguments for the columns. -/
def dumpArguments : List Node := [
  .forIn "el" (.var "buf" []) [
    "\"", el "name", "\", \"", el "category", "\",\n",
    "        \"", el "storage-raw", "\", or_null(is_", el "name", "_null(n), str_", el "name", ")",
    .ite (.fn .ne [.var "el" [], .fn .last [.var "buf" []]]) [
      ", "] []]]

/-- The end. -/
def dumpEnd : List Node := [
  ");\n",
  "        \x7d\n",
  "        return s;\n",
  "    \x7d\n",
  "\n"]

/-- `buf_cpp.jinja`. -/
def bufCpp : List Node := [
  .ite (.fn .gt [.fn .length [.var "buf" []], .num 0])
    (sizeMembers ++ (resizeEnd ++ (rowWiseMembers ++ (initMembers ++ (dumpFormat ++ (dumpLoop ++
      (dumpArguments ++ dumpEnd))))))) []]

end Dbgen4.Gen.Jinja
