import Mathlib.Data.List.Basic

/-!
# Identifiers of C++

The grammar of identifiers: a letter or an underscore, and then letters, digits and underscores,
where the word is no keyword. Beyond ASCII, the letters are those of Unicode's tables `XID_Start`
and `XID_Continue`, which are not repeated here (`Alphabet`); `Alphabet.ascii` has no others.
-/

namespace Cpp

/-- What identifiers are made of. -/
structure Alphabet where
  /-- `XID_Start`. -/
  start : Char → Bool
  /-- `XID_Continue`. -/
  continues : Char → Bool
  start_ascii : ∀ c : Char, c.toNat < 128 → start c = c.isAlpha
  continues_ascii : ∀ c : Char, c.toNat < 128 → continues c = (c.isAlphanum || c == '_')

/-- The letters of ASCII. -/
def Alphabet.ascii : Alphabet where
  start c := c.isAlpha
  continues c := c.isAlphanum || c == '_'
  start_ascii _ _ := rfl
  continues_ascii _ _ := rfl

/-- The keywords of C++23, and the operators that are written as words. -/
def keywords : List String :=
  ["alignas", "alignof", "asm", "auto", "bool", "break", "case", "catch", "char", "char8_t",
    "char16_t", "char32_t", "class", "concept", "const", "consteval", "constexpr", "constinit",
    "const_cast", "continue", "co_await", "co_return", "co_yield", "decltype", "default", "delete",
    "do", "double", "dynamic_cast", "else", "enum", "explicit", "export", "extern", "false",
    "float", "for", "friend", "goto", "if", "inline", "int", "long", "mutable", "namespace", "new",
    "noexcept", "nullptr", "operator", "private", "protected", "public", "register",
    "reinterpret_cast", "requires", "return", "short", "signed", "sizeof", "static",
    "static_assert", "static_cast", "struct", "switch", "template", "this", "thread_local",
    "throw", "true", "try", "typedef", "typeid", "typename", "union", "unsigned", "using",
    "virtual", "void", "volatile", "wchar_t", "while", "and", "and_eq", "bitand", "bitor", "compl",
    "not", "not_eq", "or", "or_eq", "xor", "xor_eq"]

variable (A : Alphabet)

/-- A name is an identifier. -/
def IsIdentifier : List Char → Prop
  | [] => False
  | c :: cs => (c = '_' ∨ A.start c = true) ∧ (∀ d ∈ cs, A.continues d = true) ∧
      ∀ k ∈ keywords, c :: cs ≠ k.toList

theorem Alphabet.continues_underscore : A.continues '_' = true :=
  A.continues_ascii '_' (by decide)

/-- No keyword has a hyphen. -/
theorem hyphen_notMem : ∀ k ∈ keywords, '-' ∉ k.toList := by
  decide +kernel

end Cpp
