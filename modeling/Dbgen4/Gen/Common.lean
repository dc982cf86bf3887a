import Mathlib.Data.List.DropRight
import Mathlib.Data.String.Basic

/-!
# Texts

The functions of the generator on texts (`common/common.cpp`), a text being the list
of its characters.
-/

namespace Dbgen4.Gen

/-- `std::isspace`. -/
def isSpace (c : Char) : Bool :=
  c = ' ' ∨ c = '\t' ∨ c = '\n' ∨ c = '\x0b' ∨ c = '\x0c' ∨ c = '\r'

/-- `trim_whitespace_view`. -/
def trimWhitespaceView (s : List Char) : List Char :=
  (s.dropWhile isSpace).rdropWhile isSpace

/-- `trim_whitespace_view` of a string. -/
def trimWhitespace (s : String) : String := String.ofList (trimWhitespaceView s.toList)

/-- `std::getline` until there is no more: the segments that the delimiters end, and what is left
    after the last one unless it is empty. -/
def getlines (delimiter : Char) : List Char → List (List Char)
  | [] => []
  | c :: cs =>
    if c = delimiter then [] :: getlines delimiter cs
    else match getlines delimiter cs with
      | [] => [[c]]
      | line :: lines => (c :: line) :: lines

/-- `prefix_split`. -/
def prefixSplit (input : List Char) (delimiter : Char) (pre : List Char) : List (List Char) :=
  (getlines delimiter input).map (pre ++ ·)

/-- `join`. -/
def join (o : List (List Char)) (delim : List Char) : List Char :=
  let s := o.flatMap (· ++ delim)
  if s.isEmpty then s else s.take (s.length - delim.length)

end Dbgen4.Gen
