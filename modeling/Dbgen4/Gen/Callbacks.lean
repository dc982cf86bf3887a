import Mathlib.Algebra.Order.Group.Int
import Dbgen4.Gen.Attributes
import Dbgen4.Gen.MainTemplates

/-!
# Rendering

The functions that the templates call (`register_callbacks` in `gen/generator.cpp`), and the
rendering of the two files (`generate_file_through_template`). `pad` and `lpad` fill a text up to
a width in bytes; `buffer-definition` and `buffer-implementation` render the templates of a
buffer, which call `pad` and `lpad` only.
-/

namespace Dbgen4.Gen

open Template

/-! ## Arguments -/

/-- `to_str`. A container is not dumped. -/
def toStr : Json → Except RenderError Text
  | .null => .ok []
  | .str s => .ok s
  | .int n => .ok (decimal n)
  | .bool b => .ok (if b then "true".toList else "false".toList)
  | .arr _ | .obj _ => .error .operands

/-- `get<std::string>`. -/
def getString : Json → Except RenderError Text
  | .str s => .ok s
  | _ => .error .operands

/-- `get<size_t>`. -/
def getSize : Json → Except RenderError ℕ
  | .int n => .ok (n % 2 ^ 64).toNat
  | .bool b => .ok b.toNat
  | _ => .error .operands

/-- `get<int>`. -/
def getInt : Json → Except RenderError ℤ
  | .int n => .ok (n.bmod (2 ^ 32))
  | .bool b => .ok b.toNat
  | _ => .error .operands

/-- An argument that may be missing. -/
def optional (args : List Json) (i : ℕ) (fallback : Text) : Except RenderError Text :=
  match args[i]? with
  | some arg => getString arg
  | none => .ok fallback

/-! ## `pad` and `lpad` -/

/-- What both make of their arguments: the text, with what goes around it, and what fills it up.
    The given character is the one for a fill character that is the empty text. -/
def padding (padChar : Char) : List Json → Except RenderError (Text × Text)
  | arg :: len :: args => do
    let str ← toStr arg
    let len ← getSize len
    let leading ← optional args 0 []
    let trailing ← optional args 1 leading
    let fillChar ← optional args 2 [' ']
    let str := leading ++ str ++ trailing
    return (str, List.replicate (len - Text.size str) (fillChar.headD padChar))
  | _ => .error .operands

/-- `pad_impl`. -/
def padImpl (args : List Json) : Except RenderError Json := do
  let (str, pad) ← padding ' ' args
  return .str (str ++ pad)

/-- `lpad_impl`. -/
def lpadImpl (args : List Json) : Except RenderError Json := do
  let (str, pad) ← padding '-' args
  return .str (pad ++ str)

/-- What a buffer template calls. -/
def padCallbacks : Callbacks := fun name _ =>
  if name = "pad" then some padImpl
  else if name = "lpad" then some lpadImpl
  else none

/-! ## The templates of a buffer -/

/-- `trim_trailing_whitespace_view`. -/
def trimTrailingWhitespaceView (s : Text) : Text := s.rdropWhile isSpace

/-- What a buffer template is rendered with, for the columns of a buffer and the name of its
    class. -/
def bufferData (buf : Json) (className : Text) : List (String × Json) :=
  let isParam : Bool := className = ['p']
  [("buf", buf), ("class-name", .str className), ("is-param", .bool isParam),
    ("root-class",
      .str (if isParam then "rtl::parameter_root".toList else "rtl::result_root".toList))]

/-- `buffer-definition`. -/
def bufferDefinition : List Json → Except RenderError Json
  | [buf, className, bufSize] => do
    let className ← getString className
    let bufSize ← getInt bufSize
    let out ← render padCallbacks Jinja.bufHpp
      (.obj (("buf-size", .int bufSize) :: bufferData buf className))
    return .str (trimTrailingWhitespaceView out)
  | _ => .error .operands

/-- `buffer-implementation`. -/
def bufferImplementation : List Json → Except RenderError Json
  | [buf, className] => do
    let className ← getString className
    let out ← render padCallbacks Jinja.bufCpp (.obj (bufferData buf className))
    return .str (trimTrailingWhitespaceView out)
  | _ => .error .operands

/-- `register_callbacks`. -/
def callbacks : Callbacks := fun name n =>
  if name = "buffer-definition" ∧ n = 3 then some bufferDefinition
  else if name = "buffer-implementation" ∧ n = 2 then some bufferImplementation
  else padCallbacks name n

/-! ## The files -/

/-- The template of a file. -/
def Tpl.nodes : Tpl → List Node
  | .hpp => Jinja.mainHpp
  | .cpp => Jinja.mainCpp

/-- `generate_file_through_template`. What a json value is not, it throws. -/
def generateFileThroughTemplate (data : Json) (tpl : Tpl) : Rendered :=
  match Template.render callbacks tpl.nodes data with
  | .ok contents => .text contents
  | .error (.notFound _) | .error .notArray => .error .render
  | .error .operands => .throws
  | .error (.unknownFunction _) => .error .parser

/-- What `generate` renders for a file of statements. -/
def generated (outFolder : String) (tpl : Tpl) (barename : List Char) (timestamp : String)
    (s : DataStatements) : Rendered :=
  generateFileThroughTemplate (internalModelToJson outFolder.toList barename timestamp s) tpl

end Dbgen4.Gen
