import Mathlib.Data.Int.Notation
import Mathlib.Data.List.Basic
import Mathlib.Logic.Function.Basic

/-!
# A template language

Templates in the manner of inja: text, printed expressions, assignments, conditionals and
loops over arrays, rendered with a JSON value. A variable is looked up among the locals,
which are what assignments and loops leave behind, and then in the data (`Env.lookup`).
The locals outlive a loop: the next iteration, and what follows the loop, find what the
last one has assigned (`Node.render`).
-/

namespace Template

/-- A text. -/
abbrev Text := List Char

/-- A JSON value; the numbers are integers. -/
inductive Json
  | null
  | bool (b : Bool)
  | int (n : ℤ)
  | str (s : Text)
  | arr (elements : List Json)
  | obj (fields : List (String × Json))

/-- Why a rendering stops. -/
inductive RenderError
  /-- No variable of this name. -/
  | notFound (path : List String)
  /-- A loop over what is no array. -/
  | notArray
  /-- Operands of the wrong types, or not as many as there should be. -/
  | operands
  /-- No function of this name. -/
  | unknownFunction (name : String)
  deriving DecidableEq

/-! ## JSON -/

/-- The numeral of an integer. -/
def decimal (n : ℤ) : Text :=
  if n < 0 then '-' :: Nat.toDigits 10 n.natAbs else Nat.toDigits 10 n.natAbs

/-- The number of bytes of a text. -/
def Text.size (s : Text) : ℕ := (String.ofList s).utf8ByteSize

/-- The index that a token of a path stands for. -/
def arrayIndex (token : String) : Option ℕ :=
  if token.toList ≠ [] ∧ token.toList.all Char.isDigit then
    some (token.toList.foldl (fun n c => 10 * n + (c.toNat - '0'.toNat)) 0)
  else none

namespace Json

/-- The value behind one token of a path. -/
def get? : Json → String → Option Json
  | arr elements, token => (arrayIndex token).bind (elements[·]?)
  | obj fields, token => fields.lookup token
  | _, _ => none

/-- The value at a path. -/
def at? (j : Json) : List String → Option Json
  | [] => some j
  | token :: path => (j.get? token).bind (·.at? path)

mutual

/-- Equality. -/
def beq : Json → Json → Bool
  | null, null => true
  | bool b, bool b' => b == b'
  | int n, int n' => n == n'
  | str s, str s' => s == s'
  | arr l, arr l' => beqElements l l'
  | obj l, obj l' => beqFields l l'
  | _, _ => false

/-- Equality, element by element. -/
def beqElements : List Json → List Json → Bool
  | [], [] => true
  | j :: l, j' :: l' => beq j j' && beqElements l l'
  | _, _ => false

/-- Equality, field by field. -/
def beqFields : List (String × Json) → List (String × Json) → Bool
  | [], [] => true
  | (k, j) :: l, (k', j') :: l' => k == k' && beq j j' && beqFields l l'
  | _, _ => false

end

/-- Only null and a container can be empty. -/
def isEmpty : Json → Bool
  | null => true
  | arr elements => elements.isEmpty
  | obj fields => fields.isEmpty
  | _ => false

/-- Whether a condition holds. -/
def truthy : Json → Bool
  | bool b => b
  | int n => n != 0
  | j => !j.isEmpty

/-- The empty value of the same type. -/
def clear : Json → Json
  | null => null
  | bool _ => bool false
  | int _ => int 0
  | str _ => str []
  | arr _ => arr []
  | obj _ => obj []

/-- What is printed. Containers are not. -/
def print : Json → Except RenderError Text
  | null => .ok []
  | bool b => .ok (if b then ['t', 'r', 'u', 'e'] else ['f', 'a', 'l', 's', 'e'])
  | int n => .ok (decimal n)
  | str s => .ok s
  | arr _ | obj _ => .error .operands

/-- The number of bytes, elements or fields. -/
def length : Json → ℕ
  | null => 0
  | bool _ | int _ => 1
  | str s => Text.size s
  | arr elements => elements.length
  | obj fields => fields.length

end Json

/-! ## Expressions -/

/-- The functions there are, by name and number of arguments. -/
abbrev Callbacks := String → ℕ → Option (List Json → Except RenderError Json)

/-- What a function node does. -/
inductive Operation
  | length | last
  | add | mul
  | gt | eq | ne
  | callback (name : String)
  deriving DecidableEq

/-- An operation on the values of its operands. -/
def Operation.apply (cs : Callbacks) : Operation → List Json → Except RenderError Json
  | length, [j] => .ok (.int j.length)
  | last, [.arr elements] => match elements.getLast? with
    | some j => .ok j
    | none => .error .operands
  | add, [.str s, .str s'] => .ok (.str (s ++ s'))
  | add, [.int n, .int n'] => .ok (.int (n + n'))
  | mul, [.int n, .int n'] => .ok (.int (n * n'))
  | gt, [.int n, .int n'] => .ok (.bool (n' < n))
  | eq, [j, j'] => .ok (.bool (j.beq j'))
  | ne, [j, j'] => .ok (.bool !(j.beq j'))
  | callback f, vs => match cs f vs.length with
    | some function => function vs
    | none => .error (.unknownFunction f)
  | _, _ => .error .operands

/-- An expression. -/
inductive Expr
  | lit (v : Json)
  | var (x : String) (path : List String)
  | and (a b : Expr)
  | or (a b : Expr)
  | fn (op : Operation) (args : List Expr)

/-- A string stands for itself. -/
instance : Coe String Expr := ⟨fun s => .lit (.str s.toList)⟩

/-- A number. -/
def Expr.num (n : ℤ) : Expr := .lit (.int n)

/-- The data and the locals. -/
structure Env where
  data : Json
  locals : String → Option Json

namespace Env

variable (env : Env)

/-- A variable: a local, if there is one with all of the path, or else in the data. -/
def lookup (x : String) (path : List String) : Option Json :=
  ((env.locals x).bind (·.at? path)).or (env.data.at? (x :: path))

/-- An assignment. -/
def set (x : String) (v : Json) : Env :=
  { env with locals := Function.update env.locals x (some v) }

/-- The environment that a rendering starts in. There is a `loop` from the beginning. -/
def start (data : Json) : Env :=
  ⟨data, Function.update (fun _ => none) "loop" (some .null)⟩

end Env

mutual

/-- The value of an expression. -/
def Expr.eval (cs : Callbacks) (env : Env) : Expr → Except RenderError Json
  | lit v => .ok v
  | var x path => match env.lookup x path with
    | some v => .ok v
    | none => .error (.notFound (x :: path))
  | and a b => do
    if (← a.eval cs env).truthy then return .bool (← b.eval cs env).truthy
    else return .bool false
  | or a b => do
    if (← a.eval cs env).truthy then return .bool true
    else return .bool (← b.eval cs env).truthy
  | fn op args => do op.apply cs (← Expr.evalAll cs env args)

/-- The values of the operands. -/
def Expr.evalAll (cs : Callbacks) (env : Env) : List Expr → Except RenderError (List Json)
  | [] => .ok []
  | e :: es => do return (← e.eval cs env) :: (← Expr.evalAll cs env es)

end

/-! ## Templates -/

/-- A part of a template. A template is a list of parts. -/
inductive Node
  | text (s : Text)
  | print (e : Expr)
  | set (x : String) (e : Expr)
  | ite (c : Expr) (t f : List Node)
  | forIn (x : String) (e : Expr) (body : List Node)

/-- A string stands for itself. -/
instance : Coe String Node := ⟨fun s => .text s.toList⟩

/-- What `loop` says before the first of `n` iterations. -/
def loopStart (n : ℕ) : Json := .obj [("is_first", .bool true), ("is_last", .bool (n ≤ 1))]

/-- What `loop` says in iteration `i` of `n`. -/
def loopData (i n : ℕ) : Json :=
  .obj [("index", .int i), ("index1", .int (i + 1)), ("is_first", .bool (i = 0)),
    ("is_last", .bool (i + 1 = n))]

namespace Env

variable (env : Env)

/-- An iteration begins. -/
def enter (x : String) (v : Json) (i n : ℕ) : Env := (env.set x v).set "loop" (loopData i n)

/-- A loop ends: its variable is cleared, and `loop` is what it has been, if that was anything. -/
def leave (x : String) (saved : Option Json) : Env :=
  let env := env.set x (((env.locals x).map Json.clear).getD .null)
  match saved with
  | some v => if v.isEmpty then env else env.set "loop" v
  | none => env

end Env

/-- The iterations of a loop, one after the other, from number `i` on. -/
def iterate (body : Env → Except RenderError (Text × Env)) (x : String) (n : ℕ) :
    ℕ → List Json → Env → Except RenderError (Text × Env)
  | _, [], env => .ok ([], env)
  | i, v :: vs, env => do
    let (s, env) ← body (env.enter x v i n)
    let (s', env) ← iterate body x n (i + 1) vs env
    return (s ++ s', env)

mutual

/-- The text of a part, and the environment that it leaves. -/
def Node.render (cs : Callbacks) : Node → Env → Except RenderError (Text × Env)
  | text s, env => .ok (s, env)
  | print e, env => do
    let s ← (← e.eval cs env).print
    return (s, env)
  | set x e, env => do
    let v ← e.eval cs env
    return ([], env.set x v)
  | ite c t f, env => do
    if (← c.eval cs env).truthy then Node.renderAll cs t env else Node.renderAll cs f env
  | forIn x e body, env => do
    let .arr vs ← e.eval cs env | .error .notArray
    let (s, env') ← iterate (Node.renderAll cs body) x vs.length 0 vs
      (env.set "loop" (loopStart vs.length))
    return (s, env'.leave x (env.locals "loop"))

/-- The text of the parts one after the other. -/
def Node.renderAll (cs : Callbacks) : List Node → Env → Except RenderError (Text × Env)
  | [], env => .ok ([], env)
  | node :: nodes, env => do
    let (s, env) ← node.render cs env
    let (s', env) ← Node.renderAll cs nodes env
    return (s ++ s', env)

end

/-- A template rendered with data. -/
def render (cs : Callbacks) (t : List Node) (data : Json) : Except RenderError Text := do
  return (← Node.renderAll cs t (Env.start data)).1

end Template
