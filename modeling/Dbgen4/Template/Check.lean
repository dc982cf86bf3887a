import Mathlib.Data.Option.Basic
import Dbgen4.Template.Rules

/-!
# Checking a template

A template is checked against the types of its data (`Node.check`): every variable must be
there, with a type that fits its use. The types are precise enough to decide conditions on
the length of an array, whose other branch is then not looked at, and an array may have
elements of several types, each of which a loop is checked for. What is rendered is abstracted
along with it, in any `Domain`: an abstract text for every text, closed under appending.

`Node.checkAll_sound`: a checked template renders, whatever else there is, and its text is
as the check says.
-/

namespace Template

variable {α : Type}

/-! ## Abstract texts -/

/-- An abstraction of texts. -/
structure Domain (α : Type) where
  /-- The texts an abstract text stands for. -/
  Holds : α → Text → Prop
  /-- A given text. -/
  lit : Text → α
  /-- One text after the other. -/
  append : α → α → α
  /-- One text or the other. -/
  join : α → α → α
  /-- Any number of texts. -/
  star : α → α
  /-- The numeral of an integer. -/
  int : α
  holds_lit : ∀ s, Holds (lit s) s
  holds_append : ∀ {a b s t}, Holds a s → Holds b t → Holds (append a b) (s ++ t)
  holds_join_left : ∀ {a b s}, Holds a s → Holds (join a b) s
  holds_join_right : ∀ {a b s}, Holds b s → Holds (join a b) s
  holds_star : ∀ {a} {l : List Text}, (∀ s ∈ l, Holds a s) → Holds (star a) l.flatten
  holds_int : ∀ n, Holds int (decimal n)

/-! ## Types -/

/-- The type of a value. -/
inductive Ty (α : Type)
  | exact (v : Json)
  | str (a : α)
  | int
  /-- A positive number. -/
  | pos
  | bool
  /-- An array whose elements are each of one of the types. -/
  | arr (nonempty : Bool) (alternatives : List (Ty α))
  /-- What has these fields. -/
  | obj (fields : List (String × Ty α))

mutual

/-- The values of a type. -/
def Ty.Holds (D : Domain α) : Ty α → Json → Prop
  | exact v, j => j = v
  | str a, j => ∃ s, j = .str s ∧ D.Holds a s
  | int, j => ∃ n, j = .int n
  | pos, j => ∃ n, j = .int n ∧ 0 < n
  | bool, j => ∃ b, j = .bool b
  | arr nonempty ts, j =>
    ∃ vs, j = .arr vs ∧ (nonempty = true → vs ≠ []) ∧ ∀ v ∈ vs, Ty.HoldsAny D ts v
  | obj fields, j => Ty.HoldsFields D fields j

/-- The values of one of the types. -/
def Ty.HoldsAny (D : Domain α) : List (Ty α) → Json → Prop
  | [], _ => False
  | t :: ts, j => t.Holds D j ∨ Ty.HoldsAny D ts j

/-- The values with these fields. -/
def Ty.HoldsFields (D : Domain α) : List (String × Ty α) → Json → Prop
  | [], _ => True
  | (k, t) :: fields, j => (∃ v, j.get? k = some v ∧ t.Holds D v) ∧ Ty.HoldsFields D fields j

end

/-- What is known of the sign of a number. -/
inductive Sign
  | zero | pos | any
  deriving DecidableEq

/-- The numbers of a sign. -/
def Sign.Holds : Sign → ℤ → Prop
  | zero, n => n = 0
  | pos, n => 0 < n
  | any, _ => True

namespace Ty

/-- The sign of a number. -/
def sign : Ty α → Option Sign
  | int => some .any
  | pos => some .pos
  | exact (.int n) => some (if n = 0 then .zero else if 0 < n then .pos else .any)
  | _ => none

/-- A number of this sign. -/
def ofSign : Sign → Ty α
  | .zero => exact (.int 0)
  | .pos => pos
  | .any => int

/-- The abstraction of a text. -/
def text? (D : Domain α) : Ty α → Option α
  | str a => some a
  | exact (.str s) => some (D.lit s)
  | _ => none

/-- The abstraction of what is printed. -/
def print (D : Domain α) (t : Ty α) : Option α :=
  (t.text? D).or (t.sign.map fun _ => D.int)

/-- Whether a condition holds, where the type says so. -/
def truthy? : Ty α → Option Bool
  | exact v => some v.truthy
  | str _ | pos | arr true _ => some true
  | arr false [] => some false
  | _ => none

/-- The type of a condition. -/
def ofCondition : Option Bool → Ty α
  | some b => exact (.bool b)
  | none => bool

/-- The type behind one token of a path. -/
def get? : Ty α → String → Option (Ty α)
  | exact v, token => (v.get? token).map exact
  | arr true [t], token => if arrayIndex token = some 0 then some t else none
  | obj fields, token => fields.lookup token
  | _, _ => none

/-- The type at a path. -/
def at? (t : Ty α) : List String → Option (Ty α)
  | [] => some t
  | token :: path => (t.get? token).bind (·.at? path)

/-- The type of the length. -/
def length : Ty α → Option (Ty α)
  | exact v => some (exact (.int v.length))
  | str _ => some int
  | arr true _ => some pos
  | arr false [] => some (exact (.int 0))
  | arr false (_ :: _) => some int
  | _ => none

/-- The type of a sum. -/
def add (D : Domain α) (t t' : Ty α) : Option (Ty α) :=
  match t.text? D, t'.text? D with
  | some a, some b => some (str (D.append a b))
  | _, _ => match t.sign, t'.sign with
    | some .zero, some s | some s, some .zero => some (ofSign s)
    | some .pos, some .pos => some pos
    | some _, some _ => some int
    | _, _ => none

/-- Whether the first number is the greater one, where the types say so. -/
def gt? (t t' : Ty α) : Option (Option Bool) :=
  match t.sign, t'.sign with
  | some .pos, some .zero => some (some true)
  | some .zero, some .zero | some .zero, some .pos => some (some false)
  | some _, some _ => some none
  | _, _ => none

/-- Whether two values are equal, where the types say so. -/
def eq? (t t' : Ty α) : Option Bool :=
  match t.sign, t'.sign with
  | some .zero, some .zero => some true
  | some .pos, some .zero | some .zero, some .pos => some false
  | _, _ => none

end Ty

/-- The types of the functions: of the result, by those of the arguments. -/
abbrev Sig (α : Type) := String → List (Ty α) → Option (Ty α)

/-- The type of an operation. -/
def Operation.type (D : Domain α) (sig : Sig α) : Operation → List (Ty α) → Option (Ty α)
  | length, [t] => t.length
  | last, [.arr true [t]] => some t
  | add, [t, t'] => t.add D t'
  | mul, [t, t'] => if t.sign.isSome ∧ t'.sign.isSome then some .int else none
  | gt, [t, t'] => (t.gt? t').map .ofCondition
  | eq, [t, t'] => some (.ofCondition (t.eq? t'))
  | ne, [t, t'] => some (.ofCondition ((t.eq? t').map (! ·)))
  | callback f, ts => sig f ts
  | _, _ => none

/-! ## The check -/

/-- The types of the data and of the locals, but for the stale ones. -/
structure Scope (α : Type) where
  data : List (String × Ty α)
  locals : List (String × Ty α) := []
  stale : List String := []

namespace Scope

variable (Γ : Scope α)

/-- The type of a variable. -/
def var (x : String) (path : List String) : Option (Ty α) :=
  if x ∈ Γ.stale then none
  else match Γ.locals.lookup x with
    | some t => t.at? path
    | none => (Γ.data.lookup x).bind (·.at? path)

/-- A local is assigned. -/
def set (x : String) (t : Ty α) : Scope α :=
  { Γ with locals := (x, t) :: Γ.locals, stale := Γ.stale.filter (· ≠ x) }

/-- Some locals are no longer known. -/
def forget (xs : List String) : Scope α := { Γ with stale := xs ++ Γ.stale }

/-- The scope that a rendering starts in, with data of these fields. -/
def start (fields : List (String × Ty α)) : Scope α :=
  { data := fields, locals := [("loop", .exact .null)] }

/-- The scope of an iteration of a loop that writes `xs`. -/
def iteration (xs : List String) (x : String) (t : Ty α) : Scope α :=
  ((Γ.forget xs).set x t).set "loop"
    (.obj [("index", .int), ("index1", .pos), ("is_first", .bool), ("is_last", .bool)])

end Scope

variable (D : Domain α) (sig : Sig α)

mutual

/-- The type of an expression. -/
def Expr.type (Γ : Scope α) : Expr → Option (Ty α)
  | lit v => some (.exact v)
  | var x path => Γ.var x path
  | and a b => do
    let t ← a.type Γ
    let t' ← b.type Γ
    return match t.truthy? with
      | some true => .ofCondition t'.truthy?
      | some false => .exact (.bool false)
      | none => .bool
  | or a b => do
    let t ← a.type Γ
    let t' ← b.type Γ
    return match t.truthy? with
      | some true => .exact (.bool true)
      | some false => .ofCondition t'.truthy?
      | none => .bool
  | fn op args => do op.type D sig (← Expr.typeAll Γ args)

/-- The types of the operands. -/
def Expr.typeAll (Γ : Scope α) : List Expr → Option (List (Ty α))
  | [] => some []
  | e :: es => do return (← e.type Γ) :: (← Expr.typeAll Γ es)

end

mutual

/-- A part is checked: what it renders to, and the scope after it. -/
def Node.check : Node → Scope α → Option (α × Scope α)
  | text s, Γ => some (D.lit s, Γ)
  | print e, Γ => do
    let a ← (← e.type D sig Γ).print D
    return (a, Γ)
  | set x e, Γ => do
    let t ← e.type D sig Γ
    return (D.lit [], Γ.set x t)
  | ite c t f, Γ => do
    match (← c.type D sig Γ).truthy? with
    | some true => Node.checkAll t Γ
    | some false => Node.checkAll f Γ
    | none =>
      let (a, _) ← Node.checkAll t Γ
      let (b, _) ← Node.checkAll f Γ
      return (D.join a b, Γ.forget (Node.writesAll t ++ Node.writesAll f))
  | forIn x e body, Γ => do
    let .arr _ ts ← e.type D sig Γ | none
    let outs ← ts.mapM fun t =>
      (Node.checkAll body (Γ.iteration (Node.writesAll body) x t)).map Prod.fst
    return (D.star (outs.foldr D.join (D.lit [])),
      Γ.forget (x :: "loop" :: Node.writesAll body))

/-- The parts are checked one after the other. -/
def Node.checkAll : List Node → Scope α → Option (α × Scope α)
  | [], Γ => some (D.lit [], Γ)
  | node :: nodes, Γ => do
    let (a, Γ) ← node.check Γ
    let (b, Γ) ← Node.checkAll nodes Γ
    return (D.append a b, Γ)

end

/-! ## The types are right -/

variable {D} {sig}

theorem Ty.holdsAny_iff {ts : List (Ty α)} {j : Json} :
    Ty.HoldsAny D ts j ↔ ∃ t ∈ ts, t.Holds D j := by
  induction ts with
  | nil => exact ⟨False.elim, fun ⟨_, h, _⟩ => nomatch h⟩
  | cons t ts ih => rw [Ty.HoldsAny, ih, List.exists_mem_cons_iff]

theorem Ty.exists_of_lookup {fields : List (String × Ty α)} {j : Json} {k : String} {t : Ty α}
    (h : Ty.HoldsFields D fields j) (hk : fields.lookup k = some t) :
    ∃ v, j.get? k = some v ∧ t.Holds D v := by
  induction fields with
  | nil => cases hk
  | cons field fields ih =>
    rw [List.lookup_cons] at hk
    split at hk
    · rename_i heq
      cases hk
      rw [eq_of_beq heq]
      exact h.1
    · exact ih h.2 hk

namespace Ty

variable {t t' : Ty α} {j j' : Json}

theorem Holds.sign (h : t.Holds D j) {s : Sign} (hs : t.sign = some s) :
    ∃ n, j = .int n ∧ s.Holds n := by
  cases t with
  | exact v =>
    cases v with
    | int n =>
      refine ⟨n, h, ?_⟩
      cases hs
      split_ifs with hz hp
      · exact hz
      · exact hp
      · trivial
    | _ => cases hs
  | int =>
    cases hs
    obtain ⟨n, hn⟩ := h
    exact ⟨n, hn, trivial⟩
  | pos =>
    cases hs
    exact h
  | _ => cases hs

theorem Holds.signs (h : t.Holds D j) (h' : t'.Holds D j') {s s' : Sign} (hs : t.sign = some s)
    (hs' : t'.sign = some s') :
    ∃ n n', j = .int n ∧ j' = .int n' ∧ s.Holds n ∧ s'.Holds n' := by
  obtain ⟨n, hn, hsn⟩ := h.sign hs
  obtain ⟨n', hn', hsn'⟩ := h'.sign hs'
  exact ⟨n, n', hn, hn', hsn, hsn'⟩

theorem holds_ofSign {s : Sign} {n : ℤ} (h : s.Holds n) : (ofSign s).Holds D (.int n) := by
  cases s with
  | zero => exact congrArg Json.int h
  | pos => exact ⟨n, rfl, h⟩
  | any => exact ⟨n, rfl⟩

theorem Holds.text (h : t.Holds D j) {a : α} (ha : t.text? D = some a) :
    ∃ s, j = .str s ∧ D.Holds a s := by
  cases t with
  | exact v =>
    cases v with
    | str s =>
      cases ha
      exact ⟨s, h, D.holds_lit s⟩
    | _ => cases ha
  | str b =>
    cases ha
    exact h
  | _ => cases ha

theorem Holds.print (h : t.Holds D j) {a : α} (ha : t.print D = some a) :
    ∃ s, j.print = .ok s ∧ D.Holds a s := by
  rw [Ty.print, Option.or_eq_some_iff] at ha
  rcases ha with ha | ⟨-, ha⟩
  · obtain ⟨s, rfl, hs⟩ := h.text ha
    exact ⟨s, rfl, hs⟩
  · obtain ⟨sg, hsg, rfl⟩ := Option.map_eq_some_iff.1 ha
    obtain ⟨n, rfl, -⟩ := h.sign hsg
    exact ⟨decimal n, rfl, D.holds_int n⟩

theorem Holds.truthy (h : t.Holds D j) {b : Bool} (hb : t.truthy? = some b) : j.truthy = b := by
  unfold truthy? at hb
  split at hb
  · cases hb
    exact congrArg Json.truthy h
  · cases hb
    obtain ⟨s, rfl, -⟩ := h
    rfl
  · cases hb
    obtain ⟨n, rfl, hn⟩ := h
    exact bne_iff_ne.2 (Int.ne_of_gt hn)
  · cases hb
    obtain ⟨vs, rfl, hne, -⟩ := h
    simpa [Json.truthy, Json.isEmpty] using hne rfl
  · cases hb
    obtain ⟨vs, rfl, -, hany⟩ := h
    cases vs with
    | nil => rfl
    | cons v vs => cases hany v (List.mem_cons_self ..)
  · cases hb

theorem holds_ofCondition {c : Option Bool} {b : Bool} (h : ∀ b', c = some b' → b = b') :
    (ofCondition c).Holds D (.bool b) := by
  cases c with
  | some b' => exact congrArg Json.bool (h b' rfl)
  | none => exact ⟨b, rfl⟩

theorem Holds.get? (h : t.Holds D j) {token : String} (ht : t.get? token = some t') :
    ∃ v, j.get? token = some v ∧ t'.Holds D v := by
  unfold Ty.get? at ht
  split at ht
  · obtain ⟨v, hv, rfl⟩ := Option.map_eq_some_iff.1 ht
    exact ⟨v, h ▸ hv, rfl⟩
  · rename_i u token
    split_ifs at ht with hindex
    cases ht
    obtain ⟨vs, rfl, hne, hany⟩ := h
    cases vs with
    | nil => exact absurd rfl (hne rfl)
    | cons v vs =>
      refine ⟨v, by rw [Json.get?, hindex]; rfl, ?_⟩
      have hone := hany v (List.mem_cons_self ..)
      rwa [holdsAny_iff, List.exists_mem_cons_iff, or_iff_left (by simp)] at hone
  · exact exists_of_lookup h ht
  · cases ht

theorem Holds.at? (h : t.Holds D j) {path : List String} (ht : t.at? path = some t') :
    ∃ v, j.at? path = some v ∧ t'.Holds D v := by
  induction path generalizing t j with
  | nil =>
    cases ht
    exact ⟨j, rfl, h⟩
  | cons token path ih =>
    obtain ⟨u, hu, ht⟩ := Option.bind_eq_some_iff.1 ht
    obtain ⟨v, hv, h⟩ := h.get? hu
    obtain ⟨w, hw, h⟩ := ih h ht
    exact ⟨w, by rw [Json.at?, hv]; exact hw, h⟩

theorem Holds.length (h : t.Holds D j) (ht : t.length = some t') :
    t'.Holds D (.int j.length) := by
  unfold Ty.length at ht
  split at ht
  · cases ht
    rw [show j = _ from h]
    rfl
  · cases ht
    exact ⟨_, rfl⟩
  · cases ht
    obtain ⟨vs, rfl, hne, -⟩ := h
    exact ⟨_, rfl, Int.natCast_pos.2 (List.length_pos_iff.2 (hne rfl))⟩
  · cases ht
    obtain ⟨vs, rfl, -, hany⟩ := h
    cases vs with
    | nil => rfl
    | cons v vs => cases hany v (List.mem_cons_self ..)
  · cases ht
    exact ⟨_, rfl⟩
  · cases ht

theorem Holds.add {u : Ty α} {cs : Callbacks} (h : t.Holds D j) (h' : t'.Holds D j')
    (hu : t.add D t' = some u) :
    ∃ v, Operation.add.apply cs [j, j'] = .ok v ∧ u.Holds D v := by
  unfold Ty.add at hu
  split at hu
  · rename_i a b ha hb
    obtain ⟨s, rfl, hs⟩ := h.text ha
    obtain ⟨s', rfl, hs'⟩ := h'.text hb
    cases hu
    exact ⟨_, rfl, _, rfl, D.holds_append hs hs'⟩
  · split at hu
    · rename_i sg hz hsg
      obtain ⟨n, n', rfl, rfl, hh, hh'⟩ := h.signs h' hz hsg
      cases hu
      refine ⟨_, rfl, holds_ofSign ?_⟩
      rwa [show n = 0 from hh, Int.zero_add]
    · rename_i sg hsg hz
      obtain ⟨n, n', rfl, rfl, hh, hh'⟩ := h.signs h' hsg hz
      cases hu
      refine ⟨_, rfl, holds_ofSign ?_⟩
      rwa [show n' = 0 from hh', Int.add_zero]
    · rename_i hp hp'
      obtain ⟨n, n', rfl, rfl, hh, hh'⟩ := h.signs h' hp hp'
      cases hu
      exact ⟨_, rfl, _, rfl, Int.add_pos hh hh'⟩
    · rename_i sg sg' _ _ _ hsg hsg'
      obtain ⟨n, n', rfl, rfl, -, -⟩ := h.signs h' hsg hsg'
      cases hu
      exact ⟨_, rfl, _, rfl⟩
    · cases hu

theorem Holds.gt {c : Option Bool} (h : t.Holds D j) (h' : t'.Holds D j')
    (hc : t.gt? t' = some c) :
    ∃ n n', j = .int n ∧ j' = .int n' ∧ ∀ b, c = some b → decide (n' < n) = b := by
  unfold gt? at hc
  split at hc
  · rename_i hs hs'
    obtain ⟨n, n', rfl, rfl, hn, hn'⟩ := h.signs h' hs hs'
    cases hc
    refine ⟨n, n', rfl, rfl, fun b hb => ?_⟩
    cases hb
    exact decide_eq_true (by rwa [show n' = 0 from hn'])
  · rename_i hs hs'
    obtain ⟨n, n', rfl, rfl, hn, hn'⟩ := h.signs h' hs hs'
    cases hc
    refine ⟨n, n', rfl, rfl, fun b hb => ?_⟩
    cases hb
    rw [show n = 0 from hn, show n' = 0 from hn']
    rfl
  · rename_i hs hs'
    obtain ⟨n, n', rfl, rfl, hn, hn'⟩ := h.signs h' hs hs'
    cases hc
    refine ⟨n, n', rfl, rfl, fun b hb => ?_⟩
    cases hb
    exact decide_eq_false (by rw [show n = 0 from hn]; exact Int.not_lt.2 (Int.le_of_lt hn'))
  · rename_i hs hs'
    obtain ⟨n, n', rfl, rfl, -, -⟩ := h.signs h' hs hs'
    cases hc
    exact ⟨n, n', rfl, rfl, nofun⟩
  · cases hc

theorem Holds.eq {b : Bool} (h : t.Holds D j) (h' : t'.Holds D j') (hb : t.eq? t' = some b) :
    j.beq j' = b := by
  unfold eq? at hb
  split at hb
  · rename_i hs hs'
    obtain ⟨n, n', rfl, rfl, hn, hn'⟩ := h.signs h' hs hs'
    cases hb
    rw [show n = 0 from hn, show n' = 0 from hn']
    rfl
  · rename_i hs hs'
    obtain ⟨n, n', rfl, rfl, hn, hn'⟩ := h.signs h' hs hs'
    cases hb
    exact beq_eq_false_iff_ne.2 (by rw [show n' = 0 from hn']; exact Int.ne_of_gt hn)
  · rename_i hs hs'
    obtain ⟨n, n', rfl, rfl, hn, hn'⟩ := h.signs h' hs hs'
    cases hb
    exact beq_eq_false_iff_ne.2 (by rw [show n = 0 from hn]; exact (Int.ne_of_gt hn').symm)
  · cases hb

end Ty

/-- The functions return what their types say. -/
def Sig.Sound (D : Domain α) (sig : Sig α) (cs : Callbacks) : Prop :=
  ∀ f ts t vs, sig f ts = some t → List.Forall₂ (Ty.Holds D) ts vs →
    ∃ function v, cs f vs.length = some function ∧ function vs = .ok v ∧ t.Holds D v

variable {cs : Callbacks}

theorem Operation.apply_of_type (hsig : sig.Sound D cs) {op : Operation} {ts : List (Ty α)}
    {t : Ty α} {vs : List Json} (ht : op.type D sig ts = some t)
    (h : List.Forall₂ (Ty.Holds D) ts vs) : ∃ v, op.apply cs vs = .ok v ∧ t.Holds D v := by
  unfold Operation.type at ht
  split at ht
  · obtain _ | ⟨h, _ | _⟩ := h
    exact ⟨_, rfl, h.length ht⟩
  · obtain _ | ⟨h, _ | _⟩ := h
    cases ht
    obtain ⟨vs, rfl, hne, hany⟩ := h
    refine ⟨vs.getLast (hne rfl), ?_, ?_⟩
    · rw [Operation.apply, List.getLast?_eq_some_getLast (hne rfl)]
    · have hone := hany _ (List.getLast_mem (hne rfl))
      rwa [Ty.holdsAny_iff, List.exists_mem_cons_iff, or_iff_left (by simp)] at hone
  · obtain _ | ⟨h, _ | ⟨h', _ | _⟩⟩ := h
    exact h.add h' ht
  · obtain _ | ⟨h, _ | ⟨h', _ | _⟩⟩ := h
    split_ifs at ht with hs
    obtain ⟨s, hs₁⟩ := Option.isSome_iff_exists.1 hs.1
    obtain ⟨s', hs₂⟩ := Option.isSome_iff_exists.1 hs.2
    obtain ⟨n, n', rfl, rfl, -, -⟩ := h.signs h' hs₁ hs₂
    cases ht
    exact ⟨_, rfl, _, rfl⟩
  · obtain _ | ⟨h, _ | ⟨h', _ | _⟩⟩ := h
    obtain ⟨c, hc, rfl⟩ := Option.map_eq_some_iff.1 ht
    obtain ⟨n, n', rfl, rfl, hb⟩ := h.gt h' hc
    exact ⟨_, rfl, Ty.holds_ofCondition hb⟩
  · obtain _ | ⟨h, _ | ⟨h', _ | _⟩⟩ := h
    cases ht
    exact ⟨_, rfl, Ty.holds_ofCondition fun b hb => h.eq h' hb⟩
  · obtain _ | ⟨h, _ | ⟨h', _ | _⟩⟩ := h
    cases ht
    refine ⟨_, rfl, Ty.holds_ofCondition fun b hb => ?_⟩
    obtain ⟨b', hb', rfl⟩ := Option.map_eq_some_iff.1 hb
    rw [h.eq h' hb']
  · obtain ⟨function, v, hf, hv, hvt⟩ := hsig _ _ _ _ ht h
    refine ⟨v, ?_, hvt⟩
    simp only [Operation.apply, hf, hv]
  · cases ht

/-! ## The check is right -/

/-- What is known has the types of the scope. -/
structure Scope.Models (D : Domain α) (Γ : Scope α) (K : Known) : Prop where
  data : Ty.HoldsFields D Γ.data K.env.data
  stale : K.stale = Γ.stale
  locals : ∀ x ∉ Γ.stale, Option.Rel (Ty.Holds D) (Γ.locals.lookup x) (K.env.locals x)

namespace Scope.Models

variable {Γ : Scope α} {K : Known}

theorem set (h : Γ.Models D K) {t : Ty α} {v : Json} (ht : t.Holds D v) (x : String) :
    (Γ.set x t).Models D (K.set x v) := by
  refine ⟨h.data, congrArg (List.filter _) h.stale, fun y hy => ?_⟩
  rw [Scope.set, List.lookup_cons]
  by_cases hyx : y = x
  · rw [hyx, beq_self_eq_true, Known.set, Env.locals_set_self]
    exact .some ht
  · rw [beq_false_of_ne hyx, Known.set, Env.locals_set_of_ne _ _ _ hyx]
    exact h.locals y fun hmem => hy (List.mem_filter.2 ⟨hmem, by simpa using hyx⟩)

theorem forget (h : Γ.Models D K) (xs : List String) : (Γ.forget xs).Models D (K.forget xs) :=
  ⟨h.data, congrArg (xs ++ ·) h.stale, fun y hy =>
    h.locals y fun hmem => hy (List.mem_append_right _ hmem)⟩

theorem iteration (h : Γ.Models D K) {t : Ty α} {v : Json} (ht : t.Holds D v) (xs : List String)
    (x : String) (i n : ℕ) : (Γ.iteration xs x t).Models D (K.iteration xs x v i n) := by
  refine ((h.forget xs).set ht x).set ?_ "loop"
  exact ⟨⟨_, rfl, _, rfl⟩, ⟨_, rfl, _, rfl, by omega⟩, ⟨_, rfl, _, rfl⟩, ⟨_, rfl, _, rfl⟩, trivial⟩

theorem start {fields : List (String × Ty α)} {data : Json} (h : Ty.HoldsFields D fields data) :
    (Scope.start fields).Models D ⟨Env.start data, []⟩ := by
  refine ⟨h, rfl, fun x _ => ?_⟩
  rw [Scope.start, List.lookup_cons]
  by_cases hx : x = "loop"
  · have hloop : (Env.start data).locals x = some .null := by simp [Env.start, hx]
    rw [hloop, hx, beq_self_eq_true]
    exact .some rfl
  · have hnone : (Env.start data).locals x = none := by simp [Env.start, hx]
    rw [hnone, beq_false_of_ne hx]
    exact .none

theorem var (h : Γ.Models D K) {x : String} {path : List String} {t : Ty α}
    (ht : Γ.var x path = some t) :
    x ∉ K.stale ∧ ∃ v, K.env.lookup x path = some v ∧ t.Holds D v := by
  unfold Scope.var at ht
  split_ifs at ht with hx
  rw [h.stale]
  refine ⟨hx, ?_⟩
  have hrel := h.locals x hx
  rw [Env.lookup]
  split at ht
  · rename_i u hu
    cases hl : K.env.locals x with
    | none =>
      rw [hu, hl] at hrel
      cases hrel
    | some w =>
      rw [hu, hl, Option.rel_some_some] at hrel
      obtain ⟨v, hv, hvt⟩ := hrel.at? ht
      exact ⟨v, by rw [Option.bind_some, hv]; rfl, hvt⟩
  · rename_i hu
    cases hl : K.env.locals x with
    | some w =>
      rw [hu, hl] at hrel
      cases hrel
    | none =>
      obtain ⟨u, hu, ht⟩ := Option.bind_eq_some_iff.1 ht
      obtain ⟨w, hw, hwt⟩ := Ty.exists_of_lookup h.data hu
      obtain ⟨v, hv, hvt⟩ := hwt.at? ht
      exact ⟨v, by rw [Option.bind_none, Option.none_or, Json.at?, hw]; exact hv, hvt⟩

end Scope.Models

mutual

/-- A typed expression has a value of its type, and reads nothing stale. -/
theorem Expr.eval_of_type (hsig : sig.Sound D cs) {Γ : Scope α} {K : Known}
    (h : Γ.Models D K) : ∀ (e : Expr) (t : Ty α), e.type D sig Γ = some t →
      (∀ x ∈ e.reads, x ∉ K.stale) ∧ ∃ v, e.eval cs K.env = .ok v ∧ t.Holds D v
  | lit v, _, ht => by
    cases ht
    exact ⟨nofun, v, rfl, rfl⟩
  | var x path, t, ht => by
    obtain ⟨hx, v, hv, hvt⟩ := h.var ht
    refine ⟨fun y hy => List.mem_singleton.1 hy ▸ hx, v, ?_, hvt⟩
    rw [eval, hv]
  | and a b, t, ht => by
    obtain ⟨ta, ha, ht⟩ := Option.bind_eq_some_iff.1 ht
    obtain ⟨tb, hb, ht⟩ := Option.bind_eq_some_iff.1 ht
    obtain ⟨hra, va, hva, hta⟩ := Expr.eval_of_type hsig h a ta ha
    obtain ⟨hrb, vb, hvb, htb⟩ := Expr.eval_of_type hsig h b tb hb
    cases ht
    refine ⟨fun x hx => (List.mem_append.1 hx).elim (hra x) (hrb x), .bool (va.truthy && vb.truthy),
      ?_, ?_⟩
    · rw [eval, hva, ok_bind, hvb]
      cases va.truthy <;> rfl
    · split
      · rename_i hc
        rw [hta.truthy hc]
        exact Ty.holds_ofCondition fun b hb => htb.truthy hb
      · rename_i hc
        rw [hta.truthy hc]
        rfl
      · exact ⟨_, rfl⟩
  | or a b, t, ht => by
    obtain ⟨ta, ha, ht⟩ := Option.bind_eq_some_iff.1 ht
    obtain ⟨tb, hb, ht⟩ := Option.bind_eq_some_iff.1 ht
    obtain ⟨hra, va, hva, hta⟩ := Expr.eval_of_type hsig h a ta ha
    obtain ⟨hrb, vb, hvb, htb⟩ := Expr.eval_of_type hsig h b tb hb
    cases ht
    refine ⟨fun x hx => (List.mem_append.1 hx).elim (hra x) (hrb x), .bool (va.truthy || vb.truthy),
      ?_, ?_⟩
    · rw [eval, hva, ok_bind, hvb]
      cases va.truthy <;> rfl
    · split
      · rename_i hc
        rw [hta.truthy hc]
        rfl
      · rename_i hc
        rw [hta.truthy hc]
        exact Ty.holds_ofCondition fun b hb => htb.truthy hb
      · exact ⟨_, rfl⟩
  | fn op args, t, ht => by
    obtain ⟨ts, hts, ht⟩ := Option.bind_eq_some_iff.1 ht
    obtain ⟨hr, vs, hvs, hh⟩ := Expr.evalAll_of_type hsig h args ts hts
    obtain ⟨v, hv, hvt⟩ := Operation.apply_of_type hsig ht hh
    refine ⟨hr, v, ?_, hvt⟩
    rw [eval, hvs]
    exact hv

theorem Expr.evalAll_of_type (hsig : sig.Sound D cs) {Γ : Scope α} {K : Known}
    (h : Γ.Models D K) : ∀ (es : List Expr) (ts : List (Ty α)),
      Expr.typeAll D sig Γ es = some ts → (∀ x ∈ Expr.readsAll es, x ∉ K.stale) ∧
        ∃ vs, Expr.evalAll cs K.env es = .ok vs ∧ List.Forall₂ (Ty.Holds D) ts vs
  | [], _, ht => by
    cases ht
    exact ⟨nofun, [], rfl, .nil⟩
  | e :: es, ts, ht => by
    obtain ⟨t, he, ht⟩ := Option.bind_eq_some_iff.1 ht
    obtain ⟨us, hes, ht⟩ := Option.bind_eq_some_iff.1 ht
    obtain ⟨hr, v, hv, hvt⟩ := Expr.eval_of_type hsig h e t he
    obtain ⟨hrs, vs, hvs, hvts⟩ := Expr.evalAll_of_type hsig h es us hes
    cases ht
    refine ⟨fun x hx => (List.mem_append.1 hx).elim (hr x) (hrs x), v :: vs, ?_, .cons hvt hvts⟩
    rw [evalAll, hv, ok_bind, hvs]
    rfl

end

theorem exists_of_mapM {β γ : Type} {f : β → Option γ} {l : List β} {l' : List γ}
    (h : l.mapM f = some l') {b : β} (hb : b ∈ l) : ∃ c ∈ l', f b = some c := by
  induction l generalizing l' with
  | nil => cases hb
  | cons b' l ih =>
    rw [List.mapM_cons] at h
    obtain ⟨c, hfb, h⟩ := Option.bind_eq_some_iff.1 h
    obtain ⟨cs, hcs, h⟩ := Option.bind_eq_some_iff.1 h
    cases h
    rcases List.mem_cons.1 hb with rfl | hb
    · exact ⟨c, List.mem_cons_self .., hfb⟩
    · obtain ⟨c', hc', hfc⟩ := ih hcs hb
      exact ⟨c', List.mem_cons_of_mem _ hc', hfc⟩

/-- What the check says of parts: they render to such a text, and leave such a scope. -/
def Checked (D : Domain α) (cs : Callbacks) (K : Known) (nodes : List Node) (a : α)
    (Γ : Scope α) : Prop :=
  ∃ out K₁, Renders cs K nodes out K₁ ∧ D.Holds a out ∧ Γ.Models D K₁

theorem holds_foldr_join {outs : List α} {a : α} (ha : a ∈ outs) {s : Text} (h : D.Holds a s) :
    D.Holds (outs.foldr D.join (D.lit [])) s := by
  induction outs with
  | nil => cases ha
  | cons b outs ih =>
    rcases List.mem_cons.1 ha with rfl | ha
    · exact D.holds_join_left h
    · exact D.holds_join_right (ih ha)

/-- A loop over an array whose elements are each of one of the types the body is checked for. -/
theorem Checked.forIn {Γ : Scope α} {K : Known} (h : Γ.Models D K) {e : Expr} {vs : List Json}
    {ts : List (Ty α)} {outs : List α} {x : String} {body : List Node}
    (hf : ∀ x ∈ e.reads, x ∉ K.stale) (he : e.eval cs K.env = .ok (.arr vs))
    (hvs : ∀ v ∈ vs, Ty.HoldsAny D ts v)
    (hbody : ∀ t ∈ ts, ∃ a ∈ outs, ∀ v i n, t.Holds D v → ∃ Γ₁, Checked D cs
      (K.iteration (Node.writesAll body) x v i n) body a Γ₁) :
    Checked D cs K [.forIn x e body] (D.star (outs.foldr D.join (D.lit [])))
      (Γ.forget (x :: "loop" :: Node.writesAll body)) := by
  have hone : ∀ i v, vs[i]? = some v → ∃ out, D.Holds (outs.foldr D.join (D.lit [])) out ∧
      ∃ K₁, Renders cs (K.iteration (Node.writesAll body) x v i vs.length) body out K₁ := by
    intro i v hv
    obtain ⟨t, ht, hvt⟩ := Ty.holdsAny_iff.1 (hvs v (List.mem_of_getElem? hv))
    obtain ⟨a, ha, hrun⟩ := hbody t ht
    obtain ⟨Γ₁, out, K₁, hr, hout, -⟩ := hrun v i vs.length hvt
    exact ⟨out, holds_foldr_join ha hout, K₁, hr⟩
  choose out hout hr using hone
  refine ⟨_, _, Renders.forIn (List.ofFn fun i : Fin vs.length =>
    out i vs[i] (List.getElem?_eq_getElem i.isLt)) hf he (List.length_ofFn ..) ?_, ?_, h.forget _⟩
  · intro i v s hv hs
    rw [List.getElem?_ofFn] at hs
    split_ifs at hs with hi
    cases hs
    have hvi : vs[i] = v := by
      rw [List.getElem?_eq_getElem hi] at hv
      exact Option.some.inj hv
    subst hvi
    exact hr i vs[i] _
  · refine D.holds_star fun s hs => ?_
    obtain ⟨i, rfl⟩ := List.mem_ofFn.1 hs
    exact hout ..

mutual

/-- A checked part renders. -/
theorem Node.check_sound (hsig : sig.Sound D cs) : ∀ (node : Node) (Γ Γ₁ : Scope α) (K : Known)
    (a : α), node.check D sig Γ = some (a, Γ₁) → Γ.Models D K → Checked D cs K [node] a Γ₁
  | text s, Γ, _, K, _, hc, h => by
    cases hc
    exact ⟨s, K, .text s, D.holds_lit s, h⟩
  | print e, Γ, Γ₁, K, a, hc, h => by
    obtain ⟨t, ht, hc⟩ := Option.bind_eq_some_iff.1 hc
    obtain ⟨b, hb, hc⟩ := Option.bind_eq_some_iff.1 hc
    obtain ⟨hf, v, hv, hvt⟩ := e.eval_of_type hsig h t ht
    obtain ⟨s, hs, hh⟩ := hvt.print hb
    cases hc
    exact ⟨s, K, .print hf hv hs, hh, h⟩
  | set x e, Γ, Γ₁, K, a, hc, h => by
    obtain ⟨t, ht, hc⟩ := Option.bind_eq_some_iff.1 hc
    obtain ⟨hf, v, hv, hvt⟩ := e.eval_of_type hsig h t ht
    cases hc
    exact ⟨[], K.set x v, .set hf hv, D.holds_lit [], h.set hvt x⟩
  | ite c t f, Γ, Γ₁, K, a, hc, h => by
    obtain ⟨tc, htc, hc⟩ := Option.bind_eq_some_iff.1 hc
    obtain ⟨hf, v, hv, hvt⟩ := c.eval_of_type hsig h tc htc
    split at hc
    · rename_i hb
      obtain ⟨out, K₁, hr, hout, h₁⟩ := Node.checkAll_sound hsig t Γ Γ₁ K a hc h
      refine ⟨out, K₁, .ite hf hv ?_, hout, h₁⟩
      rwa [if_pos (hvt.truthy hb)]
    · rename_i hb
      obtain ⟨out, K₁, hr, hout, h₁⟩ := Node.checkAll_sound hsig f Γ Γ₁ K a hc h
      refine ⟨out, K₁, .ite hf hv ?_, hout, h₁⟩
      rwa [if_neg (by rw [hvt.truthy hb]; exact Bool.false_ne_true)]
    · obtain ⟨⟨at', Γt⟩, hct, hc⟩ := Option.bind_eq_some_iff.1 hc
      obtain ⟨⟨af, Γf⟩, hcf, hc⟩ := Option.bind_eq_some_iff.1 hc
      obtain ⟨outt, Kt, hrt, houtt, -⟩ := Node.checkAll_sound hsig t Γ Γt K at' hct h
      obtain ⟨outf, Kf, hrf, houtf, -⟩ := Node.checkAll_sound hsig f Γ Γf K af hcf h
      cases hc
      cases hb : v.truthy with
      | true =>
        have hr : Renders cs K [.ite c t f] outt Kt := .ite hf hv (by rwa [if_pos hb])
        have hframe := hr.frame
        rw [Node.writesAll, Node.writesAll, List.append_nil, Node.writes] at hframe
        exact ⟨outt, _, hframe, D.holds_join_left houtt, h.forget _⟩
      | false =>
        have hr : Renders cs K [.ite c t f] outf Kf := .ite hf hv (by rwa [if_neg (by simp [hb])])
        have hframe := hr.frame
        rw [Node.writesAll, Node.writesAll, List.append_nil, Node.writes] at hframe
        exact ⟨outf, _, hframe, D.holds_join_right houtf, h.forget _⟩
  | forIn x e body, Γ, Γ₁, K, a, hc, h => by
    obtain ⟨t, ht, hc⟩ := Option.bind_eq_some_iff.1 hc
    obtain ⟨hf, v, hv, hvt⟩ := e.eval_of_type hsig h t ht
    split at hc
    · rename_i nonempty ts
      obtain ⟨outs, houts, hc⟩ := Option.bind_eq_some_iff.1 hc
      obtain ⟨vs, rfl, -, hany⟩ := hvt
      cases hc
      refine Checked.forIn h hf hv hany fun t ht => ?_
      obtain ⟨a, ha, hbody⟩ := exists_of_mapM houts ht
      obtain ⟨⟨a', Γ₁⟩, hcheck, rfl⟩ := Option.map_eq_some_iff.1 hbody
      exact ⟨a', ha, fun v i n hvt => ⟨Γ₁, Node.checkAll_sound hsig body _ Γ₁ _ a' hcheck
        (h.iteration hvt _ x i n)⟩⟩
    · cases hc

/-- Checked parts render. -/
theorem Node.checkAll_sound (hsig : sig.Sound D cs) : ∀ (nodes : List Node) (Γ Γ₁ : Scope α)
    (K : Known) (a : α), Node.checkAll D sig nodes Γ = some (a, Γ₁) → Γ.Models D K →
      Checked D cs K nodes a Γ₁
  | [], Γ, _, K, _, hc, h => by
    cases hc
    exact ⟨[], K, .nil, D.holds_lit [], h⟩
  | node :: nodes, Γ, Γ₂, K, _, hc, h => by
    obtain ⟨⟨a, Γ₁⟩, hnode, hc⟩ := Option.bind_eq_some_iff.1 hc
    obtain ⟨⟨b, Γ₂'⟩, hnodes, hc⟩ := Option.bind_eq_some_iff.1 hc
    obtain ⟨out, K₁, hr, hout, h₁⟩ := Node.check_sound hsig node Γ Γ₁ K a hnode h
    obtain ⟨out', K₂, hr', hout', h₂⟩ := Node.checkAll_sound hsig nodes Γ₁ Γ₂' K₁ b hnodes h₁
    cases hc
    exact ⟨out ++ out', K₂, hr.cons hr', D.holds_append hout hout', h₂⟩

end

/-- **A checked template renders**, with any data of its types. -/
theorem render_of_checkAll (hsig : sig.Sound D cs) {nodes : List Node}
    {fields : List (String × Ty α)} {a : α} {Γ : Scope α}
    (h : Node.checkAll D sig nodes (.start fields) = some (a, Γ)) {data : Json}
    (hdata : Ty.HoldsFields D fields data) :
    ∃ out, render cs nodes data = .ok out ∧ D.Holds a out := by
  obtain ⟨out, K, hr, hout, -⟩ := Node.checkAll_sound hsig nodes _ Γ _ a h (.start hdata)
  obtain ⟨env, hrender, -⟩ := hr _ Known.of_env
  exact ⟨out, by rw [render, hrender]; rfl, hout⟩

end Template
