import Mathlib.Data.List.Infix

/-!
# Comments and raw strings of C++

Where a block comment and a raw string literal end, by the phases of translation of C++23:
first carriage returns, with a line feed after them or without one, become line feeds; then a
backslash at the end of a line, blanks after it aside, joins the line with the next, but not in
a raw string; then the text is read.

Text that is copied into a comment or a raw string between a beginning and an end of its own
stays within them under the conditions of `skipComment_eq_some_iff` and
`rawString_eq_some_iff`.
-/

namespace Cpp

/-! ## Comments -/

/-- What the end of a comment depends on, of the text before it. -/
inductive Mode
  | text
  /-- After an asterisk. -/
  | star
  /-- After an asterisk and a backslash, which may turn out to end the line. -/
  | splice
  /-- After an asterisk and a line that a backslash and a carriage return end. -/
  | carriage
  deriving DecidableEq

/-- The whitespace that may stand between a backslash and the end of its line. -/
def isBlank (c : Char) : Bool :=
  c = ' ' ∨ c = '\t' ∨ c = '\x0b' ∨ c = '\x0c'

namespace Mode

/-- The character after an asterisk. -/
def afterStar (c : Char) : Option Mode :=
  if c = '/' then none
  else if c = '*' then some star
  else if c = '\\' then some splice
  else some text

/-- One character of a comment; none if the comment ends with it. -/
def next : Mode → Char → Option Mode
  | text, c => if c = '*' then some star else some text
  | star, c => afterStar c
  | splice, c =>
    if isBlank c then some splice
    else if c = '\r' then some carriage
    else if c = '\n' ∨ c = '*' then some star
    else some text
  | carriage, c => if c = '\n' then some star else afterStar c

/-- The characters of a text; none if the comment ends within it. -/
def run (m : Mode) (l : List Char) : Option Mode := l.foldlM next m

end Mode

/-- The end of a line. -/
inductive LineEnd : List Char → Prop
  | lineFeed : LineEnd ['\n']
  | carriageReturn : LineEnd ['\r']
  | both : LineEnd ['\r', '\n']

/-- What joins a line with the next. -/
inductive Splice : List Char → Prop
  | mk {blanks lineEnd : List Char} (hblanks : ∀ c ∈ blanks, isBlank c) (hend : LineEnd lineEnd) :
    Splice ('\\' :: blanks ++ lineEnd)

/-- The text, within a comment, ends it: an asterisk has a slash after it, with nothing between
    them when lines are joined. -/
inductive Closes : List Char → Prop
  | mk (before : List Char) {splices : List (List Char)} (hsplices : ∀ s ∈ splices, Splice s)
    (after : List Char) : Closes (before ++ '*' :: splices.flatten ++ '/' :: after)

/-- What follows the comment that the text is in. -/
def afterComment : Mode → List Char → Option (List Char)
  | _, [] => none
  | m, c :: cs =>
    match m.next c with
    | none => some cs
    | some m => afterComment m cs

/-- What follows the comment at the beginning of a text. -/
def skipComment : List Char → Option (List Char)
  | '/' :: '*' :: cs => afterComment .text cs
  | _ => none

/-- A comment. -/
def comment (body : List Char) : List Char := '/' :: '*' :: body ++ ['*', '/']

/-! ## Raw strings -/

/-- The line ends of a text as line feeds. -/
def newlines : List Char → List Char
  | [] => []
  | '\r' :: '\n' :: cs => '\n' :: newlines cs
  | c :: cs => (if c = '\r' then '\n' else c) :: newlines cs

/-- The text before the first `term` and the text after it. -/
def splitAtTerm (term : List Char) : List Char → Option (List Char × List Char)
  | [] => none
  | c :: cs =>
    if term.isPrefixOf (c :: cs) then some ([], (c :: cs).drop term.length)
    else (splitAtTerm term cs).map fun (before, after) => (c :: before, after)

/-- What ends a raw string with the given delimiter. -/
def rawEnd (delim : List Char) : List Char := ')' :: delim ++ ['"']

/-- The value of the raw string literal at the beginning of a text, and what follows it. -/
def rawString : List Char → Option (List Char × List Char)
  | 'R' :: '"' :: cs =>
    let delim := cs.takeWhile (· ≠ '(')
    (splitAtTerm (rawEnd delim) (cs.drop (delim.length + 1))).map fun (value, rest) =>
      (newlines value, rest)
  | _ => none

/-- A raw string literal. -/
def rawLiteral (delim value : List Char) : List Char :=
  'R' :: '"' :: delim ++ '(' :: value ++ rawEnd delim

/-! ## The end of a comment -/

namespace Mode

variable {m m' : Mode} {a b : List Char}

theorem run_append (m : Mode) (a b : List Char) : m.run (a ++ b) = (m.run a).bind (run · b) :=
  List.foldlM_append

theorem run_cons (m : Mode) (c : Char) (a : List Char) :
    m.run (c :: a) = (m.next c).bind (run · a) :=
  List.foldlM_cons

/-- After the text, wherever it stands in a comment, no asterisk is before. -/
def Resets (l : List Char) : Prop := ∀ m : Mode, m.run l = some text

instance (l : List Char) : Decidable (Resets l) :=
  decidable_of_iff (text.run l = some text ∧ star.run l = some text ∧
      splice.run l = some text ∧ carriage.run l = some text)
    ⟨fun ⟨htext, hstar, hsplice, hcarriage⟩ m => by cases m <;> assumption,
      fun h => ⟨h text, h star, h splice, h carriage⟩⟩

theorem run_append_eq_none_of_eq_some (h : m.run a = some m') (b : List Char) :
    m.run (a ++ b) = none ↔ m'.run b = none := by
  rw [run_append, h, Option.bind_some]

theorem run_append_eq_none (hb : Resets b) (m : Mode) (a : List Char) :
    m.run (a ++ b) = none ↔ m.run a = none := by
  rw [run_append]
  cases m.run a with
  | none => exact Iff.rfl
  | some m' =>
    rw [Option.bind_some, hb m']
    exact iff_of_false (Option.some_ne_none _) (Option.some_ne_none _)

theorem run_append_append_eq_none (hb : Resets b) (m : Mode) (a c : List Char) :
    m.run (a ++ (b ++ c)) = none ↔ m.run a = none ∨ text.run c = none := by
  rw [run_append]
  cases m.run a with
  | none => exact iff_of_true rfl (.inl rfl)
  | some m' =>
    rw [Option.bind_some, run_append_eq_none_of_eq_some (hb m')]
    exact (or_iff_right (Option.some_ne_none m')).symm

/-- A text that ends in the given mode. -/
inductive Ends : Mode → List Char → Prop
  | text (x : List Char) : Ends text x
  | star {splices : List (List Char)} (h : ∀ s ∈ splices, Splice s) :
    Ends star ('*' :: splices.flatten)
  | splice {splices : List (List Char)} {blanks : List Char} (h : ∀ s ∈ splices, Splice s)
    (hblanks : ∀ c ∈ blanks, isBlank c) :
    Ends splice ('*' :: splices.flatten ++ '\\' :: blanks)
  | carriage {splices : List (List Char)} {blanks : List Char} (h : ∀ s ∈ splices, Splice s)
    (hblanks : ∀ c ∈ blanks, isBlank c) :
    Ends carriage ('*' :: splices.flatten ++ '\\' :: blanks ++ ['\r'])

end Mode

theorem Closes.append_left {l : List Char} (h : Closes l) (x : List Char) : Closes (x ++ l) := by
  obtain ⟨before, hsplices, after⟩ := h
  rw [← List.append_assoc, ← List.append_assoc]
  exact .mk (x ++ before) hsplices after

/-- Without backslashes a comment ends at an asterisk and a slash next to each other. -/
theorem closes_iff_infix {l : List Char} (hl : '\\' ∉ l) : Closes l ↔ ['*', '/'] <:+: l := by
  constructor
  · rintro @⟨before, splices, hsplices, after⟩
    cases splices with
    | nil => exact ⟨before, after, by simp⟩
    | cons s splices =>
      obtain ⟨hblanks, hend⟩ := hsplices s List.mem_cons_self
      exact absurd (by simp) hl
  · rintro ⟨before, after, rfl⟩
    have h := @Closes.mk before [] (fun s hs => absurd hs List.not_mem_nil) after
    simpa using h

namespace Mode

section Ends

variable {m m' : Mode} {c : Char} {x : List Char}

theorem Ends.splice_append {splices : List (List Char)} {s : List Char}
    (h : ∀ s ∈ splices, Splice s) (hs : Splice s) : Ends .star ('*' :: splices.flatten ++ s) := by
  have h' : ∀ t ∈ splices ++ [s], Splice t := by
    intro t ht
    rcases List.mem_append.1 ht with ht | ht
    · exact h t ht
    · rw [List.mem_singleton.1 ht]
      exact hs
  have hends := Ends.star h'
  rwa [List.flatten_append, List.flatten_singleton] at hends

theorem Ends.star_of_carriage (h : Ends .carriage x) : Ends .star x := by
  cases h with
  | carriage h hblanks =>
    rw [List.append_assoc]
    exact .splice_append h (.mk hblanks .carriageReturn)

theorem Ends.closes_of_star (h : Ends .star x) (cs : List Char) : Closes (x ++ '/' :: cs) := by
  cases h with
  | star h => exact .mk [] h cs

/-- Only a slash after an asterisk, splices aside, ends a comment. -/
theorem Ends.closes (h : Ends m x) (hnext : m.next c = none) (cs : List Char) :
    Closes (x ++ c :: cs) := by
  have hslash : afterStar c = none → c = '/' := by
    intro h
    unfold afterStar at h
    split_ifs at h with hc
    exact hc
  cases m with
  | text =>
    rw [next] at hnext
    split_ifs at hnext
  | star =>
    rw [hslash hnext]
    exact h.closes_of_star cs
  | splice =>
    rw [next] at hnext
    split_ifs at hnext
  | carriage =>
    rw [next] at hnext
    split_ifs at hnext
    rw [hslash hnext]
    exact h.star_of_carriage.closes_of_star cs

theorem Ends.afterStar (h : Ends .star x) (hnext : afterStar c = some m') :
    ∃ p x', p ++ x' = x ++ [c] ∧ Ends m' x' := by
  have hnil : ∀ s ∈ ([] : List (List Char)), Splice s := fun s hs => absurd hs List.not_mem_nil
  unfold Mode.afterStar at hnext
  split_ifs at hnext with _ hstar hback
  · cases hnext
    exact ⟨x, ['*'], by rw [hstar], .star hnil⟩
  · cases hnext
    rw [hback]
    cases h with
    | star h => exact ⟨[], _, rfl, .splice h fun c hc => absurd hc List.not_mem_nil⟩
  · cases hnext
    exact ⟨[], _, rfl, .text _⟩

/-- The end of a text and its next character decide the next mode. -/
theorem Ends.next (h : Ends m x) (hnext : m.next c = some m') :
    ∃ p x', p ++ x' = x ++ [c] ∧ Ends m' x' := by
  have hnil : ∀ s ∈ ([] : List (List Char)), Splice s := fun s hs => absurd hs List.not_mem_nil
  cases m with
  | text =>
    rw [Mode.next] at hnext
    split_ifs at hnext with hstar
    · cases hnext
      exact ⟨x, ['*'], by rw [hstar], .star hnil⟩
    · cases hnext
      exact ⟨[], _, rfl, .text _⟩
  | star => exact h.afterStar hnext
  | splice =>
    rw [Mode.next] at hnext
    obtain ⟨⟩ | ⟨⟩ | @⟨splices, blanks, h, hblanks⟩ := h
    split_ifs at hnext with hblank hcr hline
    · cases hnext
      refine ⟨[], _, ?_, @Ends.splice _ (blanks ++ [c]) h fun d hd => ?_⟩
      · simp
      · rcases List.mem_append.1 hd with hd | hd
        · exact hblanks d hd
        · rw [List.mem_singleton.1 hd]
          exact hblank
    · cases hnext
      exact ⟨[], _, by rw [hcr]; rfl, .carriage h hblanks⟩
    · cases hnext
      rcases hline with rfl | rfl
      · exact ⟨[], '*' :: splices.flatten ++ ('\\' :: blanks ++ ['\n']), by simp,
          .splice_append h (.mk hblanks .lineFeed)⟩
      · exact ⟨_, ['*'], rfl, .star hnil⟩
    · cases hnext
      exact ⟨[], _, rfl, .text _⟩
  | carriage =>
    rw [Mode.next] at hnext
    split_ifs at hnext with hline
    · cases hnext
      obtain ⟨⟩ | ⟨⟩ | ⟨⟩ | @⟨splices, blanks, h, hblanks⟩ := h
      exact ⟨[], '*' :: splices.flatten ++ ('\\' :: blanks ++ ['\r', '\n']), by simp [hline],
        .splice_append h (.mk hblanks .both)⟩
    · exact h.star_of_carriage.afterStar hnext

theorem Ends.closes_of_run (h : Ends m x) {l : List Char} (hrun : m.run l = none) :
    Closes (x ++ l) := by
  induction l generalizing m x with
  | nil => cases hrun
  | cons c cs ih =>
    rw [run_cons] at hrun
    cases hnext : m.next c with
    | none => exact h.closes hnext cs
    | some m' =>
      rw [hnext, Option.bind_some] at hrun
      obtain ⟨p, x', heq, h'⟩ := h.next hnext
      have hcloses := (ih h' hrun).append_left p
      rwa [← List.append_assoc, heq, List.append_assoc] at hcloses

end Ends

/-- After an asterisk, splices aside. -/
def IsStar (m : Mode) : Prop := m = star ∨ m = carriage

theorem splice_run_blanks {blanks : List Char} (h : ∀ c ∈ blanks, isBlank c) :
    splice.run blanks = some splice := by
  induction blanks with
  | nil => rfl
  | cons c cs ih =>
    obtain ⟨hc, hcs⟩ := List.forall_mem_cons.1 h
    rw [run_cons, next, if_pos hc]
    exact ih hcs

theorem IsStar.run_splice {m : Mode} (hm : m.IsStar) {s : List Char} (hs : Splice s) :
    ∃ m', m.run s = some m' ∧ m'.IsStar := by
  obtain ⟨hblanks, hend⟩ := hs
  have hback : m.next '\\' = some splice := by
    rcases hm with rfl | rfl <;> rfl
  rw [List.cons_append, run_cons, hback, Option.bind_some, run_append, splice_run_blanks hblanks,
    Option.bind_some]
  cases hend with
  | lineFeed => exact ⟨star, rfl, .inl rfl⟩
  | carriageReturn => exact ⟨carriage, rfl, .inr rfl⟩
  | both => exact ⟨star, rfl, .inl rfl⟩

theorem IsStar.run_flatten {m : Mode} (hm : m.IsStar) {splices : List (List Char)}
    (h : ∀ s ∈ splices, Splice s) : ∃ m', m.run splices.flatten = some m' ∧ m'.IsStar := by
  induction splices generalizing m with
  | nil => exact ⟨m, rfl, hm⟩
  | cons s splices ih =>
    obtain ⟨hs, hsplices⟩ := List.forall_mem_cons.1 h
    obtain ⟨m₁, hrun, hm₁⟩ := hm.run_splice hs
    rw [List.flatten_cons, run_append, hrun, Option.bind_some]
    exact ih hm₁ hsplices

/-- The scan finds the end of a comment. -/
theorem run_eq_none_iff {l : List Char} : text.run l = none ↔ Closes l := by
  refine ⟨fun h => (Ends.text []).closes_of_run h, ?_⟩
  rintro @⟨before, splices, hsplices, after⟩
  rw [List.append_assoc, run_append]
  cases text.run before with
  | none => rfl
  | some m =>
    have hstar : m.next '*' = some star := by
      cases m <;> rfl
    obtain ⟨m', hrun, hm'⟩ := IsStar.run_flatten (.inl rfl) hsplices
    rw [Option.bind_some, List.cons_append, run_cons, hstar, Option.bind_some, run_append, hrun,
      Option.bind_some, run_cons]
    rcases hm' with rfl | rfl <;> rfl

end Mode

section Between

variable {a b c : List Char} (ha : Mode.text.run a = some .text) (hb : Mode.Resets b)
include ha hb

/-- A text between two that do not end a comment. -/
theorem closes_between (x : List Char) : Closes (a ++ x ++ b) ↔ Closes x := by
  rw [← Mode.run_eq_none_iff, ← Mode.run_eq_none_iff, List.append_assoc,
    Mode.run_append_eq_none_of_eq_some ha, Mode.run_append_eq_none hb]

/-- Two texts between three that do not end a comment. -/
theorem closes_between_append (hc : Mode.Resets c) (x y : List Char) :
    Closes (a ++ x ++ (b ++ y ++ c)) ↔ Closes x ∨ Closes y := by
  rw [← Mode.run_eq_none_iff, ← Mode.run_eq_none_iff, ← Mode.run_eq_none_iff, List.append_assoc,
    Mode.run_append_eq_none_of_eq_some ha, List.append_assoc, Mode.run_append_append_eq_none hb,
    Mode.run_append_eq_none hc]

end Between

/-- Lines that have a prefix before them each, after other lines. -/
theorem Mode.run_flatMap_eq_none {pre : List Char} (hpre : Mode.Resets pre) (m : Mode)
    (lines : List (List Char)) :
    m.run (lines.flatMap (pre ++ ·)) = none ↔ ∃ line ∈ lines, Closes line := by
  induction lines generalizing m with
  | nil => exact iff_of_false (Option.some_ne_none m) fun ⟨_, h, _⟩ => List.not_mem_nil h
  | cons line lines ih =>
    rw [List.flatMap_cons, List.append_assoc, run_append_eq_none_of_eq_some (hpre m), run_append,
      List.exists_mem_cons_iff, ← run_eq_none_iff]
    cases hrun : text.run line with
    | none => exact iff_of_true rfl (.inl rfl)
    | some m' => exact (ih m').trans (or_iff_right (Option.some_ne_none m')).symm

instance (l : List Char) : Decidable (Closes l) :=
  decidable_of_iff (Mode.text.run l = none) Mode.run_eq_none_iff

theorem afterComment_append {m m' : Mode} {a : List Char} (h : m.run a = some m') (b : List Char) :
    afterComment m (a ++ b) = afterComment m' b := by
  induction a generalizing m with
  | nil =>
    cases Option.some.inj h
    rfl
  | cons c cs ih =>
    rw [Mode.run_cons] at h
    rw [List.cons_append, afterComment]
    cases hnext : m.next c with
    | none =>
      rw [hnext] at h
      cases h
    | some m₁ =>
      rw [hnext, Option.bind_some] at h
      exact ih h

/-- A comment that ends within a text leaves the rest of it behind. -/
theorem afterComment_of_run_eq_none {m : Mode} {a : List Char} (h : m.run a = none)
    (b : List Char) : ∃ r, r.length < a.length ∧ afterComment m (a ++ b) = some (r ++ b) := by
  induction a generalizing m with
  | nil => cases h
  | cons c cs ih =>
    rw [Mode.run_cons] at h
    rw [List.cons_append, afterComment]
    cases hnext : m.next c with
    | none => exact ⟨cs, Nat.lt_succ_self _, rfl⟩
    | some m₁ =>
      rw [hnext, Option.bind_some] at h
      obtain ⟨r, hr, hafter⟩ := ih h
      exact ⟨r, Nat.lt_succ_of_lt hr, hafter⟩

/-- **A comment ends at its own end** if and only if its text does not end it. -/
theorem skipComment_comment (body rest : List Char) :
    skipComment (comment body ++ rest) = some rest ↔ ¬ Closes body := by
  have hskip : skipComment (comment body ++ rest) =
      afterComment .text (body ++ '*' :: '/' :: rest) := by
    rw [comment, List.append_assoc]
    rfl
  rw [hskip, ← Mode.run_eq_none_iff]
  cases hrun : Mode.text.run body with
  | none =>
    obtain ⟨r, -, h⟩ := afterComment_of_run_eq_none hrun ('*' :: '/' :: rest)
    rw [h]
    refine iff_of_false (fun h => ?_) (fun h => h rfl)
    have hlen := congrArg List.length (Option.some.inj h)
    rw [List.length_append, List.length_cons, List.length_cons] at hlen
    omega
  | some m =>
    rw [afterComment_append hrun]
    refine iff_of_true ?_ (Option.some_ne_none m)
    cases m <;> rfl

/-! ## The end of a raw string -/

theorem length_newlines_le (l : List Char) : (newlines l).length ≤ l.length := by
  fun_induction newlines l with
  | case1 => exact Nat.le_refl _
  | case2 cs ih => exact Nat.succ_le_succ (Nat.le_succ_of_le ih)
  | case3 c cs _ ih => exact Nat.succ_le_succ ih

theorem newlines_eq_self {l : List Char} : newlines l = l ↔ '\r' ∉ l := by
  fun_induction newlines l with
  | case1 => exact iff_of_true rfl List.not_mem_nil
  | case2 cs ih =>
    refine iff_of_false (fun h => ?_) (fun h => h List.mem_cons_self)
    exact absurd (List.cons.inj h).1 (by decide)
  | case3 c cs _ ih =>
    by_cases hc : c = '\r'
    · subst hc
      refine iff_of_false (fun h => ?_) (fun h => h List.mem_cons_self)
      exact absurd (List.cons.inj h).1 (by decide)
    · rw [if_neg hc, List.cons_inj_right, ih, List.mem_cons, not_or]
      exact (and_iff_right (Ne.symm hc)).symm

section Split

variable {c : Char} {term t : List Char}

/-- An end that comes before the text is over. -/
theorem splitAtTerm_of_infix (h : term <:+: t) (rest : List Char) (hne : term ≠ []) :
    ∃ before after, before.length < t.length ∧
      splitAtTerm term (t ++ rest) = some (before, after) := by
  induction t with
  | nil => exact absurd (List.infix_nil.1 h) hne
  | cons d t ih =>
    rw [List.cons_append, splitAtTerm]
    split
    · exact ⟨[], _, Nat.succ_pos _, rfl⟩
    · rename_i hpre
      rcases List.infix_cons_iff.1 h with h | h
      · have h := h.trans (List.prefix_append (d :: t) rest)
        exact absurd (List.isPrefixOf_iff_prefix.2 h) hpre
      · obtain ⟨before, after, hlen, hsplit⟩ := ih h
        refine ⟨d :: before, after, Nat.succ_lt_succ hlen, ?_⟩
        rw [hsplit]
        rfl

/-- An end whose first character is not in the rest of it cannot begin within the text and
    end after it. -/
theorem splitAtTerm_append (hc : c ∉ term) (h : ¬ c :: term <:+: t) (rest : List Char) :
    splitAtTerm (c :: term) (t ++ (c :: term ++ rest)) = some (t, rest) := by
  induction t with
  | nil =>
    rw [List.nil_append, List.cons_append, splitAtTerm, ← List.cons_append,
      if_pos (List.isPrefixOf_iff_prefix.2 (List.prefix_append _ rest)), List.drop_left]
  | cons d t ih =>
    obtain ⟨hpre, hinfix⟩ := not_or.1 (mt List.infix_cons_iff.2 h)
    rw [List.cons_append, splitAtTerm, if_neg, ih hinfix]
    · rfl
    rw [List.isPrefixOf_iff_prefix]
    intro hlong
    -- The text is too short for it to be a prefix of the text, so its tail reaches the end's `c`.
    rw [← List.cons_append] at hlong
    rcases List.prefix_or_prefix_of_prefix hlong (List.prefix_append (d :: t) _) with h' | h'
    · exact hpre h'
    · obtain ⟨v, hv⟩ := h'
      have hlong' : v <+: c :: term ++ rest := by
        rw [← hv, List.prefix_append_right_inj] at hlong
        rwa [hv] at hlong
      cases v with
      | nil =>
        rw [List.append_nil] at hv
        exact hpre (hv ▸ List.prefix_rfl)
      | cons e v =>
        have hterm : t ++ e :: v = term := (List.cons.inj hv).2
        have he : e ∈ term := hterm ▸ List.mem_append_right _ List.mem_cons_self
        exact hc ((List.cons_prefix_cons.1 hlong').1 ▸ he)

end Split

/-- **A raw string literal has the value it was given** if and only if the value has neither the
    end of the literal in it nor a carriage return. -/
theorem rawString_rawLiteral {delim : List Char} (hopen : '(' ∉ delim) (hclose : ')' ∉ delim)
    (value rest : List Char) :
    rawString (rawLiteral delim value ++ rest) = some (value, rest) ↔
      ¬ rawEnd delim <:+: value ∧ '\r' ∉ value := by
  have htake : (delim ++ '(' :: (value ++ (rawEnd delim ++ rest))).takeWhile (· ≠ '(') = delim := by
    have hdelim : ∀ c ∈ delim, decide (c ≠ '(') = true := by
      rintro c hc
      exact decide_eq_true (ne_of_mem_of_not_mem hc hopen)
    rw [List.takeWhile_append_of_pos hdelim, List.takeWhile_cons_of_neg (by decide),
      List.append_nil]
  have hraw : rawString (rawLiteral delim value ++ rest) =
      (splitAtTerm (rawEnd delim) (value ++ (rawEnd delim ++ rest))).map fun (value, rest) =>
        (newlines value, rest) := by
    have hlit : rawLiteral delim value ++ rest =
        'R' :: '"' :: (delim ++ '(' :: (value ++ (rawEnd delim ++ rest))) := by
      simp only [rawLiteral, List.cons_append, List.append_assoc]
    have hdrop : (delim ++ '(' :: (value ++ (rawEnd delim ++ rest))).drop (delim.length + 1) =
        value ++ (rawEnd delim ++ rest) := by
      rw [← List.drop_drop, List.drop_left, List.drop_one, List.tail_cons]
    rw [hlit, rawString, htake]
    dsimp only
    rw [hdrop]
  rw [hraw]
  by_cases h : rawEnd delim <:+: value
  · obtain ⟨before, after, hlen, hsplit⟩ :=
      splitAtTerm_of_infix h (rawEnd delim ++ rest) (List.cons_ne_nil _ _)
    rw [hsplit]
    refine iff_of_false (fun heq => ?_) (fun hand => hand.1 h)
    have hvalue : newlines before = value := congrArg Prod.fst (Option.some.inj heq)
    have hle := length_newlines_le before
    rw [hvalue] at hle
    omega
  · have hnotin : ')' ∉ delim ++ ['"'] := by
      rw [List.mem_append, not_or]
      exact ⟨hclose, by decide⟩
    have hsplit : splitAtTerm (rawEnd delim) (value ++ (rawEnd delim ++ rest)) =
        some (value, rest) := splitAtTerm_append hnotin h rest
    rw [hsplit, ← newlines_eq_self, and_iff_right h, Option.map_some, Option.some_inj,
      Prod.mk.injEq, and_iff_left rfl]

end Cpp
