import Mathlib.Tactic.FinCases
import Dbgen4.CppText

/-!
# Scanning C++

A scan of C++ text, character by character, that knows comments, literals and raw strings, and
keeps the brackets that are open (`Scan.run`). A text is `Balanced` if it can be scanned and
nothing is open after it: every comment and every literal ends, and every bracket is closed by one
of its kind.

What is rare is not judged, and stops the scan: a backslash or a carriage return outside of
comments and literals, and a literal with an encoding prefix or a digit separator.
-/

namespace Cpp

/-- What a scan is in. -/
inductive Context
  | code
  /-- A word or a number. -/
  | word
  /-- A word that is `R` so far. -/
  | rawPrefix
  /-- A slash that may begin a comment. -/
  | slash
  | lineComment
  | comment (m : Mode)
  | string
  | stringEscape
  | char
  | charEscape
  /-- The delimiter of a raw string, backwards. -/
  | rawDelimiter (delim : List Char)
  /-- A raw string, with what is still missing of its end. -/
  | raw (delim : List Char) (missing : Option (List Char))
  deriving DecidableEq

/-- A character of a word or a number. -/
def isWord (c : Char) : Bool := c.isAlphanum || c == '_' || 128 ≤ c.toNat

/-- The bracket that closes another one. -/
def closing (c : Char) : Option Char :=
  if c = '(' then some ')'
  else if c = '[' then some ']'
  else if c = '{' then some '}'
  else none

/-- A character of a literal, after which it goes on in `inside` or `escape`, or ends. -/
def nextLiteral (quote : Char) (inside escape : Context) (c : Char) : Option Context :=
  if c = quote then some .code
  else if c = '\\' then some escape
  else if c = '\n' ∨ c = '\r' then none
  else some inside

/-- A character of a raw string. -/
def nextRaw (delim : List Char) (missing : Option (List Char)) (c : Char) : Context :=
  if c = '"' ∧ missing = some ['"'] then .code
  else if c = ')' then .raw delim (some (delim ++ ['"']))
  else match missing with
    | some (d :: missing) => .raw delim (if c = d then some missing else none)
    | _ => .raw delim none

/-- A character where there are no brackets. -/
def Context.next (c : Char) : Context → Option Context
  | lineComment =>
    if c = '\n' then some code
    else if c = '\\' ∨ c = '\r' then none
    else some lineComment
  | comment m => match m.next c with
    | none => some code
    | some m => some (comment m)
  | string => nextLiteral '"' string stringEscape c
  | stringEscape => if c = '\n' ∨ c = '\r' then none else some string
  | char => nextLiteral '\'' char charEscape c
  | charEscape => if c = '\n' ∨ c = '\r' then none else some char
  | rawDelimiter delim =>
    if c = '(' then some (raw delim.reverse none)
    else if c = ')' ∨ c = '\\' ∨ c = '"' ∨ c = '\n' ∨ c = '\r' ∨ c = ' ' then none
    else some (rawDelimiter (c :: delim))
  | raw delim missing => some (nextRaw delim missing c)
  | _ => none

/-- A scan: what it is in, and the brackets that will close those that are open, innermost
    first. -/
structure Scan where
  context : Context := .code
  expected : List Char := []
  deriving DecidableEq

namespace Scan

/-- A character of code, which leads to `w` if it is one of a word. -/
def nextCode (expected : List Char) (w : Context) (c : Char) : Option Scan :=
  if isWord c then some ⟨w, expected⟩
  else if c = '/' then some ⟨.slash, expected⟩
  else if c = '"' then some ⟨.string, expected⟩
  else if c = '\'' then some ⟨.char, expected⟩
  else if c = '\\' ∨ c = '\r' then none
  else if c = ')' ∨ c = ']' ∨ c = '}' then
    match expected with
    | d :: expected => if c = d then some ⟨.code, expected⟩ else none
    | [] => none
  else some ⟨.code, (closing c).toList ++ expected⟩

/-- Where a word begins with a character. -/
def wordStart (c : Char) : Context := if c = 'R' then .rawPrefix else .word

/-- One character. -/
def next (s : Scan) (c : Char) : Option Scan :=
  match s.context with
  | .code => nextCode s.expected (wordStart c) c
  | .word => if c = '"' ∨ c = '\'' then none else nextCode s.expected .word c
  | .rawPrefix =>
    if c = '"' then some { s with context := .rawDelimiter [] }
    else if c = '\'' then none
    else nextCode s.expected .word c
  | .slash =>
    if c = '/' then some { s with context := .lineComment }
    else if c = '*' then some { s with context := .comment .text }
    else nextCode s.expected (wordStart c) c
  | ctx => (ctx.next c).map fun ctx => { s with context := ctx }

/-- A text. -/
def run (s : Scan) (l : List Char) : Option Scan := l.foldlM next s

end Scan

/-- All comments, literals and brackets of the text end in it. -/
def Balanced (l : List Char) : Prop := Scan.run {} l = some {}

instance (l : List Char) : Decidable (Balanced l) := decEq ..

theorem Mode.eq_slash_of_next {m : Mode} {c : Char} (h : m.next c = none) : c = '/' := by
  have hstar : Mode.afterStar c = none → c = '/' := by
    intro h
    unfold Mode.afterStar at h
    split_ifs at h with hc
    exact hc
  cases m <;> unfold Mode.next at h <;> dsimp only at h
  · split_ifs at h
  · exact hstar h
  · split_ifs at h
  · split_ifs at h
    exact hstar h

namespace Scan

variable {s s' : Scan} {l l' : List Char} {expected : List Char}

theorem run_append (s : Scan) (l l' : List Char) : s.run (l ++ l') = (s.run l).bind (run · l') :=
  List.foldlM_append

theorem run_cons (s : Scan) (c : Char) (l : List Char) :
    s.run (c :: l) = (s.next c).bind (run · l) :=
  List.foldlM_cons

theorem run_append_of_eq_some (h : s.run l = some s') (l' : List Char) :
    s.run (l ++ l') = s'.run l' := by
  rw [run_append, h, Option.bind_some]

/-! ## More brackets around -/

theorem nextCode_frame {w : Context} {c : Char} (h : nextCode expected w c = some s')
    (outer : List Char) :
    nextCode (expected ++ outer) w c = some ⟨s'.context, s'.expected ++ outer⟩ := by
  unfold nextCode at h ⊢
  split_ifs at h ⊢
  · cases h
    rfl
  · cases h
    rfl
  · cases h
    rfl
  · cases h
    rfl
  · cases expected with
    | nil => cases h
    | cons d expected =>
      dsimp only at h
      split_ifs at h with hd
      cases h
      exact if_pos hd
  · cases h
    rw [List.append_assoc]

theorem next_frame {c : Char} (h : s.next c = some s') (outer : List Char) :
    next ⟨s.context, s.expected ++ outer⟩ c = some ⟨s'.context, s'.expected ++ outer⟩ := by
  obtain ⟨context, expected⟩ := s
  cases context with
  | code => exact nextCode_frame h outer
  | word =>
    unfold next at h ⊢
    dsimp only at h ⊢
    split_ifs at h ⊢
    exact nextCode_frame h outer
  | rawPrefix | slash =>
    unfold next at h ⊢
    dsimp only at h ⊢
    split_ifs at h ⊢
    all_goals first | exact nextCode_frame h outer | (cases h; rfl)
  | raw =>
    cases h
    rfl
  | _ =>
    obtain ⟨ctx, hctx, rfl⟩ := Option.map_eq_some_iff.1 h
    exact Option.map_eq_some_iff.2 ⟨ctx, hctx, rfl⟩

/-- The brackets that are open before a text and after it do not matter to it. -/
theorem run_frame (h : s.run l = some s') (outer : List Char) :
    run ⟨s.context, s.expected ++ outer⟩ l = some ⟨s'.context, s'.expected ++ outer⟩ := by
  induction l generalizing s with
  | nil =>
    cases h
    rfl
  | cons c l ih =>
    rw [run_cons] at h ⊢
    obtain ⟨s₁, hc, h⟩ := Option.bind_eq_some_iff.1 h
    rw [next_frame hc outer, Option.bind_some]
    exact ih h

/-! ## Comments and raw strings -/

theorem run_comment {m m' : Mode} (h : m.run l = some m') :
    run ⟨.comment m, expected⟩ l = some ⟨.comment m', expected⟩ := by
  induction l generalizing m with
  | nil =>
    cases h
    rfl
  | cons c l ih =>
    rw [Mode.run_cons] at h
    obtain ⟨m₁, hc, h⟩ := Option.bind_eq_some_iff.1 h
    have hnext : next ⟨.comment m, expected⟩ c = some ⟨.comment m₁, expected⟩ := by
      simp only [next, Context.next, hc, Option.map_some]
    rw [run_cons, hnext, Option.bind_some]
    exact ih h

/-- What is missing of the end of a raw string after a text that ends in the beginning of it. -/
def Missing (delim l : List Char) (missing : Option (List Char)) : Prop :=
  ∀ rest, missing = some rest → ∃ begun, begun ++ rest = rawEnd delim ∧ begun <:+ l

theorem Missing.next {delim : List Char} {missing : Option (List Char)} {c : Char}
    (h : Missing delim l missing) (hend : ¬rawEnd delim <:+: l ++ [c]) :
    ∃ missing', nextRaw delim missing c = .raw delim missing' ∧
      Missing delim (l ++ [c]) missing' := by
  unfold nextRaw
  split_ifs with hc hp
  · obtain ⟨begun, hbegun, hsuffix⟩ := h _ hc.2
    refine absurd ?_ hend
    rw [← hbegun, hc.1]
    exact ((List.suffix_append_inj_of_length_eq rfl).2 ⟨hsuffix, rfl⟩).isInfix
  · refine ⟨_, rfl, fun rest hrest => ⟨[c], ?_, List.suffix_append ..⟩⟩
    cases hrest
    rw [hp]
    rfl
  · split
    · rename_i d rest
      refine ⟨_, rfl, fun rest' hrest => ?_⟩
      split_ifs at hrest with hd
      cases hrest
      obtain ⟨begun, hbegun, hsuffix⟩ := h _ rfl
      refine ⟨begun ++ [d], by rw [← hbegun, List.append_assoc]; rfl, ?_⟩
      rw [hd]
      exact (List.suffix_append_inj_of_length_eq rfl).2 ⟨hsuffix, rfl⟩
    · exact ⟨none, rfl, nofun⟩

/-- A text without the end of a raw string stays in it. -/
theorem run_raw {delim : List Char} (h : ¬rawEnd delim <:+: l) :
    ∃ missing, run ⟨.raw delim none, expected⟩ l = some ⟨.raw delim missing, expected⟩ ∧
      Missing delim l missing := by
  induction l using List.reverseRecOn with
  | nil => exact ⟨none, rfl, nofun⟩
  | append_singleton l c ih =>
    obtain ⟨missing, hrun, hmissing⟩ := ih fun hsub => h (hsub.trans (List.infix_append' [] l [c]))
    obtain ⟨missing', hnext, hmissing'⟩ := hmissing.next h
    refine ⟨missing', ?_, hmissing'⟩
    rw [run_append_of_eq_some hrun, ← hnext]
    rfl

/-! ## Words -/

/-- What a word may lead to. -/
def afterWord : Context → Option (List Context)
  | .code => some [.code, .word, .rawPrefix]
  | .word => some [.word]
  | .rawPrefix => some [.rawPrefix, .word]
  | .lineComment => some [.lineComment]
  | .comment .text => some [.comment .text]
  | .string => some [.string]
  | _ => none

theorem ne_of_isWord {c d : Char} (hc : isWord c = true) (hd : isWord d = false) : c ≠ d := by
  rintro rfl
  rw [hc] at hd
  cases hd

section

variable {c : Char} (hc : isWord c = true)

include hc

theorem nextCode_of_isWord (w : Context) : nextCode expected w c = some ⟨w, expected⟩ := if_pos hc

theorem next_word_of_isWord : next ⟨.word, expected⟩ c = some ⟨.word, expected⟩ := by
  have hquote : ¬(c = '"' ∨ c = '\'') :=
    not_or.2 ⟨ne_of_isWord hc (by decide), ne_of_isWord hc (by decide)⟩
  exact (if_neg hquote).trans (nextCode_of_isWord hc .word)

theorem next_rawPrefix_of_isWord : next ⟨.rawPrefix, expected⟩ c = some ⟨.word, expected⟩ :=
  (if_neg (ne_of_isWord hc (by decide))).trans <|
    (if_neg (ne_of_isWord hc (by decide))).trans (nextCode_of_isWord hc .word)

theorem next_skip_of_isWord {x : Context} (hx : x ∈ [.lineComment, .comment .text, .string]) :
    next ⟨x, expected⟩ c = some ⟨x, expected⟩ := by
  have hline : c ≠ '\n' := ne_of_isWord hc (by decide)
  have hend : ¬(c = '\\' ∨ c = '\r') :=
    not_or.2 ⟨ne_of_isWord hc (by decide), ne_of_isWord hc (by decide)⟩
  rw [List.mem_cons, List.mem_pair] at hx
  rcases hx with rfl | rfl | rfl
  · simp only [next, Context.next, if_neg hline, if_neg hend, Option.map_some]
  · have hstar : c ≠ '*' := ne_of_isWord hc (by decide)
    simp only [next, Context.next, Mode.next, if_neg hstar, Option.map_some]
  · have hquote : c ≠ '"' := ne_of_isWord hc (by decide)
    rw [not_or] at hend
    simp only [next, Context.next, nextLiteral, if_neg hquote, if_neg hend.1,
      if_neg (not_or.2 ⟨hline, hend.2⟩), Option.map_some]

/-- A character of a word leads to one of what a word leads to. -/
theorem next_of_isWord {ctx : Context} {ctxs : List Context} (h : afterWord ctx = some ctxs)
    {x : Context} (hx : x ∈ ctxs) : ∃ y ∈ ctxs, next ⟨x, expected⟩ c = some ⟨y, expected⟩ := by
  have hstart : wordStart c ∈ [Context.code, .word, .rawPrefix] := by
    unfold wordStart
    split_ifs <;> decide
  cases ctx with
  | code =>
    cases h
    rw [List.mem_cons, List.mem_pair] at hx
    rcases hx with rfl | rfl | rfl
    · exact ⟨_, hstart, nextCode_of_isWord hc _⟩
    · exact ⟨_, by decide, next_word_of_isWord hc⟩
    · exact ⟨_, by decide, next_rawPrefix_of_isWord hc⟩
  | word =>
    cases h
    rw [List.mem_singleton] at hx
    subst hx
    exact ⟨_, by decide, next_word_of_isWord hc⟩
  | rawPrefix =>
    cases h
    rw [List.mem_pair] at hx
    rcases hx with rfl | rfl
    · exact ⟨_, by decide, next_rawPrefix_of_isWord hc⟩
    · exact ⟨_, by decide, next_word_of_isWord hc⟩
  | lineComment | string =>
    cases h
    exact ⟨x, hx, next_skip_of_isWord hc (by rw [List.mem_singleton.1 hx]; decide)⟩
  | comment m =>
    cases m with
    | text =>
      cases h
      exact ⟨x, hx, next_skip_of_isWord hc (by rw [List.mem_singleton.1 hx]; decide)⟩
    | _ => cases h
  | _ => cases h

end

theorem run_of_isWord {ctx : Context} {ctxs : List Context} (h : afterWord ctx = some ctxs)
    (hl : ∀ c ∈ l, isWord c = true) :
    ∃ y ∈ ctxs, run ⟨ctx, expected⟩ l = some ⟨y, expected⟩ := by
  have hself : ctx ∈ ctxs := by
    unfold afterWord at h
    split at h <;> cases h <;> exact List.mem_cons_self
  suffices hrun : ∀ x ∈ ctxs, ∃ y ∈ ctxs, run ⟨x, expected⟩ l = some ⟨y, expected⟩ from
    hrun ctx hself
  induction l with
  | nil => exact fun x hx => ⟨x, hx, rfl⟩
  | cons c l ih =>
    rw [List.forall_mem_cons] at hl
    intro x hx
    obtain ⟨y, hy, hnext⟩ := @next_of_isWord expected c hl.1 _ _ h x hx
    rw [run_cons, hnext, Option.bind_some]
    exact ih hl.2 y hy

/-! ## Blanks at the end -/

/-- Where a text may end that has blanks after it in code. -/
def beforeBlanks : List Context := [.code, .word, .rawPrefix, .slash, .lineComment]

/-- The blanks. -/
def blanks : List Char := [' ', '\t', '\n', '\x0b', '\x0c', '\r']

section

variable {c : Char} (hc : c ∈ blanks)

include hc

theorem expected_of_nextCode {w : Context} (h : nextCode expected w c = some s') :
    s'.expected = expected := by
  obtain ⟨hw, hslash, hquote, hchar, hclose, hopen⟩ : isWord c = false ∧ c ≠ '/' ∧ c ≠ '"' ∧
      c ≠ '\'' ∧ ¬(c = ')' ∨ c = ']' ∨ c = '}') ∧ closing c = none := by
    fin_cases hc <;> decide
  unfold nextCode at h
  rw [if_neg (Bool.eq_false_iff.1 hw), if_neg hslash, if_neg hquote, if_neg hchar,
    if_neg hclose, hopen] at h
  split_ifs at h
  cases h
  rfl

/-- A blank leads to code only from a line comment. -/
theorem eq_lineComment_of_next {x y : Context} (h : x.next c = some y) (hy : y ∈ beforeBlanks) :
    x = .lineComment := by
  obtain ⟨hslash, hquote, hchar, hback, hopen, hclose⟩ :
      c ≠ '/' ∧ c ≠ '"' ∧ c ≠ '\'' ∧ c ≠ '\\' ∧ c ≠ '(' ∧ c ≠ ')' := by
    fin_cases hc <;> decide
  have hliteral {q : Char} {inside escape : Context} (hq : c ≠ q)
      (h : nextLiteral q inside escape c = some y) : y = inside := by
    unfold nextLiteral at h
    rw [if_neg hq, if_neg hback] at h
    split_ifs at h
    exact (Option.some.inj h).symm
  cases x with
  | lineComment => rfl
  | code | word | rawPrefix | slash => cases h
  | comment m =>
    cases hm : m.next c with
    | none => exact absurd (Mode.eq_slash_of_next hm) hslash
    | some m' =>
      simp only [Context.next, hm] at h
      cases h
      exact absurd hy (by simp [beforeBlanks])
  | string => exact absurd hy (by rw [hliteral hquote h]; decide)
  | char => exact absurd hy (by rw [hliteral hchar h]; decide)
  | stringEscape | charEscape =>
    simp only [Context.next] at h
    split_ifs at h
    cases h
    exact absurd hy (by decide)
  | rawDelimiter delim =>
    simp only [Context.next, if_neg hopen] at h
    split_ifs at h
    cases h
    exact absurd hy (by simp [beforeBlanks])
  | raw delim missing =>
    cases h
    unfold nextRaw at hy
    rw [if_neg fun h => hquote h.1, if_neg hclose] at hy
    split at hy <;> exact absurd hy (by simp [beforeBlanks])

theorem of_next_of_blank (h : s.next c = some s') (hs' : s'.context ∈ beforeBlanks) :
    s.context ∈ beforeBlanks ∧ s'.expected = s.expected := by
  obtain ⟨context, expected⟩ := s
  have hother {x : Context} (hx : x.next c = some s'.context) : x ∈ beforeBlanks :=
    eq_lineComment_of_next hc hx hs' ▸ by decide
  cases context with
  | code => exact ⟨List.mem_cons_self, expected_of_nextCode hc h⟩
  | word | rawPrefix | slash =>
    refine ⟨by simp [beforeBlanks], ?_⟩
    unfold next at h
    dsimp only at h
    split_ifs at h
    all_goals first | exact expected_of_nextCode hc h | (cases h; rfl)
  | raw delim missing =>
    cases h
    exact ⟨hother rfl, rfl⟩
  | _ =>
    obtain ⟨ctx, hctx, rfl⟩ := Option.map_eq_some_iff.1 h
    exact ⟨hother hctx, rfl⟩

end

/-- A text that blanks follow, in code. -/
theorem run_of_run_append_blanks {l w : List Char} (hw : ∀ c ∈ w, c ∈ blanks)
    (h : s.run (l ++ w) = some s') (hs' : s'.context ∈ beforeBlanks) :
    ∃ t, s.run l = some t ∧ t.context ∈ beforeBlanks ∧ t.expected = s'.expected := by
  induction w using List.reverseRecOn generalizing s' with
  | nil =>
    rw [List.append_nil] at h
    exact ⟨s', h, hs', rfl⟩
  | append_singleton w c ih =>
    rw [← List.append_assoc, run_append] at h
    obtain ⟨t, ht, hc⟩ := Option.bind_eq_some_iff.1 h
    rw [run_cons] at hc
    obtain ⟨t', ht', hc⟩ := Option.bind_eq_some_iff.1 hc
    cases hc
    obtain ⟨hctx, hexp⟩ := of_next_of_blank (hw c (by simp)) ht' hs'
    obtain ⟨u, hu, huctx, huexp⟩ := ih (fun d hd => hw d (List.mem_append_left _ hd)) ht hctx
    exact ⟨u, hu, huctx, huexp.trans hexp.symm⟩

end Scan

end Cpp
