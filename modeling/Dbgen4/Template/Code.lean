import Mathlib.Data.List.Dedup
import Dbgen4.CppScan
import Dbgen4.Template.Check

/-!
# Templates of C++

What a text does to a scan of C++, as an abstraction of texts that a template can be checked with
(`effects`): an `Effect` leads from scans to the scans that one of them may become. A literal text
is scanned; what is known of other texts says where they may stand and what they may lead to, by
the context that they stand in (`Effect.of`).
-/

namespace Template

open Cpp

/-- What a text does: given some scans, those that one of them may become, if that is known. -/
abbrev Effect := List Scan → Option (List Scan)

namespace Effect

/-- What the text does is as the effect says. -/
def Holds (a : Effect) (l : Text) : Prop :=
  ∀ ss ss', a ss = some ss' → ∀ s ∈ ss, ∃ s' ∈ ss', s.run l = some s'

/-- A given text. -/
def lit (l : Text) : Effect := fun ss =>
  (ss.mapM fun s => Scan.run s l).map List.dedup

/-- One text after the other. -/
def append (a b : Effect) : Effect := fun ss => (a ss).bind b

/-- One text or the other. -/
def join (a b : Effect) : Effect := fun ss => do return (← a ss) ∪ (← b ss)

/-- Any number of texts that lead nowhere else. -/
def star (a : Effect) : Effect := fun ss => do
  if (← a ss).all (· ∈ ss) then return ss else none

/-- What opens and closes no brackets, by the context. -/
def of (f : Context → Option (List Context)) : Effect := fun ss =>
  (ss.mapM fun s => (f s.context).map (·.map (⟨·, s.expected⟩))).map (·.flatten.dedup)

variable {a b : Effect} {l l' : Text}

theorem holds_lit (l : Text) : (lit l).Holds l := by
  intro ss ss' h s hs
  obtain ⟨ts, hts, rfl⟩ := Option.map_eq_some_iff.1 h
  obtain ⟨t, ht, hrun⟩ := exists_of_mapM hts hs
  exact ⟨t, List.mem_dedup.2 ht, hrun⟩

theorem Holds.append (ha : a.Holds l) (hb : b.Holds l') : (append a b).Holds (l ++ l') := by
  intro ss ss' h s hs
  obtain ⟨ts, hts, h⟩ := Option.bind_eq_some_iff.1 h
  obtain ⟨t, ht, hrun⟩ := ha ss ts hts s hs
  obtain ⟨u, hu, hrun'⟩ := hb ts ss' h t ht
  exact ⟨u, hu, by rw [Scan.run_append_of_eq_some hrun, hrun']⟩

theorem Holds.join_left (ha : a.Holds l) : (join a b).Holds l := by
  intro ss ss' h s hs
  obtain ⟨ts, hts, h⟩ := Option.bind_eq_some_iff.1 h
  obtain ⟨us, hus, h⟩ := Option.bind_eq_some_iff.1 h
  cases h
  obtain ⟨t, ht, hrun⟩ := ha ss ts hts s hs
  exact ⟨t, List.mem_union_left ht _, hrun⟩

theorem Holds.join_right (hb : b.Holds l) : (join a b).Holds l := by
  intro ss ss' h s hs
  obtain ⟨ts, hts, h⟩ := Option.bind_eq_some_iff.1 h
  obtain ⟨us, hus, h⟩ := Option.bind_eq_some_iff.1 h
  cases h
  obtain ⟨u, hu, hrun⟩ := hb ss us hus s hs
  exact ⟨u, List.mem_union_right _ hu, hrun⟩

theorem holds_star {ls : List Text} (h : ∀ l ∈ ls, a.Holds l) : (star a).Holds ls.flatten := by
  intro ss ss' hss s hs
  obtain ⟨ts, hts, hss⟩ := Option.bind_eq_some_iff.1 hss
  split_ifs at hss with hsub
  cases hss
  rw [List.all_eq_true] at hsub
  -- Each text leads back among the scans, so that the next one may follow.
  induction ls generalizing s with
  | nil => exact ⟨s, hs, rfl⟩
  | cons l ls ih =>
    obtain ⟨t, ht, hrun⟩ := h l List.mem_cons_self ss ts hts s hs
    rw [List.flatten_cons, Scan.run_append_of_eq_some hrun]
    exact ih (fun l hl => h l (List.mem_cons_of_mem _ hl)) t (of_decide_eq_true (hsub t ht))

/-- A text that leads from a context to one of those that are said, whatever brackets are open. -/
theorem holds_of {f : Context → Option (List Context)}
    (h : ∀ ctx ctxs expected, f ctx = some ctxs →
      ∃ y ∈ ctxs, Scan.run ⟨ctx, expected⟩ l = some ⟨y, expected⟩) : (of f).Holds l := by
  intro ss ss' hss s hs
  obtain ⟨tss, htss, rfl⟩ := Option.map_eq_some_iff.1 hss
  obtain ⟨ts, hts, hmap⟩ := exists_of_mapM htss hs
  obtain ⟨ctxs, hctxs, rfl⟩ := Option.map_eq_some_iff.1 hmap
  obtain ⟨y, hy, hrun⟩ := h s.context ctxs s.expected hctxs
  exact ⟨_, List.mem_dedup.2 (List.mem_flatten_of_mem hts (List.mem_map_of_mem hy)), hrun⟩

/-! ## What is known of texts -/

/-- A word. -/
def word : Effect := of Scan.afterWord

/-- What a number leads to. -/
def afterNumber : Context → Option (List Context)
  | .code => some [.code, .word, .rawPrefix]
  | .raw delim none => some [.raw delim none]
  | _ => none

/-- A text that ends in the code that it begins in. -/
def afterFragment : Context → Option (List Context)
  | .code => some [.code, .word]
  | _ => none

/-- A text of a string literal. -/
def afterQuoted : Context → Option (List Context)
  | .string => some [.string]
  | _ => none

/-- A text that does not end a comment. -/
def afterRemark : Context → Option (List Context)
  | .comment .text => some [.comment .text, .comment .star, .comment .splice, .comment .carriage]
  | _ => none

/-- A text that does not end a raw string. -/
def afterRaw (delim : List Char) : Context → Option (List Context)
  | .raw d none =>
    if d = delim then some (.raw d none :: (rawEnd delim).tails.map fun t => .raw d (some t))
    else none
  | _ => none

/-- A text that stands after these scans only. -/
def only (ss : List Scan) (a : Effect) : Effect := fun ts => if ts = ss then a ss else none

/-- What is known of a text when the blanks at its end are cut off. -/
def trim (a : Effect) : Effect := fun ss => do
  let ss' ← a ss
  if ss'.all (·.context = .code) then
    return (ss'.flatMap fun s => Scan.beforeBlanks.map (⟨·, s.expected⟩)).dedup
  else none

theorem holds_word (h : ∀ c ∈ l, isWord c = true) : word.Holds l :=
  holds_of fun _ _ _ hctx => Scan.run_of_isWord hctx h

theorem isWord_of_isDigit {c : Char} (h : c.isDigit = true) : isWord c = true := by
  simp [isWord, Char.isAlphanum, h]

theorem run_raw_of_ne {delim expected : List Char} (h : ∀ c ∈ l, c ≠ ')') :
    Scan.run ⟨.raw delim none, expected⟩ l = some ⟨.raw delim none, expected⟩ := by
  induction l with
  | nil => rfl
  | cons c l ih =>
    rw [List.forall_mem_cons] at h
    have hnext : Scan.next ⟨.raw delim none, expected⟩ c = some ⟨.raw delim none, expected⟩ := by
      simp [Scan.next, Context.next, nextRaw, h.1]
    rw [Scan.run_cons, hnext, Option.bind_some]
    exact ih h.2

theorem holds_number (n : ℤ) : (of afterNumber).Holds (decimal n) := by
  have hdigits : ∀ c ∈ Nat.toDigits 10 n.natAbs, c.isDigit = true := fun c hc =>
    Nat.isDigit_of_mem_toDigits (by decide) (by decide) hc
  refine holds_of fun ctx ctxs expected hctx => ?_
  unfold afterNumber at hctx
  split at hctx
  · cases hctx
    obtain ⟨y, hy, hrun⟩ := @Scan.run_of_isWord _ expected .code _ rfl
      fun c hc => isWord_of_isDigit (hdigits c hc)
    refine ⟨y, hy, ?_⟩
    unfold decimal
    split_ifs
    -- A sign leads from code to code.
    · rw [Scan.run_cons]
      exact hrun
    · exact hrun
  · cases hctx
    refine ⟨_, List.mem_singleton_self _, run_raw_of_ne fun c hc hparen => ?_⟩
    unfold decimal at hc
    rw [hparen] at hc
    split_ifs at hc
    · exact absurd (hdigits _ ((List.mem_cons.1 hc).resolve_left (by decide))) (by decide)
    · exact absurd (hdigits _ hc) (by decide)
  · cases hctx

theorem holds_fragment {y : Context} (hy : y ∈ [Context.code, .word])
    (h : Scan.run {} l = some ⟨y, []⟩) : (of afterFragment).Holds l := by
  refine holds_of fun ctx ctxs expected hctx => ?_
  unfold afterFragment at hctx
  split at hctx
  · cases hctx
    exact ⟨y, hy, Scan.run_frame h expected⟩
  · cases hctx

theorem holds_quoted (h : ∀ c ∈ l, c ≠ '"' ∧ c ≠ '\\' ∧ c ≠ '\n' ∧ c ≠ '\r') :
    (of afterQuoted).Holds l := by
  refine holds_of fun ctx ctxs expected hctx => ?_
  unfold afterQuoted at hctx
  split at hctx
  · cases hctx
    refine ⟨_, List.mem_singleton_self _, ?_⟩
    induction l with
    | nil => rfl
    | cons c l ih =>
      rw [List.forall_mem_cons] at h
      obtain ⟨⟨hquote, hback, hline, hcr⟩, hl⟩ := h
      have hnext : Scan.next ⟨.string, expected⟩ c = some ⟨.string, expected⟩ := by
        simp [Scan.next, Context.next, nextLiteral, hquote, hback, hline, hcr]
      rw [Scan.run_cons, hnext, Option.bind_some]
      exact ih hl
  · cases hctx

theorem holds_remark (h : ¬Closes l) : (of afterRemark).Holds l := by
  refine holds_of fun ctx ctxs expected hctx => ?_
  unfold afterRemark at hctx
  split at hctx
  · cases hctx
    cases hm : Mode.text.run l with
    | none => exact absurd (Mode.run_eq_none_iff.1 hm) h
    | some m => exact ⟨.comment m, by cases m <;> decide, Scan.run_comment hm⟩
  · cases hctx

theorem holds_raw {delim : List Char} (h : ¬rawEnd delim <:+: l) :
    (of (afterRaw delim)).Holds l := by
  refine holds_of fun ctx ctxs expected hctx => ?_
  unfold afterRaw at hctx
  split at hctx
  · split_ifs at hctx with hd
    cases hctx
    subst hd
    obtain ⟨missing, hrun, hmissing⟩ := @Scan.run_raw l expected _ h
    refine ⟨_, ?_, hrun⟩
    -- What is missing of the end is one of its tails.
    cases missing with
    | none => exact List.mem_cons_self
    | some rest =>
      obtain ⟨begun, hbegun, -⟩ := hmissing rest rfl
      refine List.mem_cons_of_mem _ (List.mem_map_of_mem ?_)
      rw [List.mem_tails, ← hbegun]
      exact List.suffix_append ..
  · cases hctx

theorem Holds.only (ha : a.Holds l) (ss : List Scan) : (only ss a).Holds l := by
  intro ts ts' h
  unfold Effect.only at h
  split_ifs at h with heq
  rw [heq]
  exact ha ss ts' h

theorem Holds.run (ha : a.Holds l) {s s' : Scan} (h : a [s] = some [s']) : s.run l = some s' := by
  obtain ⟨t, ht, hrun⟩ := ha [s] [s'] h s List.mem_cons_self
  rwa [List.mem_singleton.1 ht] at hrun

/-- Code that ends in itself, by its effect. -/
theorem Holds.fragment (ha : a.Holds l) (h : a [{}] = some [{}]) : (of afterFragment).Holds l :=
  holds_fragment List.mem_cons_self (ha.run h)

theorem Holds.trim {w : Text} (ha : a.Holds (l ++ w)) (hw : ∀ c ∈ w, c ∈ Scan.blanks) :
    (trim a).Holds l := by
  intro ss ss' h s hs
  obtain ⟨ts, hts, h⟩ := Option.bind_eq_some_iff.1 h
  split_ifs at h with hcode
  cases h
  obtain ⟨t, ht, hrun⟩ := ha ss ts hts s hs
  have htcode : t.context = .code := of_decide_eq_true (List.all_eq_true.1 hcode t ht)
  obtain ⟨u, hu, huctx, huexp⟩ := Scan.run_of_run_append_blanks hw hrun (by rw [htcode]; decide)
  refine ⟨u, List.mem_dedup.2 (List.mem_flatMap.2 ⟨t, ht, ?_⟩), hu⟩
  rw [← huexp]
  exact List.mem_map_of_mem huctx

end Effect

/-- What texts do to scans of C++. -/
def effects : Domain Effect where
  Holds := Effect.Holds
  lit := Effect.lit
  append := Effect.append
  join := Effect.join
  star := Effect.star
  int := .of Effect.afterNumber
  holds_lit := Effect.holds_lit
  holds_append := Effect.Holds.append
  holds_join_left := Effect.Holds.join_left
  holds_join_right := Effect.Holds.join_right
  holds_star := Effect.holds_star
  holds_int := Effect.holds_number

/-! ## Literals spelled out -/

section

variable {l : Text}

/-- What is true of a template spelled out is true of it. -/
theorem of_spelled {β : Type} (P : β → Prop) {x y : β} (h : x = y) (hx : P x) : P y := h ▸ hx

theorem toList_spelled : l = (String.ofList l).toList := String.toList_ofList.symm

theorem Node.text_spelled : Node.text l = .text (String.ofList l).toList :=
  congrArg _ toList_spelled

theorem Expr.str_spelled : Expr.lit (.str l) = .lit (.str (String.ofList l).toList) :=
  congrArg (fun l => Expr.lit (.str l)) toList_spelled

theorem cons_congr {β : Type} {x y : β} {xs ys : List β} (h : x = y) (hs : xs = ys) :
    x :: xs = y :: ys := by
  rw [h, hs]

theorem append_congr {β : Type} {xs xs' ys ys' : List β} (h : xs = xs') (h' : ys = ys') :
    xs ++ ys = xs' ++ ys' := by
  rw [h, h']

theorem Expr.fn_congr {op : Operation} {es es' : List Expr} (h : es = es') :
    Expr.fn op es = .fn op es' :=
  congrArg _ h

theorem Node.print_congr {e e' : Expr} (h : e = e') : Node.print e = .print e' := congrArg _ h

theorem Node.set_congr {x : String} {e e' : Expr} (h : e = e') : Node.set x e = .set x e' :=
  congrArg _ h

theorem Node.ite_congr {c c' : Expr} {t t' f f' : List Node} (hc : c = c') (ht : t = t')
    (hf : f = f') : Node.ite c t f = .ite c' t' f' := by
  rw [hc, ht, hf]

theorem Node.forIn_congr {x : String} {e : Expr} {b b' : List Node} (h : b = b') :
    Node.forIn x e b = .forIn x e b' :=
  congrArg _ h

end

end Template
