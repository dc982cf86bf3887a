import Dbgen4.Template.Render

/-!
# What a template renders to, from what is known

A rendering hands its locals on, and a loop leaves its own behind. A part that does not look
at them renders to the same text whatever they are. So a part is judged by what is *known* of
the environment (`Known`): the data it has at least, and its locals but for the stale ones.
`Renders` says that whatever else there is, the part renders to a text, and what is known
after it; its rules follow the syntax:

* `Renders.append`, `Renders.text`, `Renders.print`, `Renders.set`, `Renders.ite`;
* `Renders.forIn`: the iterations start from the same knowledge each, where everything that
  the loop writes is stale, so that their texts do not depend on each other;
* `Renders.frame`: what a part does not write is known after it as before.
-/

namespace Template

variable {cs : Callbacks}

theorem bind_eq_ok {α β : Type} {x : Except RenderError α} {f : α → Except RenderError β} {b : β} :
    x >>= f = .ok b ↔ ∃ a, x = .ok a ∧ f a = .ok b := by
  cases x with
  | error e => exact ⟨nofun, fun ⟨_, h, _⟩ => nomatch h⟩
  | ok a =>
    refine ⟨fun h => ⟨a, rfl, h⟩, fun ⟨_, ha, h⟩ => ?_⟩
    cases ha
    exact h

theorem pure_eq_ok {α : Type} {a b : α} : (pure a : Except RenderError α) = .ok b ↔ a = b :=
  ⟨fun h => Except.ok.inj h, fun h => congrArg Except.ok h⟩

@[simp] theorem ok_bind {α β : Type} (a : α) (f : α → Except RenderError β) :
    ((.ok a : Except RenderError α) >>= f) = f a := rfl

/-! ## Renderings put together -/

section

variable {env env₁ env₂ : Env} {s s' : Text} {node : Node} {nodes nodes' : List Node}

theorem Node.renderAll_cons (h : node.render cs env = .ok (s, env₁))
    (h' : Node.renderAll cs nodes env₁ = .ok (s', env₂)) :
    Node.renderAll cs (node :: nodes) env = .ok (s ++ s', env₂) := by
  simp only [renderAll, h, h', ok_bind]
  rfl

theorem Node.renderAll_single (h : node.render cs env = .ok (s, env₁)) :
    Node.renderAll cs [node] env = .ok (s, env₁) := by
  have hcons : Node.renderAll cs [node] env = .ok (s ++ [], env₁) := Node.renderAll_cons h rfl
  rwa [List.append_nil] at hcons

theorem Node.renderAll_append (h : Node.renderAll cs nodes env = .ok (s, env₁))
    (h' : Node.renderAll cs nodes' env₁ = .ok (s', env₂)) :
    Node.renderAll cs (nodes ++ nodes') env = .ok (s ++ s', env₂) := by
  induction nodes generalizing env s with
  | nil =>
    cases h
    exact h'
  | cons node nodes ih =>
    simp only [renderAll, bind_eq_ok, pure_eq_ok, Prod.exists] at h
    obtain ⟨t, env', hnode, t', env'', hnodes, hp⟩ := h
    cases hp
    rw [List.append_assoc]
    exact Node.renderAll_cons hnode (ih hnodes)

theorem iterate_cons {body : Env → Except RenderError (Text × Env)} {x : String} {n i : ℕ}
    {v : Json} {vs : List Json} (h : body (env.enter x v i n) = .ok (s, env₁))
    (h' : iterate body x n (i + 1) vs env₁ = .ok (s', env₂)) :
    iterate body x n i (v :: vs) env = .ok (s ++ s', env₂) := by
  simp only [iterate, h, h', ok_bind]
  rfl

end

/-! ## What is read and what is written -/

mutual

/-- The variables of an expression. -/
def Expr.reads : Expr → List String
  | lit _ => []
  | var x _ => [x]
  | and a b | or a b => a.reads ++ b.reads
  | fn _ args => Expr.readsAll args

/-- The variables of the operands. -/
def Expr.readsAll : List Expr → List String
  | [] => []
  | e :: es => e.reads ++ Expr.readsAll es

end

mutual

/-- The locals that a part may change. -/
def Node.writes : Node → List String
  | text _ | print _ => []
  | set x _ => [x]
  | ite _ t f => Node.writesAll t ++ Node.writesAll f
  | forIn x _ body => x :: "loop" :: Node.writesAll body

/-- The locals that the parts may change. -/
def Node.writesAll : List Node → List String
  | [] => []
  | node :: nodes => node.writes ++ Node.writesAll nodes

end

namespace Env

variable (env : Env) (x : String) (v : Json)

@[simp] theorem data_set : (env.set x v).data = env.data := rfl

@[simp] theorem locals_set_self : (env.set x v).locals x = some v := Function.update_self ..

theorem locals_set_of_ne {y : String} (h : y ≠ x) : (env.set x v).locals y = env.locals y :=
  Function.update_of_ne h ..

@[simp] theorem data_leave (saved : Option Json) : (env.leave x saved).data = env.data := by
  unfold leave
  split
  · split <;> rfl
  · rfl

theorem locals_leave_of_ne {y : String} (saved : Option Json) (hx : y ≠ x) (hl : y ≠ "loop") :
    (env.leave x saved).locals y = env.locals y := by
  unfold leave
  split
  · split
    · exact locals_set_of_ne _ _ _ hx
    · rw [locals_set_of_ne _ _ _ hl, locals_set_of_ne _ _ _ hx]
  · exact locals_set_of_ne _ _ _ hx

theorem locals_enter_of_ne {y : String} (i n : ℕ) (hx : y ≠ x) (hl : y ≠ "loop") :
    (env.enter x v i n).locals y = env.locals y := by
  rw [enter, locals_set_of_ne _ _ _ hl, locals_set_of_ne _ _ _ hx]

end Env

/-- The data is the same, and the locals are, but for some. -/
structure Env.Keeps (written : List String) (env env' : Env) : Prop where
  data : env'.data = env.data
  locals : ∀ x ∉ written, env'.locals x = env.locals x

namespace Env.Keeps

variable {env env' env'' : Env} {written written' : List String}

theorem refl : Keeps written env env := ⟨rfl, fun _ _ => rfl⟩

theorem trans (h : Keeps written env env') (h' : Keeps written env' env'') :
    Keeps written env env'' :=
  ⟨h'.data.trans h.data, fun x hx => (h'.locals x hx).trans (h.locals x hx)⟩

theorem mono (h : Keeps written env env') (hsub : written ⊆ written') : Keeps written' env env' :=
  ⟨h.data, fun x hx => h.locals x fun hmem => hx (hsub hmem)⟩

end Env.Keeps

theorem iterate_keeps {body : Env → Except RenderError (Text × Env)} {written : List String}
    (hbody : ∀ env p, body env = .ok p → env.Keeps written p.2) {x : String} {n i : ℕ}
    {vs : List Json} {env : Env} {p : Text × Env} (h : iterate body x n i vs env = .ok p) :
    env.Keeps (x :: "loop" :: written) p.2 := by
  induction vs generalizing i env p with
  | nil =>
    cases h
    exact .refl
  | cons v vs ih =>
    simp only [iterate, bind_eq_ok, pure_eq_ok, Prod.exists] at h
    obtain ⟨s, env₁, h₁, s', env₂, h₂, rfl⟩ := h
    have henter : env.Keeps (x :: "loop" :: written) (env.enter x v i n) := by
      refine ⟨rfl, fun y hy => ?_⟩
      simp only [List.mem_cons, not_or] at hy
      exact env.locals_enter_of_ne x v i n hy.1 hy.2.1
    have hfirst : (env.enter x v i n).Keeps (x :: "loop" :: written) env₁ :=
      (hbody _ _ h₁).mono (List.subset_cons_of_subset x (List.subset_cons_self ..))
    have hrest : env₁.Keeps (x :: "loop" :: written) env₂ := ih (p := (s', env₂)) h₂
    exact (henter.trans hfirst).trans hrest

mutual

/-- A part changes what it writes, and nothing else. -/
theorem Node.render_keeps : ∀ (node : Node) (env : Env) (p : Text × Env),
    node.render cs env = .ok p → env.Keeps node.writes p.2
  | text s, env, p, h => by
    cases h
    exact .refl
  | print e, env, p, h => by
    simp only [render, bind_eq_ok, pure_eq_ok] at h
    obtain ⟨v, -, s, -, rfl⟩ := h
    exact .refl
  | set x e, env, p, h => by
    simp only [render, bind_eq_ok, pure_eq_ok] at h
    obtain ⟨v, -, rfl⟩ := h
    exact ⟨rfl, fun y hy => env.locals_set_of_ne x v (by simpa [writes] using hy)⟩
  | ite c t f, env, p, h => by
    simp only [render, bind_eq_ok] at h
    obtain ⟨v, -, h⟩ := h
    split at h
    · exact (Node.renderAll_keeps t env p h).mono (List.subset_append_left ..)
    · exact (Node.renderAll_keeps f env p h).mono (List.subset_append_right ..)
  | forIn x e body, env, p, h => by
    simp only [render, bind_eq_ok] at h
    obtain ⟨v, -, h⟩ := h
    cases v with
    | arr vs =>
      simp only [bind_eq_ok, pure_eq_ok, Prod.exists] at h
      obtain ⟨s, env', h', rfl⟩ := h
      have hstart : env.Keeps (x :: "loop" :: Node.writesAll body)
          (env.set "loop" (loopStart vs.length)) :=
        ⟨rfl, fun y hy => env.locals_set_of_ne _ _ (by simp_all)⟩
      have hloop := hstart.trans (iterate_keeps (Node.renderAll_keeps body) h')
      refine hloop.trans ⟨env'.data_leave x _, fun y hy => ?_⟩
      simp only [List.mem_cons, not_or] at hy
      exact env'.locals_leave_of_ne x _ hy.1 hy.2.1
    | _ => cases h

/-- The parts change what they write, and nothing else. -/
theorem Node.renderAll_keeps : ∀ (nodes : List Node) (env : Env) (p : Text × Env),
    Node.renderAll cs nodes env = .ok p → env.Keeps (Node.writesAll nodes) p.2
  | [], env, p, h => by
    cases h
    exact .refl
  | node :: nodes, env, p, h => by
    simp only [renderAll, bind_eq_ok, pure_eq_ok, Prod.exists] at h
    obtain ⟨s, env₁, h₁, s', env₂, h₂, rfl⟩ := h
    exact ((Node.render_keeps node env _ h₁).mono (List.subset_append_left ..)).trans
      ((Node.renderAll_keeps nodes env₁ _ h₂).mono (List.subset_append_right ..))

end

/-! ## What is known -/

/-- What is known of an environment: the data it has at least, and its locals but for the
    stale ones. -/
structure Known where
  env : Env
  stale : List String := []

namespace Known

variable (K K' : Known)

/-- It is true of an environment. -/
structure Of (env : Env) : Prop where
  data : ∀ x path v, K.env.data.at? (x :: path) = some v → env.data.at? (x :: path) = some v
  locals : ∀ x ∉ K.stale, K.env.locals x = env.locals x

/-- A local is assigned. -/
def set (x : String) (v : Json) : Known := ⟨K.env.set x v, K.stale.filter (· ≠ x)⟩

/-- Some locals are no longer known. -/
def forget (xs : List String) : Known := ⟨K.env, xs ++ K.stale⟩

/-- What is known in an iteration of a loop that writes `xs`. -/
def iteration (xs : List String) (x : String) (v : Json) (i n : ℕ) : Known :=
  ((K.forget xs).set x v).set "loop" (loopData i n)

variable {K K'} {env env' : Env} {x : String}

theorem of_env : K.Of K.env := ⟨fun _ _ _ h => h, fun _ _ => rfl⟩

theorem Of.set (h : K.Of env) (x : String) (v : Json) : (K.set x v).Of (env.set x v) := by
  refine ⟨h.data, fun y hy => ?_⟩
  by_cases hyx : y = x
  · rw [hyx, Known.set, Env.locals_set_self, Env.locals_set_self]
  · rw [Known.set, Env.locals_set_of_ne _ _ _ hyx, Env.locals_set_of_ne _ _ _ hyx]
    exact h.locals y fun hmem => hy (List.mem_filter.2 ⟨hmem, by simpa using hyx⟩)

theorem Of.forget (h : K.Of env) {xs : List String} (hk : env.Keeps xs env') :
    (K.forget xs).Of env' := by
  refine ⟨fun y path v hv => ?_, fun y hy => ?_⟩
  · rw [hk.data]
    exact h.data y path v hv
  · rw [Known.forget, List.mem_append, not_or] at hy
    rw [hk.locals y hy.1]
    exact h.locals y hy.2

/-- A variable that is found in what is known is found. -/
theorem Of.lookup (h : K.Of env) (hx : x ∉ K.stale) {path : List String} {v : Json}
    (hv : K.env.lookup x path = some v) : env.lookup x path = some v := by
  rw [Env.lookup, Option.or_eq_some_iff] at hv ⊢
  rw [← h.locals x hx]
  exact hv.imp_right fun hv => ⟨hv.1, h.data x path v hv.2⟩

mutual

/-- An expression that reads nothing stale has its value. -/
theorem Of.eval (h : K.Of env) : ∀ (e : Expr) (v : Json), (∀ x ∈ e.reads, x ∉ K.stale) →
    e.eval cs K.env = .ok v → e.eval cs env = .ok v
  | .lit _, _, _, hv => hv
  | .var x path, v, hf, hv => by
    rw [Expr.eval] at hv ⊢
    cases hl : K.env.lookup x path with
    | none =>
      rw [hl] at hv
      cases hv
    | some w =>
      rw [hl] at hv
      rw [h.lookup (hf x (List.mem_singleton.2 rfl)) hl]
      exact hv
  | .and a b, v, hf, hv => by
    simp only [Expr.reads, List.mem_append] at hf
    rw [Expr.eval] at hv ⊢
    obtain ⟨va, ha, hv⟩ := bind_eq_ok.1 hv
    rw [Of.eval h a va (fun x hx => hf x (.inl hx)) ha, ok_bind]
    split at hv
    · rename_i hta
      obtain ⟨vb, hb, hv⟩ := bind_eq_ok.1 hv
      rw [if_pos hta, Of.eval h b vb (fun x hx => hf x (.inr hx)) hb]
      exact hv
    · rename_i hta
      rw [if_neg hta]
      exact hv
  | .or a b, v, hf, hv => by
    simp only [Expr.reads, List.mem_append] at hf
    rw [Expr.eval] at hv ⊢
    obtain ⟨va, ha, hv⟩ := bind_eq_ok.1 hv
    rw [Of.eval h a va (fun x hx => hf x (.inl hx)) ha, ok_bind]
    split at hv
    · rename_i hta
      rw [if_pos hta]
      exact hv
    · rename_i hta
      obtain ⟨vb, hb, hv⟩ := bind_eq_ok.1 hv
      rw [if_neg hta, Of.eval h b vb (fun x hx => hf x (.inr hx)) hb]
      exact hv
  | .fn op args, v, hf, hv => by
    rw [Expr.eval] at hv ⊢
    obtain ⟨vs, hvs, hv⟩ := bind_eq_ok.1 hv
    rw [Of.evalAll h args vs hf hvs]
    exact hv

theorem Of.evalAll (h : K.Of env) : ∀ (es : List Expr) (vs : List Json),
    (∀ x ∈ Expr.readsAll es, x ∉ K.stale) → Expr.evalAll cs K.env es = .ok vs →
    Expr.evalAll cs env es = .ok vs
  | [], _, _, hvs => hvs
  | e :: es, vs, hf, hvs => by
    simp only [Expr.readsAll, List.mem_append] at hf
    rw [Expr.evalAll] at hvs ⊢
    obtain ⟨v, hv, hvs⟩ := bind_eq_ok.1 hvs
    obtain ⟨ws, hws, hvs⟩ := bind_eq_ok.1 hvs
    rw [Of.eval h e v (fun x hx => hf x (.inl hx)) hv, ok_bind,
      Of.evalAll h es ws (fun x hx => hf x (.inr hx)) hws]
    exact hvs

end

end Known

/-! ## The rules -/

/-- Whatever is true besides what is known, the parts render to `out`, and `K₁` is known then. -/
def Renders (cs : Callbacks) (K : Known) (nodes : List Node) (out : Text) (K₁ : Known) : Prop :=
  ∀ env, K.Of env → ∃ env₁, Node.renderAll cs nodes env = .ok (out, env₁) ∧ K₁.Of env₁

namespace Renders

variable {K K₁ K₂ : Known} {nodes nodes' : List Node} {out out' : Text}

theorem nil : Renders cs K [] [] K := fun env h => ⟨env, rfl, h⟩

theorem append (h : Renders cs K nodes out K₁) (h' : Renders cs K₁ nodes' out' K₂) :
    Renders cs K (nodes ++ nodes') (out ++ out') K₂ := by
  intro env henv
  obtain ⟨env₁, hr, henv₁⟩ := h env henv
  obtain ⟨env₂, hr', henv₂⟩ := h' env₁ henv₁
  exact ⟨env₂, Node.renderAll_append hr hr', henv₂⟩

theorem cons {node : Node} (h : Renders cs K [node] out K₁) (h' : Renders cs K₁ nodes out' K₂) :
    Renders cs K (node :: nodes) (out ++ out') K₂ :=
  h.append h'

/-- A single part. -/
theorem single {node : Node}
    (h : ∀ env, K.Of env → ∃ env₁, node.render cs env = .ok (out, env₁) ∧ K₁.Of env₁) :
    Renders cs K [node] out K₁ := by
  intro env henv
  obtain ⟨env₁, hr, henv₁⟩ := h env henv
  exact ⟨env₁, Node.renderAll_single hr, henv₁⟩

theorem text (s : Text) : Renders cs K [.text s] s K := single fun env h => ⟨env, rfl, h⟩

variable {e : Expr} {v : Json}

theorem print (hf : ∀ x ∈ e.reads, x ∉ K.stale) (he : e.eval cs K.env = .ok v)
    (hv : v.print = .ok out) : Renders cs K [.print e] out K := by
  refine single fun env h => ⟨env, ?_, h⟩
  rw [Node.render, h.eval e v hf he, ok_bind, hv]
  rfl

theorem set {x : String} (hf : ∀ x ∈ e.reads, x ∉ K.stale) (he : e.eval cs K.env = .ok v) :
    Renders cs K [.set x e] [] (K.set x v) := by
  refine single fun env h => ⟨env.set x v, ?_, h.set x v⟩
  rw [Node.render, h.eval e v hf he]
  rfl

theorem ite (hf : ∀ x ∈ e.reads, x ∉ K.stale) (he : e.eval cs K.env = .ok v)
    (h : Renders cs K (if v.truthy then nodes else nodes') out K₁) :
    Renders cs K [.ite e nodes nodes'] out K₁ := by
  refine single fun env henv => ?_
  rw [Node.render, henv.eval e v hf he, ok_bind]
  obtain ⟨env₁, hr, henv₁⟩ := h env henv
  refine ⟨env₁, ?_, henv₁⟩
  split at hr
  · rw [if_pos ‹_›, hr]
  · rw [if_neg ‹_›, hr]

/-- What the parts do not write is known after them as before. -/
theorem frame (h : Renders cs K nodes out K₁) :
    Renders cs K nodes out (K.forget (Node.writesAll nodes)) := by
  intro env henv
  obtain ⟨env₁, hr, -⟩ := h env henv
  exact ⟨env₁, hr, henv.forget (Node.renderAll_keeps nodes env _ hr)⟩

/-- The iterations of a loop. What is known in each of them is known again after it. -/
theorem iterate {x : String} {n : ℕ} {vs : List Json} {outs : List Text} {i : ℕ}
    (hlen : outs.length = vs.length)
    (hbody : ∀ j v s, vs[j]? = some v → outs[j]? = some s →
      ∃ K₁, Renders cs (K.iteration (Node.writesAll nodes) x v (i + j) n) nodes s K₁)
    {env : Env} (henv : (K.forget (x :: "loop" :: Node.writesAll nodes)).Of env) :
    ∃ env₁, iterate (Node.renderAll cs nodes) x n i vs env = .ok (outs.flatten, env₁) := by
  induction vs generalizing outs i env with
  | nil =>
    rw [List.length_nil, List.length_eq_zero_iff] at hlen
    exact ⟨env, by rw [hlen]; rfl⟩
  | cons v vs ih =>
    cases outs with
    | nil => cases hlen
    | cons s outs =>
      obtain ⟨K₁, hr⟩ := hbody 0 v s rfl rfl
      have hiter : (K.iteration (Node.writesAll nodes) x v i n).Of (env.enter x v i n) := by
        refine ⟨henv.data, fun y hy => ?_⟩
        by_cases hl : y = "loop"
        · rw [hl, Known.iteration, Env.enter, Known.set, Env.locals_set_self, Env.locals_set_self]
        · by_cases hx : y = x
          · rw [Known.iteration, Env.enter, Known.set, Env.locals_set_of_ne _ _ _ hl,
              Env.locals_set_of_ne _ _ _ hl, hx, Known.set, Env.locals_set_self,
              Env.locals_set_self]
          · rw [env.locals_enter_of_ne x v i n hx hl]
            have hstale : y ∉ Node.writesAll nodes ++ K.stale := fun hmem => hy <| by
              simpa [Known.iteration, Known.set, Known.forget, hl, hx] using hmem
            rw [Known.iteration, Known.set, Env.locals_set_of_ne _ _ _ hl, Known.set,
              Env.locals_set_of_ne _ _ _ hx]
            exact henv.locals y (by simpa [Known.forget, hl, hx] using hstale)
      obtain ⟨env₁, hr₁, -⟩ := hr _ hiter
      have hdone : Template.iterate (Node.renderAll cs nodes) x n (i + 1) [] env₁ =
          .ok ([], env₁) := rfl
      have hkeeps : env.Keeps (x :: "loop" :: Node.writesAll nodes) env₁ :=
        iterate_keeps (Node.renderAll_keeps nodes) (iterate_cons hr₁ hdone)
      have henv₁ : (K.forget (x :: "loop" :: Node.writesAll nodes)).Of env₁ :=
        ⟨fun y path w hw => hkeeps.data ▸ henv.data y path w hw, fun y hy =>
          (henv.locals y hy).trans (hkeeps.locals y fun hmem =>
            hy (List.mem_append_left _ hmem)).symm⟩
      obtain ⟨env₂, hr₂⟩ := ih (i := i + 1) (Nat.succ.inj hlen)
        (fun j w t hw ht => by
          have hij : i + 1 + j = i + (j + 1) := by omega
          rw [hij]
          exact hbody (j + 1) w t hw ht) henv₁
      exact ⟨env₂, iterate_cons hr₁ hr₂⟩

/-- A loop: the texts of the iterations, each from the same knowledge. -/
theorem forIn {x : String} {vs : List Json} (outs : List Text)
    (hf : ∀ x ∈ e.reads, x ∉ K.stale) (he : e.eval cs K.env = .ok (.arr vs))
    (hlen : outs.length = vs.length)
    (hbody : ∀ i v s, vs[i]? = some v → outs[i]? = some s →
      ∃ K₁, Renders cs (K.iteration (Node.writesAll nodes) x v i vs.length) nodes s K₁) :
    Renders cs K [.forIn x e nodes] outs.flatten
      (K.forget (x :: "loop" :: Node.writesAll nodes)) := by
  refine single fun env henv => ?_
  have hstart : env.Keeps (x :: "loop" :: Node.writesAll nodes)
      (env.set "loop" (loopStart vs.length)) :=
    ⟨rfl, fun y hy => env.locals_set_of_ne _ _ (by simp_all)⟩
  obtain ⟨env₁, hr⟩ := iterate (i := 0) (n := vs.length) hlen
    (fun j v s hv hs => by simpa using hbody j v s hv hs) (henv.forget hstart)
  have hnode : (Node.forIn x e nodes).render cs env =
      .ok (outs.flatten, env₁.leave x (env.locals "loop")) := by
    simp only [Node.render, henv.eval e _ hf he, hr, ok_bind]
    rfl
  exact ⟨_, hnode, henv.forget (Node.render_keeps _ env _ hnode)⟩

end Renders

end Template
