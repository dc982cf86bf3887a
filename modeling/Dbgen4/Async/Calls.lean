import Dbgen4.Async.Buffers

/-!
# The asynchronous facade: jobs and their calls

Every job enqueued is the job of one call of the client, and carries what the
caller's buffer held at that call (`origin_accepted`); the jobs are enqueued in
the order of the calls, at most one a call (`ordered`); and a job executes its
statement with the parameters it carries (`execute_params`). The trace gives
each job its call by the position of the call (`accepted`).
-/

namespace Dbgen4.Async

open Rtl

variable {B : Backend} {tr : List Event} {s s' : State B} {e : Event}

/-! ## Jobs and their calls -/

/-- The call a step begins, and what the caller's buffer of its statement holds. -/
@[simp] def Event.called : Event → Option (Op × Option ParamBuffer)
  | .call op held => some (op, held)
  | _ => none

/-- The calls. -/
def calls (tr : List Event) : List (Op × Option ParamBuffer) := chron Event.called tr

/-- The jobs enqueued, each with the position of its call. -/
def accepted : List Event → List (Nat × QueuedJob)
  | [] => []
  | e :: tr => accepted tr ++ (e.enqueued.map fun qj => ((calls tr).length - 1, qj)).toList

/-- The job a call queues, where the caller's buffer of its statement holds `par`. -/
inductive Op.Posts : Op → Option ParamBuffer → QueuedJob → Prop
  | prepare (stmt : StmtType) (sql : String) (n m : Nat) (held : Option ParamBuffer) :
    Posts (.prepare stmt sql n m) held ⟨.prepare stmt sql n m, none⟩
  | submit (i : Nat) (par : ParamBuffer) :
    Posts (.submit ⟨some i⟩) (some par) ⟨.submit i (snapshotParams par), some i⟩
  | exec (i : Nat) (par : ParamBuffer) :
    Posts (.exec ⟨some i⟩) (some par) ⟨.exec i (snapshotParams par), some i⟩
  | executeSync (i : Nat) (par : ParamBuffer) :
    Posts (.executeSync ⟨some i⟩) (some par) ⟨.executeSync i (snapshotParams par), some i⟩
  | fetchMore (i : Nat) (held : Option ParamBuffer) :
    Posts (.fetchMore ⟨some i⟩) held ⟨.fetchMore i, some i⟩
  | commit (held : Option ParamBuffer) : Posts .commit held ⟨.commit, none⟩
  | commitUndo (held : Option ParamBuffer) : Posts .commit held ⟨.rollbackIgnored, none⟩
  | rollback (held : Option ParamBuffer) : Posts .rollback held ⟨.rollback, none⟩

/-- The job is the one of the call at position `k`, and its parameters fit the buffer
    of its statement. -/
def Origin (tr : List Event) (s : State B) (k : Nat) (qj : QueuedJob) : Prop :=
  ∃ op held, (calls tr)[k]? = some (op, held) ∧ op.Posts held qj ∧
    ∀ par ∈ held, ∀ i ∈ op.statement, s.Fits i par

theorem calls_cons (e : Event) (tr : List Event) :
    calls (e :: tr) = calls tr ++ e.called.toList := chron_cons ..

theorem snapshot_eq (hs : Typed s) {i : Nat} {snap : ParamSnapshot}
    (h : s.snapshot i = some snap) : ∃ c, s.callers[i]? = some c ∧ snap = snapshotParams c.par := by
  simp only [State.snapshot, Option.bind_eq_bind, Option.bind_eq_some_iff, Option.pure_def,
    Option.some.injEq] at h
  obtain ⟨c, hc, t, ht, rfl⟩ := h
  refine ⟨c, hc, ?_⟩
  obtain ⟨-, c', hc', hstmt⟩ := hs.task i t ht
  obtain rfl := Option.some.inj (hc.symm.trans hc')
  split
  · rfl
  · rename_i hp
    refine (snapshotParams_nil ?_).symm
    rw [hs.strides c (List.mem_of_getElem? hc), ← hstmt]
    simpa [StmtType.hasParameters] using hp

theorem snapshotSync_eq (hs : Typed s) {i : Nat} {snap : ParamSnapshot}
    (h : s.snapshotSync i = some snap) :
    ∃ c, s.callers[i]? = some c ∧ snap = snapshotParams c.par := by
  simp only [State.snapshotSync, Option.bind_eq_bind, Option.bind_eq_some_iff] at h
  obtain ⟨c, hc, h⟩ := h
  split at h
  · exact snapshot_eq hs h
  · rename_i hp
    obtain rfl := Option.some.inj h
    refine ⟨c, hc, (snapshotParams_nil ?_).symm⟩
    rw [hs.strides c (List.mem_of_getElem? hc)]
    simpa [StmtType.hasParameters] using hp

theorem held_eq {op : Op} {i : Nat} {c : Caller} (hop : op.statement = some i)
    (hc : s.callers[i]? = some c) : s.held op = some c.par := by
  simp [State.held, hop, hc]

/-- The job a call has ready when it begins. -/
theorem posts_of_begin (hs : Typed s) {op : Op} {c : PostCtx} {qj : QueuedJob}
    (h : (s.begin op).posting = some (c, qj)) : op.Posts (s.held op) qj := by
  rcases op with ⟨stmt, sql, n, m⟩ | ⟨⟨_ | i⟩⟩ | ⟨⟨_ | i⟩⟩ | ⟨⟨_ | i⟩⟩ | ⟨⟨_ | i⟩⟩ | _ | _ | _ | _
  all_goals simp only [State.begin] at h
  -- The calls that first drain have nothing ready; the others have just snapshot their parameters.
  all_goals try cases h
  · exact .prepare ..
  · split at h
    · cases h
    · rename_i snap hsnap
      obtain ⟨c, hc, rfl⟩ := snapshot_eq hs hsnap
      cases h
      rw [held_eq rfl hc]
      exact .submit ..
  · split at h
    · cases h
    · rename_i snap hsnap
      obtain ⟨c, hc, rfl⟩ := snapshot_eq hs hsnap
      cases h
      rw [held_eq rfl hc]
      exact .exec ..
  · split at h
    · cases h
    · rename_i snap hsnap
      obtain ⟨c, hc, rfl⟩ := snapshotSync_eq hs hsnap
      cases h
      rw [held_eq rfl hc]
      exact .executeSync ..
  · exact .fetchMore ..

/-- The call that posts its job only once it has drained the queue. -/
def DrainCtx.op : DrainCtx → Option Op
  | .commit => some .commit
  | .rollback => some .rollback
  | _ => none

/-- The call that is on its way to post its job. -/
def ClientPc.toPost : ClientPc → Option Op
  | .drain c | .drainAsleep c => c.op
  | .readCommit => some .commit
  | _ => none

@[simp] theorem toPost_notified (pc : ClientPc) : pc.notified.toPost = pc.toPost := by
  cases pc <;> rfl

@[simp] theorem toPost_next (c : PostCtx) : c.next.toPost = none := by
  cases c <;> rfl

theorem toPost_begin {op op' : Op} (h : (s.begin op).toPost = some op') : op' = op := by
  rcases op with ⟨stmt, sql, n, m⟩ | ⟨⟨_ | i⟩⟩ | ⟨⟨_ | i⟩⟩ | ⟨⟨_ | i⟩⟩ | ⟨⟨_ | i⟩⟩ | _ | _ | _ | _
  all_goals simp only [State.begin] at h
  all_goals first
  | cases h; done
  | (cases h; rfl)
  | (split at h <;> cases h)

/-- A step of the client other than a call gets the job it posts from the call. -/
theorem ClientStep.toPost (h : ClientStep s e s') (he : e.called = none) :
    (∀ op, s'.client.toPost = some op → s.client.toPost = some op) ∧
      ∀ c qj, s'.client.posting = some (c, qj) → s.client.posting = some (c, qj) ∨
        ∃ op, s.client.toPost = some op ∧ ∀ held, op.Posts held qj := by
  cases h with
  | call _ _ => cases he
  | @drained d h _ =>
    rw [h]
    rcases d with _ | _ | _ | _ | _ | _ | _ | _ | _ | _
    all_goals refine ⟨fun op hop => ?_, fun c qj hc => ?_⟩
    all_goals first
    | exact hop
    | (cases hop)
    | (cases hc; done)
    | (cases hc; exact .inr ⟨.rollback, rfl, .rollback⟩)
  | readCommit h =>
    rw [h]
    simp only [State.afterReadCommit]
    split
    · refine ⟨fun op hop => (by cases hop), fun c qj hc => ?_⟩
      cases hc
      exact .inr ⟨.commit, rfl, .commitUndo⟩
    · refine ⟨fun op hop => (by cases hop), fun c qj hc => ?_⟩
      cases hc
      exact .inr ⟨.commit, rfl, .commit⟩
  | discard _ _ | notify _ =>
    refine ⟨fun op hop => ?_, fun c qj hc => ?_⟩
    · cases (toPost_next _).symm.trans hop
    · cases (posting_next _).symm.trans hc
  | @ret r _ => cases r <;> exact ⟨fun op hop => (by cases hop), fun c qj hc => (by cases hc)⟩
  | write h _ _ | isFinished h | error h =>
    exact ⟨fun op hop => hop, fun c qj hc => .inl hc⟩
  | blocked h _ _ | slotSpurious h | slotSleep h _ | drainSleep h _ | drainSpurious h =>
    rw [h]
    exact ⟨fun op hop => hop, fun c qj hc => .inl hc⟩
  | _ => exact ⟨fun op hop => (by cases hop), fun c qj hc => (by cases hc)⟩

theorem toPost_call (h : (asyncDb B).Run tr s) {op : Op} (hop : s.client.toPost = some op) :
    ∃ held, (calls tr)[(calls tr).length - 1]? = some (op, held) := by
  refine h.invariant (I := fun tr s => ∀ op, s.client.toPost = some op →
    ∃ held, (calls tr)[(calls tr).length - 1]? = some (op, held)) ?_ ?_ op hop
  · rintro _ ⟨db, rfl⟩ op hop
    cases hop
  · rintro tr s e s' - ih (h | h) op hop
    · cases he : e.called with
      | some p =>
        cases h with
        | call _ _ =>
          obtain rfl := toPost_begin hop
          exact ⟨_, by simp [calls_cons]; rfl⟩
        | _ => cases he
      | none =>
        rw [calls_cons, he, Option.toList_none, List.append_nil]
        exact ih op ((h.toPost he).1 op hop)
    · have hc : s'.client.toPost = s.client.toPost := by
        rcases h.client with h | h <;> simp [h]
      have he : e.called = none := by
        cases h <;> rfl
      rw [calls_cons, he, Option.toList_none, List.append_nil]
      exact ih op (hc ▸ hop)

/-- The job being posted is the one of the last call. -/
theorem called_posting (h : (asyncDb B).Run tr s) {c : PostCtx} {qj : QueuedJob}
    (hc : s.client.posting = some (c, qj)) : ∃ op held,
      (calls tr)[(calls tr).length - 1]? = some (op, held) ∧ op.Posts held qj := by
  refine h.invariant (I := fun tr s => ∀ c qj, s.client.posting = some (c, qj) → ∃ op held,
    (calls tr)[(calls tr).length - 1]? = some (op, held) ∧ op.Posts held qj) ?_ ?_ c qj hc
  · rintro _ ⟨db, rfl⟩ c qj hc
    cases hc
  · intro tr s e s' hr ih hst c qj hc
    cases he : e.called with
    | some p =>
      rcases hst with h | h
      · cases h with
        | @call op _ _ =>
          exact ⟨op, s.held op, by simp [calls_cons], posts_of_begin (typed hr) hc⟩
        | _ => cases he
      · cases h <;> cases he
    | none =>
      rw [calls_cons, he, Option.toList_none, List.append_nil]
      rcases hst with h | h
      · rcases (h.toPost he).2 c qj hc with hp | ⟨op, hop, hp⟩
        · exact ih c qj hp
        · obtain ⟨held, hk⟩ := toPost_call hr hop
          exact ⟨op, held, hk, hp held⟩
      · refine ih c qj ?_
        rcases h.client with h | h <;> simpa [h] using hc

theorem accepted_jobs (tr : List Event) : (accepted tr).map Prod.snd = enqueued tr := by
  induction tr with
  | nil => rfl
  | cons e tr ih =>
    rw [accepted, List.map_append, ih, enqueued, enqueued, chron_cons]
    cases e.enqueued <;> rfl

theorem accepted_mono {n : Nat} {x : Nat × QueuedJob} (h : (accepted tr)[n]? = some x)
    (e : Event) : (accepted (e :: tr))[n]? = some x := by
  rw [accepted, List.getElem?_append_left (List.getElem?_eq_some_iff.1 h).1, h]

theorem calls_mono {k : Nat} {x : Op × Option ParamBuffer} (h : (calls tr)[k]? = some x)
    (e : Event) : (calls (e :: tr))[k]? = some x := by
  rw [calls_cons, List.getElem?_append_left (List.getElem?_eq_some_iff.1 h).1, h]

/-- The client enqueues the job it is posting. -/
theorem posting_of_enqueued (h : (asyncDb B).step s e s') {qj : QueuedJob}
    (he : e.enqueued = some qj) : ∃ c, s.client.posting = some (c, qj) ∧ s'.client = .notify c := by
  rcases h with h | h
  · cases h with
    | store h _ _ | slotStore h _ =>
      obtain rfl := Option.some.inj he
      exact ⟨_, by rw [h]; rfl, rfl⟩
    | _ => cases he
  · cases h <;> cases he

/-- A job that was enqueued is the one of its call. -/
theorem called_accepted (h : (asyncDb B).Run tr s) {x : Nat × QueuedJob} (hx : x ∈ accepted tr) :
    ∃ op held, (calls tr)[x.1]? = some (op, held) ∧ op.Posts held x.2 := by
  refine h.invariant (I := fun tr _ => ∀ x ∈ accepted tr, ∃ op held,
    (calls tr)[x.1]? = some (op, held) ∧ op.Posts held x.2) ?_ ?_ x hx
  · intro s _ x hx
    cases hx
  · intro tr s e s' hr ih hst x hx
    rw [accepted, List.mem_append] at hx
    rcases hx with hx | hx
    · obtain ⟨op, held, hk, hp⟩ := ih x hx
      exact ⟨op, held, calls_mono hk e, hp⟩
    · rw [Option.mem_toList, Option.map_eq_some_iff] at hx
      obtain ⟨qj, he, rfl⟩ := hx
      obtain ⟨c, hc, -⟩ := posting_of_enqueued hst he
      obtain ⟨op, held, hk, hp⟩ := called_posting hr hc
      exact ⟨op, held, calls_mono hk e, hp⟩

/-- What a call finds in the caller's buffer. -/
theorem held_called (h : (asyncDb B).step s e s') {op : Op} {par : ParamBuffer}
    (hop : (op, some par) ∈ e.called.toList) {i : Nat} (hi : op.statement = some i) :
    s'.callers = s.callers ∧ ∃ c, s.callers[i]? = some c ∧ par = c.par := by
  rcases h with h | h
  · cases h with
    | call _ _ =>
      rw [Event.called, Option.toList_some, List.mem_singleton, Prod.mk.injEq] at hop
      obtain ⟨rfl, hheld⟩ := hop
      simp only [State.held, hi, Option.bind_eq_bind, Option.bind_some, Option.pure_def] at hheld
      obtain ⟨c, hc, hpar⟩ := Option.bind_eq_some_iff.1 hheld.symm
      exact ⟨rfl, c, hc, (Option.some.inj hpar).symm⟩
    | _ => cases hop
  · cases h <;> cases hop

/-- What a call found in the caller's buffer was of the class of its statement. -/
theorem strides_called (h : (asyncDb B).Run tr s) {op : Op} {par : ParamBuffer}
    (hop : (op, some par) ∈ calls tr) {i : Nat} (hi : op.statement = some i) :
    ∃ c, s.callers[i]? = some c ∧ par.strides = c.par.strides := by
  refine h.invariant (I := fun tr s => ∀ op par i, (op, some par) ∈ calls tr →
    op.statement = some i → ∃ c, s.callers[i]? = some c ∧ par.strides = c.par.strides)
    ?_ ?_ op par i hop hi
  · intro s _ op par i hop
    cases hop
  · intro tr s e s' hr ih hst op par i hop hi
    -- A caller keeps its buffer, but for rows and values.
    have hkept : ∀ c, s.callers[i]? = some c →
        ∃ c', s'.callers[i]? = some c' ∧ c'.par.strides = c.par.strides := by
      intro c hc
      rcases hst with h | h
      · rcases h.callers with ⟨j, c', par', rfl, hc', hs, hcs, -⟩ | ⟨_, _, -, hcs, -⟩ | ⟨hcs, -⟩
        · rw [hcs]
          by_cases hij : j = i
          · subst hij
            obtain rfl := Option.some.inj (hc.symm.trans hc')
            exact ⟨_, List.getElem?_set_self (List.getElem?_eq_some_iff.1 hc).1, hs⟩
          · exact ⟨c, by rw [List.getElem?_set_ne hij, hc], rfl⟩
        · refine ⟨c, ?_, rfl⟩
          rw [hcs, List.getElem?_append_left (List.getElem?_eq_some_iff.1 hc).1, hc]
        · exact ⟨c, hcs ▸ hc, rfl⟩
      · exact ⟨c, h.callers ▸ hc, rfl⟩
    rw [calls_cons, List.mem_append] at hop
    rcases hop with hop | hop
    · obtain ⟨c, hc, hpar⟩ := ih op par i hop hi
      obtain ⟨c', hc', hs⟩ := hkept c hc
      exact ⟨c', hc', hpar.trans hs.symm⟩
    · obtain ⟨hcs, c, hc, rfl⟩ := held_called hst hop hi
      exact ⟨c, hcs.symm ▸ hc, rfl⟩

/-- While the callers keep the rows of their buffers, they are those that the calls found. -/
theorem rows_called (h : (asyncDbKeeping B).Run tr s) {op : Op} {par : ParamBuffer}
    (hop : (op, some par) ∈ calls tr) {i : Nat} (hi : op.statement = some i) : s.Fits i par := by
  refine h.invariant (I := fun tr s => ∀ op par i, (op, some par) ∈ calls tr →
    op.statement = some i → s.Fits i par) ?_ ?_ op par i hop hi
  · intro s _ op par i hop
    cases hop
  · intro tr s e s' hr ih hst op par i hop hi
    rw [calls_cons, List.mem_append] at hop
    rcases hop with hop | hop
    · exact (ih op par i hop hi).step hst
    · obtain ⟨hcs, c, hc, rfl⟩ := held_called hst.1 hop hi
      exact ⟨c, hcs.symm ▸ hc, .refl _⟩

theorem origin_accepted (h : (asyncDbKeeping B).Run tr s) {x : Nat × QueuedJob}
    (hx : x ∈ accepted tr) : Origin tr s x.1 x.2 := by
  obtain ⟨op, held, hk, hp⟩ := called_accepted h.of_restrict hx
  refine ⟨op, held, hk, hp, fun par hpar i hi => rows_called h ?_ hi⟩
  exact hpar ▸ List.mem_of_getElem? hk

/-! ## The order of the jobs -/

/-- The call in progress has not enqueued its job. -/
def ClientPc.unposted (pc : ClientPc) : Bool := pc.posting.isSome || pc.toPost.isSome

@[simp] theorem unposted_notified (pc : ClientPc) : pc.notified.unposted = pc.unposted := by
  simp [ClientPc.unposted]

/-- Only a call makes the client one that has not enqueued its job. -/
theorem unposted_of_step (h : (asyncDb B).step s e s') (he : e.called = none)
    (hu : s'.client.unposted) : s.client.unposted := by
  rcases h with h | h
  · obtain ⟨htp, hpo⟩ := h.toPost he
    rw [ClientPc.unposted, Bool.or_eq_true] at hu ⊢
    rcases hu with hu | hu
    · obtain ⟨⟨c, qj⟩, hc⟩ := Option.isSome_iff_exists.1 hu
      rcases hpo c qj hc with hc | ⟨op, hop, -⟩
      · exact .inl (by rw [hc]; rfl)
      · exact .inr (by rw [hop]; rfl)
    · obtain ⟨op, hop⟩ := Option.isSome_iff_exists.1 hu
      exact .inr (by rw [htp op hop]; rfl)
  · rcases h.client with h | h <;> simpa [h] using hu

/-- The jobs enqueued, in the order of the calls; the call in progress has not
    enqueued one while it is `unposted`. -/
structure Ordered (tr : List Event) (s : State B) : Prop where
  sorted : ((accepted tr).map Prod.fst).Pairwise (· < ·)
  lt : ∀ x ∈ accepted tr, x.1 < (calls tr).length
  unposted : s.client.unposted → 0 < (calls tr).length ∧
    ∀ x ∈ accepted tr, x.1 + 1 < (calls tr).length

theorem Ordered.step (ho : Ordered tr s) (h : (asyncDb B).step s e s') : Ordered (e :: tr) s' := by
  cases hq : e.enqueued with
  | some qj =>
    -- The job of the call in progress is the last one.
    obtain ⟨c, hc, hc'⟩ := posting_of_enqueued h hq
    have hcalls : calls (e :: tr) = calls tr := by
      rw [calls_cons]
      cases e <;> first
      | exact List.append_nil _
      | cases hq
    obtain ⟨hpos, hlast⟩ := ho.unposted (by rw [ClientPc.unposted, hc]; rfl)
    have hacc : accepted (e :: tr) = accepted tr ++ [((calls tr).length - 1, qj)] := by
      rw [accepted, hq]
      rfl
    refine ⟨?_, fun x hx => ?_, fun hu => ?_⟩
    · rw [hacc, List.map_append, List.pairwise_append]
      refine ⟨ho.sorted, List.pairwise_singleton _ _, fun a ha b hb => ?_⟩
      obtain ⟨x, hx, rfl⟩ := List.mem_map.1 ha
      obtain rfl := List.mem_singleton.1 hb
      have := hlast x hx
      omega
    · rw [hacc, List.mem_append, List.mem_singleton] at hx
      rw [hcalls]
      rcases hx with hx | rfl
      · exact ho.lt x hx
      · exact Nat.sub_lt hpos Nat.one_pos
    · rw [hc'] at hu
      cases hu
  | none =>
    have hacc : accepted (e :: tr) = accepted tr := by
      rw [accepted, hq]
      exact List.append_nil _
    cases hop : e.called with
    | some p =>
      have hcalls : (calls (e :: tr)).length = (calls tr).length + 1 := by
        rw [calls_cons, hop, List.length_append]
        rfl
      refine ⟨hacc.symm ▸ ho.sorted, fun x hx => ?_, fun _ => ⟨?_, fun x hx => ?_⟩⟩
      · have := ho.lt x (hacc ▸ hx)
        omega
      · omega
      · have := ho.lt x (hacc ▸ hx)
        omega
    | none =>
      have hcalls : calls (e :: tr) = calls tr := by
        rw [calls_cons, hop]
        exact List.append_nil _
      refine ⟨hacc.symm ▸ ho.sorted, fun x hx => ?_, fun hu' => ?_⟩
      · rw [hcalls]
        exact ho.lt x (hacc ▸ hx)
      · rw [hcalls, hacc]
        exact ho.unposted (unposted_of_step h hop hu')

theorem ordered (h : (asyncDb B).Run tr s) : Ordered tr s := by
  refine h.invariant (I := Ordered) ?_ fun tr s e s' _ ho hst => ho.step hst
  rintro _ ⟨db, rfl⟩
  exact ⟨.nil, fun x hx => absurd hx List.not_mem_nil, fun hu => (by cases hu)⟩

/-! ## The parameters of an execution -/

/-- The job in hand is the one after those that have run to completion. -/
theorem accepted_inHand (h : (asyncDb B).Run tr s) {qj : QueuedJob}
    (hw : s.worker.inHand = some qj) : (started tr).length = (finished tr).length + 1 ∧
      ∃ k, (accepted tr)[(finished tr).length]? = some (k, qj) := by
  have hs := started_eq h
  rw [hw] at hs
  refine ⟨by rw [hs, List.length_append]; rfl, ?_⟩
  have he : ((accepted tr).map Prod.snd)[(finished tr).length]? = some qj := by
    rw [accepted_jobs, enqueued_eq h, hs]
    simp
  rw [List.getElem?_map, Option.map_eq_some_iff] at he
  obtain ⟨⟨k, qj'⟩, hk, rfl⟩ := he
  exact ⟨k, hk⟩

theorem Op.Posts.statement {op : Op} {held : Option ParamBuffer} {qj : QueuedJob}
    (h : op.Posts held qj) {i : Nat} {snap : ParamSnapshot}
    (hj : qj.fn.statement = some (i, snap)) :
    op.statement = some i ∧ ∃ par, held = some par ∧ snap = snapshotParams par := by
  cases h with
  | submit | exec | executeSync =>
    cases hj
    exact ⟨rfl, _, rfl, rfl⟩
  | _ => cases hj

/-- The parameters that a job carries are those its call found in the caller's buffer, which is
    of the class of the buffer of its query. -/
theorem carries_of_call (h : (asyncDb B).Run tr s) {k : Nat} {qj : QueuedJob}
    (hk : (k, qj) ∈ accepted tr) {op : Op} {held : Option ParamBuffer}
    (hop : (calls tr)[k]? = some (op, held)) {i : Nat} {snap : ParamSnapshot} {t : Task B}
    (hj : qj.fn.statement = some (i, snap)) (ht : s.task i = some t) :
    op.statement = some i ∧
      ∃ par, held = some par ∧ snap = snapshotParams par ∧ par.strides = t.par.strides := by
  obtain ⟨op', held', hop', hp⟩ := called_accepted h hk
  obtain ⟨rfl, rfl⟩ := Prod.mk.inj (Option.some.inj (hop'.symm.trans hop))
  obtain ⟨hi, par, rfl, rfl⟩ := hp.statement hj
  refine ⟨hi, par, rfl, rfl, ?_⟩
  obtain ⟨c, hc, hpar⟩ := strides_called h (List.mem_of_getElem? hop) hi
  obtain ⟨hst, c', hc', htc⟩ := (typed h).task i t ht
  obtain rfl := Option.some.inj (hc.symm.trans hc')
  rw [hpar, (typed h).strides c (List.mem_of_getElem? hc), hst, htc]

/-- The job in hand is the one of a call. -/
theorem carries (h : (asyncDb B).Run tr s) {qj : QueuedJob} (hw : s.worker.inHand = some qj)
    {i : Nat} {snap : ParamSnapshot} {t : Task B} (hj : qj.fn.statement = some (i, snap))
    (ht : s.task i = some t) : ∃ k op held,
      (accepted tr)[(finished tr).length]? = some (k, qj) ∧ (calls tr)[k]? = some (op, some held) ∧
      op.statement = some i ∧ snap = snapshotParams held ∧ held.strides = t.par.strides := by
  obtain ⟨-, k, hk⟩ := accepted_inHand h hw
  obtain ⟨op, held, hop, -⟩ := called_accepted h (List.mem_of_getElem? hk)
  obtain ⟨hi, par, rfl, hsnap, hs⟩ := carries_of_call h (List.mem_of_getElem? hk) hop hj ht
  exact ⟨k, op, par, hk, hop, hi, hsnap, hs⟩

/-- While the callers keep their rows, they also fit that buffer. -/
theorem carried (h : (asyncDbKeeping B).Run tr s) {qj : QueuedJob}
    (hw : s.worker.inHand = some qj) {i : Nat} {snap : ParamSnapshot} {t : Task B}
    (hj : qj.fn.statement = some (i, snap)) (ht : s.task i = some t) :
    ∃ k par, (accepted tr)[(finished tr).length]? = some (k, qj) ∧
      (∃ op, (calls tr)[k]? = some (op, some par)) ∧ snap = snapshotParams par ∧
      t.par.SameShape par ∧ t.par.strides = t.stmt.params := by
  obtain ⟨k, op, par, hk, hop, hi, hsnap, hs⟩ := carries h.of_restrict hw hj ht
  obtain ⟨c, hc, hpar⟩ := rows_called h (List.mem_of_getElem? hop) hi
  exact ⟨k, par, hk, ⟨op, hop⟩, hsnap, ⟨hs.symm, (rows_eq h ht hc).trans hpar.2.symm⟩,
    ((typed h.of_restrict).task i t ht).1⟩

/-- The copy into the query's buffer gives what the job carries. -/
theorem restored_of_carried {par par' : ParamBuffer} {t : Task B}
    (hs : t.par.SameShape par) (hst : t.par.strides = t.stmt.params)
    (h : (if t.stmt.hasParameters then restoreParams t.par (snapshotParams par) else some t.par) =
      some par') : par' = par := by
  split at h
  · rw [restoreParams_snapshotParams hs] at h
    exact (Option.some.inj h).symm
  · rename_i hp
    obtain rfl := Option.some.inj h
    refine hs.eq_of_strides_nil ?_
    rw [hst]
    simpa [StmtType.hasParameters] using hp

theorem Job.entry_ne_execute (j : Job) : j.entry ≠ .execute := by
  cases j <;> exact nofun

theorem Job.afterCheck_ne_execute (j : Job) : j.afterCheck ≠ .execute := by
  cases j <;> exact nofun

theorem Job.afterExecute_ne_execute (j : Job) (stmt : StmtType) :
    j.afterExecute stmt ≠ .execute := by
  rcases stmt with ⟨_, _, _ | _⟩ <;> cases j <;> exact nofun

/-- The client leaves the tasks alone while a job is in hand. -/
theorem ClientStep.tasks_eq (hr : (asyncDb B).Run tr s) (h : ClientStep s e s') {qj : QueuedJob}
    (hw : s.worker.inHand = some qj) : s'.tasks = s.tasks := by
  rcases h.callers with ⟨_, _, _, -, -, -, -, ht⟩ | ⟨stmt, n, hc, -, -⟩ | ⟨-, ht⟩
  · exact ht
  · have hs := slot_of_atRest hr (by rw [hc]; rfl)
    cases (congrArg Handoff.State.inHand hs).symm.trans hw
  · exact ht

/-- The parameters are restored when the job is about to execute its statement. -/
theorem restored (h : (asyncDbKeeping B).Run tr s) {qj : QueuedJob}
    (hw : s.worker = .run qj .execute) {i : Nat} {snap : ParamSnapshot} {t : Task B}
    (hj : qj.fn.statement = some (i, snap)) (ht : s.task i = some t) :
    snap = snapshotParams t.par := by
  refine h.invariant (I := fun _ s => ∀ qj i snap t, s.worker = .run qj .execute →
    qj.fn.statement = some (i, snap) → s.task i = some t → snap = snapshotParams t.par)
    ?_ ?_ qj i snap t hw hj ht
  · rintro _ ⟨db, rfl⟩ qj i snap t hw
    cases hw
  · rintro tr s e s' hr ih ⟨h | h, -⟩ qj i snap t hw hj ht
    · -- While a job is in hand the client touches no task.
      have hw := h.run hw
      refine ih qj i snap t hw hj ?_
      rwa [State.task, h.tasks_eq hr.of_restrict (by rw [hw]; rfl)] at ht
    · cases h with
      | @restore qj' i' snap' t' par hw' hj' ht' hp =>
        cases hw
        obtain ⟨rfl, rfl⟩ := Prod.mk.inj (Option.some.inj (hj'.symm.trans hj))
        -- The snapshot fits the buffer it is restored into, which becomes the one it was taken of.
        obtain ⟨k, par₀, -, -, rfl, hs, hst⟩ := carried hr (by rw [hw']; rfl) hj ht'
        obtain rfl := restored_of_carried hs hst hp
        rw [State.task_eq] at ht ht'
        dsimp only at ht
        rw [List.getElem?_set_self (List.getElem?_eq_some_iff.1 ht').1] at ht
        rw [← Option.some.inj (Option.some.inj ht)]
      | slotFree _ => exact absurd (WorkerPc.run.inj hw).2 (Job.entry_ne_execute _)
      | check _ _ => exact absurd (WorkerPc.run.inj hw).2 (Job.afterCheck_ne_execute _)
      | execute _ _ _ _ => exact absurd (WorkerPc.run.inj hw).2 (Job.afterExecute_ne_execute _ _)
      | _ => cases hw

/-- The job in hand executes its statement with the parameters of its call. -/
theorem execute_params (h : (asyncDbKeeping B).Run tr s) {qj : QueuedJob}
    (hw : s.worker = .run qj .execute) {i : Nat} {snap : ParamSnapshot} {t : Task B}
    (hj : qj.fn.statement = some (i, snap)) (ht : s.task i = some t) :
    ∃ k, (accepted tr)[(finished tr).length]? = some (k, qj) ∧
      ∃ op, (calls tr)[k]? = some (op, some t.par) := by
  obtain ⟨k, par, hk, hop, hp, hs, -⟩ := carried h (by rw [hw]; rfl) hj ht
  obtain rfl := snapshotParams_inj hs ((restored h hw hj ht).symm.trans hp)
  exact ⟨k, hk, hop⟩

end Dbgen4.Async
