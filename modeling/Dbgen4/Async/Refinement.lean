import Dbgen4.Async.Commit
import Dbgen4.Async.Reference

/-!
# The asynchronous facade: the refinement

What a caller of `async_db` sees is what it could see of the reference, whatever
the schedule (`refines`). Of the steps of the client only the calls, the writes
and the clears move the reference; the others do what is left of a call
(`ClientStep.settled`). It remains to say how the calls end after a failure:

* `error_of_commitAt`: `commit` clears the error it has read;
* `rolledBack_emptied`: what is cleared comes with a rollback;
* `reports`: a call that returns reports the first failure, or none.
-/

namespace Dbgen4.Async

open Rtl

variable {B : Backend} {tr : List Event} {s s' : State B} {e : Event}

/-! ## The steps of the client -/

theorem ended_aside (f : List Caller → List Caller) (g : Frame B → Frame B)
    (x : Option (Store B)) :
    Store.ended (x.map (·.aside f g)) = (Store.ended x).map (·.aside f g) := by
  cases x with
  | none => rfl
  | some σ =>
    rw [Option.map_some, Store.ended, Store.ended]
    have herr : (σ.aside f g).error = σ.error := rfl
    rw [herr]
    cases σ.error <;> rfl

/-- What the client does by itself while it waits for no job. -/
theorem outstanding_aside (hr : (asyncDb B).Run tr s) (ha : s.client.awaits = none)
    {f : List Caller → List Caller} {g : Frame B → Frame B} (hw : s'.worker = s.worker)
    (hp : s'.pending = s.pending) (hs : s'.store = s.store.aside f g) :
    s'.outstanding = s.outstanding.map (·.aside f g) := by
  rw [State.outstanding, State.outstanding, completed_map hr ha hw hs, hp, ended_aside]
  cases Store.ended s.completed with
  | error => rfl
  | ok σ =>
    cases hq : s.pending with
    | none => rfl
    | some qj =>
      change Store.ended ((σ.aside f g).run qj) = (Store.ended (σ.run qj)).map _
      rw [run_aside f g σ (unattended hr ha (.inl hq)), ended_aside]

/-- The reference takes a call at once. -/
theorem abstract_call (hc : s.client = .idle) (op : Op)
    (herr : s'.error = s.error) (hc' : s'.client = s.begin op)
    (hout : s'.outstanding = s.outstanding.map (·.aside id fun _ => {})) :
    ReferenceStep s.abstract (.call op (s.held op)) s'.abstract := by
  cases he : s.error with
  | some err =>
    rw [abstract_of_error he, abstract_of_error (herr.trans he)]
    exact .failedCall
  | none =>
    rw [abstract_of_none he, abstract_of_none (herr.trans he), State.settled, State.settled, hout,
      hc, hc']
    cases ho : s.outstanding with
    | error stop =>
      cases stop with
      | failed err => exact .failedCall
      | undefined => exact .undefined
    | ok σ =>
      have hal := alike_outstanding ho
      have hheld : s.held op = σ.held op := by
        rw [State.held, Store.held, hal.1]
        rfl
      rw [hheld]
      have hcall : ReferenceStep (.good σ none) (.call op (σ.held op)) _ := .call
      rw [← conclude_begin (s := s) (σ := { σ with frame := {} }) hal op] at hcall
      exact hcall

/-- A write of the caller into its own buffer. -/
theorem abstract_write (hc : s.client = .idle) (i : Nat) (par : ParamBuffer)
    (herr : s'.error = s.error) (hc' : s'.client = .idle)
    (hout : s'.outstanding =
      s.outstanding.map (·.aside (·.modify i ({ · with par := par })) id)) :
    ReferenceStep s.abstract (.write i par) s'.abstract := by
  cases he : s.error with
  | some err =>
    rw [abstract_of_error he, abstract_of_error (herr.trans he)]
    exact .failedWrite
  | none =>
    rw [abstract_of_none he, abstract_of_none (herr.trans he), State.settled, State.settled, hout,
      hc, hc']
    cases s.outstanding with
    | error stop =>
      cases stop with
      | failed err => exact .failedWrite
      | undefined => exact .undefined
    | ok σ => exact .write

theorem outstanding_congr (hw : s'.worker = s.worker ∨ s'.worker = s.worker.notified)
    (hp : s'.pending = s.pending) (hs : s'.store = s.store) : s'.outstanding = s.outstanding := by
  have hc : s'.completed = s.completed := by
    rcases hw with hw | hw
    · rw [State.completed, State.completed, hw, hs]
    · exact completed_notified s' hw hs
  rw [State.outstanding, State.outstanding, hc, hp]

theorem settled_congr (hw : s'.worker = s.worker ∨ s'.worker = s.worker.notified)
    (hp : s'.pending = s.pending) (hs : s'.store = s.store)
    (hc : ∀ σ : Store B, s'.client.conclude σ = s.client.conclude σ) : s'.settled = s.settled := by
  rw [State.settled, State.settled, outstanding_congr hw hp hs, funext hc]

theorem settled_of_slot (h : s.slot = ⟨none, none⟩) (he : s.error = none) :
    s.settled = s.client.conclude s.store := by
  rw [State.settled, outstanding_of_slot h he]
  rfl

/-- A step of the call while the worker has nothing to do. -/
theorem settled_step (h : s.slot = ⟨none, none⟩) (he : s.error = none) (h' : s'.slot = s.slot)
    (he' : s'.error = s.error)
    (hc : s'.client.conclude s'.store = s.client.conclude s.store) : s'.settled = s.settled := by
  rw [settled_of_slot h he, settled_of_slot (h'.trans h) (he'.trans he), hc]

theorem conclude_next (c : PostCtx) (σ : Store B) :
    c.next.conclude σ = (c.conclude σ).map fun p => (p.1, some p.2) := by
  cases c <;> rfl

theorem conclude_afterDrain (s : State B) (d : DrainCtx) :
    (s.afterDrain d).conclude s.store = (d.conclude s.store).map fun p => (p.1, some p.2) := by
  rcases d with _ | _ | _ | _ | ⟨_ | _ | _ | _ | _ | _⟩ <;> first
  | rfl
  | exact conclude_post ..

/-- The job a call posts is the next one to be done. -/
theorem settled_enqueue {c : PostCtx} {qj : QueuedJob}
    (hc : ∀ σ : Store B, s.client.conclude σ =
      (σ.attempt qj >>= fun σ => c.conclude σ).map fun p => (p.1, some p.2))
    (hp : s.pending = none) (hw : s'.worker = s.worker) (hs : s'.store = s.store)
    (hp' : s'.pending = some qj) (hc' : s'.client = .notify c) : s'.settled = s.settled := by
  have hcomp : s'.completed = s.completed := by
    rw [State.completed, State.completed, hw, hs]
  rw [State.settled, State.settled, State.outstanding, State.outstanding, hcomp, hp, hp', hc',
    funext hc]
  cases Store.ended s.completed with
  | error => rfl
  | ok σ =>
    change (σ.attempt qj >>= fun σ => (c.conclude σ).map _) =
      (σ.attempt qj >>= fun σ => c.conclude σ).map _
    cases σ.attempt qj <;> rfl

theorem orError_of_none {α : Type} (he : s.error = none) (a : α) : s.orError a = .ok a := by
  rw [State.orError, he]

/-- While no error is pending, the other steps of the client do what is left of its call. -/
theorem ClientStep.settled (hr : (asyncDb B).Run tr s) (h : ClientStep s e s')
    (he : s.error = none) (hv : e.visible = none ∨ ∃ r, e = .error r) :
    s'.settled = s.settled := by
  cases h with
  | write | isFinished | call | ret | clearCommit | clearRollback =>
    rcases hv with hv | ⟨r, hv⟩ <;> cases hv
  | error => rfl
  | discard _ hs =>
    rw [he] at hs
    cases hs
  | store hc _ hp =>
    refine settled_enqueue (fun σ => ?_) hp rfl rfl rfl rfl
    rw [hc]
    exact conclude_post ..
  | slotStore hc hp =>
    refine settled_enqueue (fun σ => ?_) hp rfl rfl rfl rfl
    rw [hc]
    exact conclude_post _ _ false σ
  | blocked hc | slotSpurious hc | slotSleep hc | drainSleep hc | drainSpurious hc | setStop hc
  | join hc => exact settled_congr (.inl rfl) rfl rfl fun σ => by rw [hc]; rfl
  | notify hc => exact settled_congr (.inr rfl) rfl rfl fun σ => by rw [hc]; exact conclude_next ..
  | notifyStop hc => exact settled_congr (.inr rfl) rfl rfl fun σ => by rw [hc]; rfl
  | readExec hc =>
    refine settled_congr (.inl rfl) rfl rfl fun σ => ?_
    rw [hc, orError_of_none he]
    rfl
  | @drained d hc hd =>
    refine settled_step (slot_of_drained hr hd) he rfl rfl ?_
    rw [hc]
    exact conclude_afterDrain s d
  | readSync hc | readFetch hc =>
    refine settled_step (slot_of_atRest hr (by rw [hc]; rfl)) he rfl rfl ?_
    rw [hc, orError_of_none he]
    rfl
  | readCommit hc =>
    refine settled_step (slot_of_atRest hr (by rw [hc]; rfl)) he rfl rfl ?_
    have hread : s.afterReadCommit = .post (.run .commitWork) ⟨.commit, none⟩ true := by
      rw [State.afterReadCommit, he]
    rw [hc, hread]
    exact conclude_post ..
  | assembleError hc herr =>
    refine settled_step (slot_of_atRest hr (by rw [hc]; rfl)) he rfl rfl ?_
    simp only [hc, ClientPc.conclude, Store.assemble, State.store, herr]
    rfl
  | assembleCrash hc herr ht hst =>
    refine settled_step (slot_of_atRest hr (by rw [hc]; rfl)) he rfl rfl ?_
    simp only [hc, ClientPc.conclude, Store.assemble, State.store, herr, ht, hst]
    rfl
  | @assemble stmt n hc herr ht =>
    refine settled_step (slot_of_atRest hr (by rw [hc]; rfl)) he rfl rfl ?_
    have hn : (s.frame.task.isNone && stmt.hasResults) = false := by
      rcases ht with ht | ht
      · rw [Option.isNone_eq_false_iff.2 ht, Bool.false_and]
      · rw [Bool.eq_false_of_not_eq_true ht, Bool.and_false]
    simp only [hc, ClientPc.conclude, Store.assemble, State.store, herr, hn, Bool.false_eq_true,
      if_false]
    rfl

/-! ## The ends of the calls -/

theorem commitAt_begin (s : State B) (op : Op) :
    (s.begin op).commitAt = .elsewhere ∨ (s.begin op).commitAt = .draining := by
  rcases begin_cases s op with ⟨c, qj, h, hb⟩ | ⟨d, h, hd⟩ | ⟨r, h, hr⟩ | h <;> rw [h]
  · rcases c with _ | _ | ⟨_ | _ | _ | _ | _ | _⟩ <;> first
    | exact .inl rfl
    | cases hb
  · cases d <;> first
    | exact .inl rfl
    | exact .inr rfl
    | cases hd
  · cases r <;> first
    | exact .inl rfl
    | cases hr
  · exact .inl rfl

/-- The error that `commit` has read is the one pending until it clears it. -/
theorem error_of_commitAt (h : (asyncDb B).Run tr s) {err : DbError}
    (hc : s.client.commitAt = .undoing err ∨ s.client.commitAt = .clearing err) :
    s.error = some err := by
  refine h.invariant (I := fun _ s => ∀ err,
    s.client.commitAt = .undoing err ∨ s.client.commitAt = .clearing err → s.error = some err)
    ?_ ?_ err hc
  · rintro _ ⟨db, rfl⟩ err (hc | hc) <;> cases hc
  · rintro tr s e s' hr ih (h | h) err hc
    · cases h with
      | @call op _ _ =>
        rcases commitAt_begin s op with hb | hb <;> rcases hc with hc | hc <;>
          cases hb.symm.trans hc
      | discard hcl _ | notify hcl =>
        dsimp only at hc
        rw [commitAt_next] at hc
        exact ih err (by rw [hcl]; exact hc)
      | store hcl _ _ | blocked hcl _ _ | slotSpurious hcl | slotStore hcl _ | slotSleep hcl _
      | drainSleep hcl _ | drainSpurious hcl =>
        exact ih err (by rw [hcl]; exact hc)
      | @drained d hcl _ =>
        rcases d with _ | _ | _ | _ | ⟨_ | _ | _ | err' | _ | _⟩
        case run.commitUndo =>
          refine ih err (.inl ?_)
          rw [hcl]
          rcases hc with hc | hc <;> cases hc
          rfl
        all_goals rcases hc with hc | hc <;> cases hc
      | readCommit _ =>
        simp only [State.afterReadCommit] at hc
        split at hc
        · rcases hc with hc | hc <;> cases hc
          assumption
        · rcases hc with hc | hc <;> cases hc
      | ret _ =>
        rw [commitAt_result_next] at hc
        rcases hc with hc | hc <;> cases hc
      | write | isFinished | error => exact ih err hc
      | _ => rcases hc with hc | hc <;> cases hc
    · have hc' : s'.client.commitAt = s.client.commitAt := by
        rcases h.client with h | h <;> simp [h]
      have he := ih err (hc' ▸ hc)
      rcases h.error_eq with ⟨_, -, -, hn, -⟩ | ⟨-, he', -⟩
      · cases hn.symm.trans he
      · exact he'.trans he

/-- The call that waits for a rollback, or has had it and is about to clear the error. -/
def ClientPc.undone : ClientPc → Option RunCtx
  | .clearCommit e => some (.commitUndo e)
  | .clearRollback => some .rollbackWork
  | pc => pc.awaits.filter (·.isRollback)

/-- The store is left by the rollback of the call. -/
def RunCtx.RolledBack (c : RunCtx) (σ : Store B) : Prop :=
  ∃ db, σ.db = (B.rollback db).2 ∧ (c = .rollbackWork → σ.frame.sts = (B.rollback db).1)

/-- The store once the worker has nothing to do; `none` if its behaviour is undefined. -/
def State.emptied (s : State B) : Option (Store B) :=
  s.completed.bind fun σ => match s.pending with
    | none => some σ
    | some qj => σ.run qj

theorem WorkerStep.emptied (h : WorkerStep s e s') : s'.emptied = s.emptied := by
  cases hs : e.started with
  | some qj =>
    have hc := h.completed_start hs
    cases h with
    | @take qj' hw hp =>
      obtain rfl := Option.some.inj hs
      rw [State.emptied, hc, State.emptied, completed_of_inHand (s := s) (by rw [hw]; rfl), hp]
      change (s.store.run qj').bind some = s.store.run qj'
      cases s.store.run qj' <;> rfl
    | _ => cases hs
  | none =>
    have hp : s'.pending = s.pending := by
      cases h with
      | take => cases hs
      | _ => rfl
    rw [State.emptied, h.completed hs, hp, State.emptied]

@[simp] theorem undone_notified (pc : ClientPc) : pc.notified.undone = pc.undone := by
  cases pc <;> rfl

theorem undone_next (c : PostCtx) : c.next.undone = (ClientPc.notify c).undone := by
  cases c <;> rfl

theorem undone_begin (s : State B) (op : Op) : (s.begin op).undone = none := by
  have ha := awaits_begin s op
  have hc := clears_begin s op
  cases h : s.begin op <;> rw [h] at ha hc <;> first
  | cases hc; done
  | exact congrArg (Option.filter (·.isRollback)) ha

theorem emptied_enqueue (hslot : s.slot = ⟨none, none⟩) {qj : QueuedJob}
    (hw : s'.worker = s.worker) (hs : s'.store = s.store) (hp : s'.pending = some qj) :
    s'.emptied = s.store.run qj := by
  have hh : s'.worker.inHand = none := hw ▸ congrArg Handoff.State.inHand hslot
  rw [State.emptied, completed_of_inHand hh, hp, hs]
  rfl

theorem rolledBack_run {c : RunCtx} {qj : QueuedJob} (h : c.Runs qj.fn) (hc : c.isRollback)
    (σ : Store B) : ∃ σ', σ.run qj = some σ' ∧ c.RolledBack σ' := by
  rcases qj with ⟨fn, id⟩
  cases c with
  | commitUndo err =>
    cases fn with
    | rollbackIgnored => exact ⟨_, rfl, σ.db, rfl, fun h => (by cases h)⟩
    | _ => exact h.elim
  | rollbackWork =>
    cases fn with
    | rollback => exact ⟨_, rfl, σ.db, rfl, fun _ => rfl⟩
    | _ => exact h.elim
  | _ => cases hc

/-- What a call that rolls back waits for, the worker does. -/
theorem rolledBack_emptied (h : (asyncDb B).Run tr s) {c : RunCtx}
    (hc : s.client.undone = some c) : ∃ σ, s.emptied = some σ ∧ c.RolledBack σ := by
  refine h.invariant (I := fun _ s => ∀ c, s.client.undone = some c →
    ∃ σ, s.emptied = some σ ∧ c.RolledBack σ) ?_ ?_ c hc
  · rintro _ ⟨db, rfl⟩ c hc
    cases hc
  · rintro tr s e s' hr ih (h | h) c hc
    · have hcongr (hw : s'.worker = s.worker ∨ s'.worker = s.worker.notified)
          (hp : s'.pending = s.pending) (hs : s'.store = s.store)
          (hu : s.client.undone = some c) : ∃ σ, s'.emptied = some σ ∧ c.RolledBack σ := by
        have hcomp : s'.completed = s.completed := by
          rcases hw with hw | hw
          · rw [State.completed, State.completed, hw, hs]
          · exact completed_notified s' hw hs
        rw [State.emptied, hcomp, hp]
        exact ih c hu
      have henq {c' : RunCtx} {qj : QueuedJob} (hslot : s.slot = ⟨none, none⟩)
          (hw : s'.worker = s.worker) (hs : s'.store = s.store) (hp : s'.pending = some qj)
          (hruns : c'.Runs qj.fn) (hroll : c'.isRollback) :
          ∃ σ, s'.emptied = some σ ∧ c'.RolledBack σ := by
        rw [emptied_enqueue hslot hw hs hp]
        exact rolledBack_run hruns hroll s.store
      cases h with
      | @store p qj _ hcl _ _ | @slotStore p qj hcl _ =>
        obtain ⟨hp, hroll⟩ := Option.filter_eq_some_iff.1 hc
        cases p with
        | run c' =>
          obtain rfl := Option.some.inj hp
          have hpost : s.client.posting = some (.run c', qj) := by rw [hcl]; rfl
          have hslot := slot_of_atRest hr
            (atRest_of_posting hpost (RunCtx.isBoundary_of_isRollback hroll))
          have hruns : c'.Runs qj.fn := posts hr hpost
          exact henq hslot rfl rfl rfl hruns hroll
        | _ => cases hp
      | @discard p qj hcl _ =>
        dsimp only at hc
        rw [undone_next] at hc
        obtain ⟨hp, hroll⟩ := Option.filter_eq_some_iff.1 hc
        cases p with
        | run c' =>
          obtain rfl := Option.some.inj hp
          cases even_of_boundary hr hcl (RunCtx.isBoundary_of_isRollback hroll)
        | _ => cases hp
      | notify hcl =>
        dsimp only at hc
        rw [undone_next] at hc
        exact hcongr (.inr rfl) rfl rfl (by rw [hcl]; exact hc)
      | @drained d hcl _ =>
        refine hcongr (.inl rfl) rfl rfl ?_
        rw [hcl, ← hc]
        rcases d with _ | _ | _ | _ | ⟨_ | _ | _ | _ | _ | _⟩ <;> rfl
      | drainSleep hcl _ | drainSpurious hcl =>
        exact hcongr (.inl rfl) rfl rfl (by rw [hcl]; exact hc)
      | call _ _ => cases (undone_begin _ _).symm.trans hc
      | readCommit _ =>
        simp only [State.afterReadCommit] at hc
        split at hc <;> cases hc
      | @ret r _ => cases r <;> cases hc
      | write hcl _ _ | isFinished hcl | error hcl =>
        cases (congrArg ClientPc.undone hcl).symm.trans hc
      | _ => cases hc
    · have hc' : s.client.undone = some c := by
        rcases h.client with h | h <;> simpa [h] using hc
      rw [h.emptied]
      exact ih c hc'

/-- While nothing is in the slot or in hand, and no error is pending, a call that is about to
    return has ended well. -/
theorem abstract_of_ret (hs : s.slot = ⟨none, none⟩) (he : s.error = none) {r : Result}
    (hc : s.client = .ret r) : s.abstract = .good s.store (some r) := by
  rw [abstract_of_none he, settled_of_slot hs he, hc]
  rfl

theorem reports_begin {op : Op} {r : Result} (h : s.begin op = .ret r) (err : DbError) :
    r.Reports err := by
  rcases op with ⟨stmt, sql, n, m⟩ | ⟨⟨_ | i⟩⟩ | ⟨⟨_ | i⟩⟩ | ⟨⟨_ | i⟩⟩ | ⟨⟨_ | i⟩⟩ | _ | _ | _
  all_goals simp only [State.begin] at h
  all_goals first
  | cases h; done
  | (cases h; exact trivial)
  | (cases h; exact .inr (.inr rfl))
  | (cases h; exact .inr rfl)
  | (split at h <;> cases h)

theorem error_of_commitWork (h : (asyncDb B).Run tr s)
    (hc : s.client = .drain (.run .commitWork)) : s.error = none := by
  have hp := commitProgress h
  rw [hc] at hp
  have hf := failures_head h
  rw [hp.2] at hf
  exact (Option.or_eq_none_iff.1 hf.symm).1

/-- A call that returns after a failure reports no other. -/
theorem reports (h : (asyncDb B).Run tr s) {r : Result} (hc : s.client = .ret r) {err : DbError}
    {b : Bool} (ha : s.abstract = .failed err b) : r.Reports err := by
  refine h.invariant (I := fun _ s => ∀ r, s.client = .ret r → ∀ err b,
    s.abstract = .failed err b → r.Reports err) ?_ ?_ r hc err b ha
  · rintro _ ⟨db, rfl⟩ r hc
    cases hc
  · rintro tr s e s' hr ih (h | h) r hc err b ha
    · have hgood (hs : s.slot = ⟨none, none⟩) (h : s'.slot = s.slot) (he : s'.error = none) :
          r.Reports err := by
        cases (abstract_of_ret (h.trans hs) he hc).symm.trans ha
      have hsame {err' : DbError} (he : s'.error = some err') : err' = err := by
        cases (abstract_of_error he).symm.trans ha
        rfl
      cases h with
      | call _ _ => exact reports_begin hc err
      | @discard p _ _ _ | @notify p _ =>
        rcases p with _ | _ | _ <;> cases hc
        exact trivial
      | @drained d hcl hd =>
        rcases d with _ | _ | _ | _ | ⟨_ | _ | _ | _ | _ | _⟩
        case run.commitWork =>
          have he := error_of_commitWork hr hcl
          exact hgood (slot_of_drained hr hd) rfl he
        all_goals cases hc
        exact trivial
      | readExec _ =>
        cases hc
        cases he : s.error with
        | none => exact .inl (orError_of_none he _)
        | some err' =>
          obtain rfl := hsame he
          exact .inr (.inl (by rw [State.orError, he]))
      | readSync hcl | readFetch hcl =>
        cases he : s.error with
        | none => exact hgood (slot_of_atRest hr (by rw [hcl]; rfl)) rfl he
        | some err' =>
          cases hc
          obtain rfl := hsame he
          exact .inl (by rw [State.orError, he])
      | clearCommit hcl | clearRollback hcl =>
        exact hgood (slot_of_atRest hr (by rw [hcl]; rfl)) rfl rfl
      | assembleError | assemble | join =>
        cases hc
        exact trivial
      | readCommit _ =>
        simp only [State.afterReadCommit] at hc
        split at hc <;> cases hc
      | @ret r' _ => cases r' <;> cases hc
      | write hcl _ _ | isFinished hcl | error hcl => cases hcl.symm.trans hc
      | _ => cases hc
    · have hc' : s.client = .ret r := by
        rcases h.client with h | h
        · exact h.symm.trans hc
        · rw [h] at hc
          cases hs : s.client <;> rw [hs] at hc <;> cases hc
          rfl
      rcases h.abstract with ⟨err', -, hs, hs'⟩ | ⟨-, hs⟩
      · cases hs'.symm.trans ha
        exact ih r hc' _ _ hs
      · exact ih r hc' _ _ (hs.symm.trans ha)

/-- A call returns. -/
theorem abstract_ret (hr : (asyncDb B).Run tr s) {r : Result} (hc : s.client = .ret r)
    (herr : s'.error = s.error) (hc' : s'.client = r.next)
    (hout : s'.outstanding = s.outstanding) : ReferenceStep s.abstract (.ret r) s'.abstract := by
  cases he : s.error with
  | some err =>
    have ha := abstract_of_error he
    rw [ha, abstract_of_error (herr.trans he)]
    exact .failedRet (reports hr hc ha)
  | none =>
    have ha := abstract_of_none he
    have hret (σ : Store B) : r.next.conclude σ = .ok (σ, none) := by
      cases r <;> rfl
    rw [abstract_of_none (herr.trans he), State.settled, hout, hc', funext hret]
    rw [State.settled, hc] at ha
    rcases ho : s.outstanding with (err | _) | σ <;> rw [ho] at ha <;> rw [ha]
    · exact .failedRet (reports hr hc ha)
    · exact .undefined
    · exact .ret

theorem abstract_isFinished (hc : s.client = .idle) :
    ReferenceStep s.abstract (.isFinished s.isFinished) s.abstract := by
  cases he : s.error with
  | some err =>
    rw [abstract_of_error he]
    refine .failedIsFinished ?_
    rw [State.isFinished, he]
    split
    · exact .inl rfl
    · exact .inr (.inl ⟨rfl, rfl⟩)
  | none =>
    have hfin : s.isFinished = .ok .stillPending ∨ s.isFinished = .ok .finished := by
      rw [State.isFinished, he]
      split
      · exact .inl rfl
      · exact .inr rfl
    rw [abstract_of_none he, State.settled, hc]
    rcases s.outstanding with (err | _) | σ
    · exact .failedIsFinished (hfin.imp_right fun h => .inr ⟨Bool.false_ne_true, h⟩)
    · exact .undefined
    · rcases hfin with h | h <;> rw [h] <;> exact .isFinished

/-- The error is cleared at the end of a call that has rolled back. -/
theorem abstract_clear (hr : (asyncDb B).Run tr s) {c : RunCtx} (hu : s.client.undone = some c)
    (hslot : s.slot = ⟨none, none⟩) (hslot' : s'.slot = s.slot)
    (hs : s'.store = { s.store with error := none }) {r : Result} (hc' : s'.client = .ret r)
    (h : (∃ err, c = .commitUndo err ∧ r = .commit (.error err) ∧ s.error = some err) ∨
      c = .rollbackWork ∧ r = .rollback (boundaryResult "rollback failed" s.frame.sts) ∧
        s.client = .clearRollback) : ReferenceStep s.abstract .clear s'.abstract := by
  have he' : s'.error = none := congrArg Store.error hs
  have hdb : s'.db = s.db := congrArg Store.db hs
  obtain ⟨σ, hσ, db, hσdb, hsts⟩ := rolledBack_emptied hr hu
  have hp : s.pending = none := congrArg Handoff.State.pending hslot
  rw [State.emptied, completed_of_inHand (congrArg Handoff.State.inHand hslot), hp] at hσ
  obtain rfl := Option.some.inj hσ
  rw [abstract_of_ret (hslot'.trans hslot) he' hc']
  cases he : s.error with
  | some err =>
    rw [abstract_of_error he]
    refine .rolledBack ⟨he', db, hdb.trans hσdb, ?_⟩
    rcases h with ⟨err', -, hr, herr⟩ | ⟨hc, hr, -⟩
    · cases herr.symm.trans he
      exact .inl hr
    · have hsts' : s.frame.sts = (B.rollback db).1 := hsts hc
      exact .inr (hsts' ▸ hr)
  | none =>
    rcases h with ⟨err', -, -, herr⟩ | ⟨-, rfl, hc⟩
    · cases herr.symm.trans he
    · have hstore : s'.store = s.store := by
        rw [hs]
        exact congrArg (fun x => Store.mk s.db s.tasks s.callers x s.frame) he.symm
      rw [abstract_of_none he, settled_of_slot hslot he, hc, hstore]
      exact .clear

/-- What the client does, the reference does if it can be seen, and else does not notice. -/
theorem ClientStep.abstract (hr : (asyncDb B).Run tr s) (h : ClientStep s e s') :
    match e.visible with
    | some l => ReferenceStep s.abstract l s'.abstract
    | none => s'.abstract = s.abstract := by
  have hquiet (herr : s'.error = s.error) (hv : e.visible = none ∨ ∃ r, e = .error r) :
      s'.abstract = s.abstract := by
    cases he : s.error with
    | some err => rw [abstract_of_error he, abstract_of_error (herr.trans he)]
    | none =>
      rw [abstract_of_none he, abstract_of_none (herr.trans he), h.settled hr he hv]
  -- A read of the error tells whether it is recorded.
  have hread (herr : s'.error = s.error) (hl : e = .error s.error) :
      ReferenceStep s.abstract (.error s.error) s'.abstract := by
    rw [hquiet herr (.inr ⟨_, hl⟩)]
    cases he : s.error with
    | some err =>
      rw [abstract_of_error he]
      exact .failedError (b := true)
    | none =>
      rw [abstract_of_none he]
      rcases s.settled with (_ | _) | ⟨σ, r⟩
      · exact .failedError (b := false)
      · exact .undefined
      · exact .error
  cases h with
  | write hc hi _ =>
    refine abstract_write hc _ _ rfl hc (outstanding_aside hr (by rw [hc]; rfl) rfl rfl ?_)
    exact congrArg (fun cs => Store.mk s.db s.tasks cs s.error s.frame) (set_eq_modify hi _)
  | call hc _ =>
    exact abstract_call hc _ rfl rfl (outstanding_aside hr (by rw [hc]; rfl) rfl rfl rfl)
  | isFinished hc => exact abstract_isFinished hc
  | ret hc => exact abstract_ret hr hc rfl rfl (outstanding_congr (.inl rfl) rfl rfl)
  | clearCommit hc =>
    have he := error_of_commitAt hr (by rw [hc]; exact .inr rfl)
    exact abstract_clear hr (by rw [hc]; rfl) (slot_of_atRest hr (by rw [hc]; rfl)) rfl rfl rfl
      (.inl ⟨_, rfl, rfl, he⟩)
  | clearRollback hc =>
    exact abstract_clear hr (by rw [hc]; rfl) (slot_of_atRest hr (by rw [hc]; rfl)) rfl rfl rfl
      (.inr ⟨rfl, rfl, hc⟩)
  | error hc | readExec hc | readSync hc | readFetch hc | readCommit hc => exact hread rfl rfl
  | _ => exact hquiet rfl (.inl rfl)

theorem simulates_reference : (asyncDb B).reached.Simulates (reference B) State.abstract
    Event.visible where
  init := by
    rintro _ ⟨db, rfl⟩
    exact ⟨db, rfl⟩
  step := by
    rintro s e s' l ⟨h | h, tr, hr⟩ hl
    · have ha := h.abstract hr
      rw [hl] at ha
      exact ha
    · rcases h.abstract with ⟨err, rfl, hs, hs'⟩ | ⟨hn, -⟩
      · cases hl
        rw [hs, hs']
        exact .record
      · cases hn.symm.trans hl
  stutter := by
    rintro s e s' ⟨h | h, tr, hr⟩ hn
    · have ha := h.abstract hr
      rw [hn] at ha
      exact ha
    · rcases h.abstract with ⟨err, rfl, -⟩ | ⟨-, hs⟩
      · cases hn
      · exact hs

/-- Whatever the schedule, what a caller of `async_db` sees is what it could see of the
    reference. -/
theorem refines (h : (asyncDb B).Run tr s) :
    (reference B).Run (tr.filterMap Event.visible) s.abstract :=
  simulates_reference.run h.reached

/-- The run in which a row fails, a second one is executed before the error is stored, and
    `commit` rolls back. -/
def lateCommitRun : List Event × State scripted :=
  (scriptedRun (fun _ _ => True) [false, true] (prepareInsert ++ [.call (.submit ⟨some 0⟩),
    .client, .client, .client, .worker, .worker, .worker, .worker, .call (.submit ⟨some 0⟩),
    .client, .client, .client, .worker, .worker, .worker, .worker, .worker, .worker, .worker,
    .worker, .worker, .worker, .call .commit, .client, .client, .client, .client, .worker,
    .worker, .worker, .worker, .worker, .client, .client, .client])).get (by decide)

theorem refines_lateCommit :
    (reference scripted).Run (lateCommitRun.1.filterMap Event.visible) lateCommitRun.2.abstract ∧
      lateCommitRun.1.head? = some (.ret (.commit (.error scriptedError))) :=
  ⟨refines (scriptedRun_sound (x := lateCommitRun) (Option.some_get _).symm).of_restrict, rfl⟩

end Dbgen4.Async
