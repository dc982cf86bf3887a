import Dbgen4.Async.Schedule
import Dbgen4.Async.Errors

/-!
# The asynchronous facade: what `exec` tells

`exec` is to return an error exactly when its job was discarded
(`TellsAcceptance`). But it decides in one critical section whether to discard
the job, and reads the error it returns in another: a failure that the worker
stores in between makes it report a job that is queued, and will run, as refused
(`refusedRun`). It tells acceptance exactly when nothing is stored in between
(`exec_tells_iff`).
-/

namespace Dbgen4.Async

open Rtl

variable {B : Backend} {tr : List Event} {s s' : State B} {e : Event}

/-- Whether a step of the kind `p` has been taken since the last call began. -/
def since (p : Event → Bool) : List Event → Bool
  | [] => false
  | .call _ _ :: _ => false
  | e :: tr => p e || since p tr

/-- The last call. -/
def lastCall : List Event → Option Op
  | [] => none
  | .call op _ :: _ => some op
  | _ :: tr => lastCall tr

/-- The job of the call was discarded. -/
def discarded (tr : List Event) : Bool := since (· matches .discard _) tr

/-- The job of the call was enqueued. -/
def queued (tr : List Event) : Bool := since (· matches .enqueue _) tr

/-- `post_to_worker` has found no error, and goes on with the job of the call. -/
def passed (tr : List Event) : Bool := since (fun e => e matches .enqueue _ | .blocked _) tr

/-- The call has read the error. -/
def errorRead (tr : List Event) : Bool := since (· matches .error _) tr

/-- An error was stored after `post_to_worker` found none and before the call read it. -/
def storedBetween : List Event → Bool
  | [] => false
  | .call _ _ :: _ => false
  | .record _ :: tr => passed tr && !errorRead tr || storedBetween tr
  | _ :: tr => storedBetween tr

/-- The result of `exec` is an error. -/
def refuses : Except DbError ExecStatus → Bool
  | .error _ => true
  | .ok _ => false

/-- The result of `exec` is an error exactly when its job was discarded, and not when it
    was enqueued. -/
def TellsAcceptance (r : Except DbError ExecStatus) (tr : List Event) : Prop :=
  (refuses r ↔ discarded tr) ∧ (queued tr → ¬refuses r)

/-- Where the client is in a call of `exec`. -/
inductive ExecAt
  | elsewhere
  | posting
  | waiting
  | notifying
  | reading
  | returning (r : Except DbError ExecStatus)

/-- Where the client is in a call of `exec`. -/
def ClientPc.execAt : ClientPc → ExecAt
  | .post .exec _ _ => .posting
  | .slotAsleep .exec _ | .slotAwake .exec _ => .waiting
  | .notify .exec => .notifying
  | .readExec => .reading
  | .ret (.exec r) => .returning r
  | _ => .elsewhere

@[simp] theorem execAt_notified (pc : ClientPc) : pc.notified.execAt = pc.execAt := by
  cases pc with
  | slotAsleep c _ => cases c <;> rfl
  | _ => rfl

/-- What the trace tells of a call of `exec` that is at a point of it, where an error is
    stored or not. -/
def ExecProgress (tr : List Event) (stored : Bool) : ExecAt → Prop
  | .elsewhere => True
  | .posting =>
    discarded tr = false ∧ queued tr = false ∧ passed tr = false ∧ errorRead tr = false ∧
      storedBetween tr = false
  | .waiting =>
    discarded tr = false ∧ queued tr = false ∧ passed tr ∧ errorRead tr = false ∧
      storedBetween tr = stored
  | .notifying =>
    discarded tr = false ∧ queued tr ∧ passed tr ∧ errorRead tr = false ∧
      storedBetween tr = stored
  | .reading => errorRead tr = false ∧
    (discarded tr ∧ queued tr = false ∧ passed tr = false ∧ storedBetween tr = false ∧ stored ∨
      discarded tr = false ∧ queued tr ∧ passed tr ∧ storedBetween tr = stored)
  | .returning r => lastCall tr = some (.exec ⟨none⟩) ∨ errorRead tr ∧
    (discarded tr ∧ queued tr = false ∧ storedBetween tr = false ∧ refuses r ∨
      discarded tr = false ∧ queued tr ∧ storedBetween tr = refuses r)

theorem refuses_orError (s : State B) : refuses (s.orError .finished) = s.error.isSome := by
  rw [State.orError]
  cases s.error <;> rfl

theorem execProgress_begin (s : State B) (op : Op) (held : Option ParamBuffer) (b : Bool) :
    ExecProgress (.call op held :: tr) b (s.begin op).execAt := by
  cases op with
  | submit h =>
    rcases h with ⟨_ | i⟩
    · trivial
    · simp only [State.begin]
      cases s.snapshot i <;> trivial
  | exec h =>
    rcases h with ⟨_ | i⟩
    · exact .inl rfl
    · simp only [State.begin]
      cases s.snapshot i
      · trivial
      · exact ⟨rfl, rfl, rfl, rfl, rfl⟩
  | executeSync h =>
    rcases h with ⟨_ | i⟩
    · trivial
    · simp only [State.begin]
      cases s.snapshotSync i <;> trivial
  | fetchMore h => rcases h with ⟨_ | i⟩ <;> trivial
  | _ => trivial

/-- `exec` gets past `post_to_worker`'s look at the error only while there is none. -/
theorem error_of_post_exec (hr : (asyncDb B).Run tr s) {qj : QueuedJob} {even : Bool}
    (hc : s.client = .post .exec qj even) (he : s.error = none ∨ even = true) : s.error = none := by
  rcases he with he | rfl
  · exact he
  · -- `exec` posts no job that is to run in spite of the error.
    have hi : s.client.insists = some qj := by
      rw [hc]
      rfl
    have hpo : s.client.posting = some (.exec, qj) := by
      rw [hc]
      rfl
    have hu := attended_of_insists hr hi
    have hp := posts hr hpo
    cases hj : qj.fn <;> rw [hj] at hu hp <;> cases hu <;> exact hp.elim

theorem ExecProgress.client (hr : (asyncDb B).Run tr s)
    (hp : ExecProgress tr s.error.isSome s.client.execAt) (h : ClientStep s e s') :
    ExecProgress (e :: tr) s'.error.isSome s'.client.execAt := by
  cases h with
  | call _ _ => exact execProgress_begin ..
  | @discard c qj hc he =>
    rw [hc] at hp
    cases c with
    | exec =>
      obtain ⟨hd, hq, hpa, hrd, hb⟩ := hp
      -- The job is dropped, and with no other step in between the error is still there to be read.
      exact ⟨hrd, .inl ⟨rfl, hq, hpa, hb, he⟩⟩
    | _ => trivial
  | @store c qj even hc he hn =>
    rw [hc] at hp
    cases c with
    | exec =>
      obtain ⟨hd, hq, hpa, hrd, hb⟩ := hp
      exact ⟨hd, rfl, rfl, hrd, by rw [error_of_post_exec hr hc he]; exact hb⟩
    | _ => trivial
  | @blocked c qj even hc he hn =>
    rw [hc] at hp
    cases c with
    | exec =>
      obtain ⟨hd, hq, hpa, hrd, hb⟩ := hp
      exact ⟨hd, hq, rfl, hrd, by rw [error_of_post_exec hr hc he]; exact hb⟩
    | _ => trivial
  | @slotStore c qj hc hn =>
    rw [hc] at hp
    cases c with
    | exec =>
      obtain ⟨hd, -, -, hrd, hb⟩ := hp
      exact ⟨hd, rfl, rfl, hrd, hb⟩
    | _ => trivial
  | @slotSpurious c qj hc | @slotSleep c qj hc _ =>
    rw [hc] at hp
    cases c with
    | exec => exact hp
    | _ => trivial
  | @notify c hc =>
    rw [hc] at hp
    cases c with
    | exec =>
      obtain ⟨hd, hq, hpa, hrd, hb⟩ := hp
      exact ⟨hrd, .inr ⟨hd, hq, hpa, hb⟩⟩
    | _ => trivial
  | readExec hc =>
    rw [hc] at hp
    obtain ⟨hrd, hp⟩ := hp
    refine .inr ⟨rfl, ?_⟩
    rcases hp with ⟨hd, hq, -, hb, he⟩ | ⟨hd, hq, -, hb⟩
    · exact .inl ⟨hd, hq, hb, by rw [refuses_orError, he]⟩
    · exact .inr ⟨hd, hq, by rw [refuses_orError]; exact hb⟩
  | readCommit hc =>
    simp only [State.afterReadCommit]
    cases s.error <;> trivial
  | @drained d hc _ => rcases d with _ | _ | _ | _ | _ | _ | _ | _ | _ | _ <;> trivial
  | @ret r hc => cases r <;> trivial
  | write hc _ _ =>
    dsimp only
    rw [hc]
    trivial
  | isFinished hc | error hc =>
    rw [hc]
    trivial
  | _ => trivial

/-- The steps of the worker are not those that the trace of a call tells of. -/
theorem WorkerStep.since (h : WorkerStep s e s') (tr : List Event) :
    discarded (e :: tr) = discarded tr ∧
    queued (e :: tr) = queued tr ∧ passed (e :: tr) = passed tr ∧
      errorRead (e :: tr) = errorRead tr ∧ lastCall (e :: tr) = lastCall tr := by
  cases h <;> exact ⟨rfl, rfl, rfl, rfl, rfl⟩

/-- The worker stores an error, or leaves it. -/
theorem WorkerStep.stored (h : WorkerStep s e s') (tr : List Event) :
    (s.error.isSome = false ∧ s'.error.isSome ∧
        storedBetween (e :: tr) = (passed tr && !errorRead tr || storedBetween tr)) ∨
      (s'.error = s.error ∧ storedBetween (e :: tr) = storedBetween tr) := by
  cases h with
  | record _ he => exact .inl ⟨by rw [he]; rfl, rfl, rfl⟩
  | _ => exact .inr ⟨rfl, rfl⟩

theorem ExecProgress.worker (hp : ExecProgress tr s.error.isSome s.client.execAt)
    (h : WorkerStep s e s') : ExecProgress (e :: tr) s'.error.isSome s'.client.execAt := by
  -- The worker leaves the client where it is; it can only store an error behind its back, and
  -- whether that comes between the two reads of it depends on how far the client has come.
  have hc : s'.client.execAt = s.client.execAt := by
    rcases h.client with h | h <;> simp [h]
  obtain ⟨hd, hq, hpa, hr, hl⟩ := h.since tr
  rw [hc]
  cases hx : s.client.execAt with
  | elsewhere => trivial
  | posting =>
    rw [hx] at hp
    obtain ⟨hd', hq', hpa', hr', hb⟩ := hp
    refine ⟨hd.trans hd', hq.trans hq', hpa.trans hpa', hr.trans hr', ?_⟩
    rcases h.stored tr with ⟨-, -, hst⟩ | ⟨-, hst⟩
    · rw [hst, hpa', hb]
      rfl
    · exact hst.trans hb
  | waiting =>
    rw [hx] at hp
    obtain ⟨hd', hq', hpa', hr', hb⟩ := hp
    refine ⟨hd.trans hd', hq.trans hq', hpa.trans hpa', hr.trans hr', ?_⟩
    rcases h.stored tr with ⟨-, he, hst⟩ | ⟨he, hst⟩
    · rw [hst, hpa', hr', he]
      rfl
    · rw [hst, he, hb]
  | notifying =>
    rw [hx] at hp
    obtain ⟨hd', hq', hpa', hr', hb⟩ := hp
    refine ⟨hd.trans hd', hq.trans hq', hpa.trans hpa', hr.trans hr', ?_⟩
    rcases h.stored tr with ⟨-, he, hst⟩ | ⟨he, hst⟩
    · rw [hst, hpa', hr', he]
      rfl
    · rw [hst, he, hb]
  | reading =>
    rw [hx] at hp
    obtain ⟨hr', hp⟩ := hp
    refine ⟨hr.trans hr', ?_⟩
    rcases hp with ⟨hd', hq', hpa', hb, he'⟩ | ⟨hd', hq', hpa', hb⟩
    · refine .inl ⟨hd.trans hd', hq.trans hq', hpa.trans hpa', ?_⟩
      rcases h.stored tr with ⟨he, -, -⟩ | ⟨he, hst⟩
      · cases he.symm.trans he'
      · exact ⟨hst.trans hb, by rw [he, he']⟩
    · refine .inr ⟨hd.trans hd', hq.trans hq', hpa.trans hpa', ?_⟩
      rcases h.stored tr with ⟨-, he, hst⟩ | ⟨he, hst⟩
      · rw [hst, hpa', hr', he]
        rfl
      · rw [hst, he, hb]
  | returning r =>
    rw [hx] at hp
    rcases hp with hp | ⟨hr', hp⟩
    · exact .inl (hl.trans hp)
    · -- What is stored after the read does not matter any more.
      have hb : storedBetween (e :: tr) = storedBetween tr := by
        rcases h.stored tr with ⟨-, -, hst⟩ | ⟨-, hst⟩
        · rw [hst, hr', Bool.not_true, Bool.and_false, Bool.false_or]
        · exact hst
      refine .inr ⟨hr.trans hr', ?_⟩
      rw [hd, hq, hb]
      exact hp

theorem execProgress (h : (asyncDb B).Run tr s) :
    ExecProgress tr s.error.isSome s.client.execAt := by
  refine h.invariant (I := fun tr s => ExecProgress tr s.error.isSome s.client.execAt) ?_ ?_
  · rintro _ ⟨db, rfl⟩
    trivial
  · rintro tr s e s' hr hp (h | h)
    · exact hp.client hr h
    · exact hp.worker h

/-- `exec`, on a valid handle, tells whether its job was accepted exactly when no error is
    stored between its look at the error and its read of it. -/
theorem exec_tells_iff {r : Except DbError ExecStatus} {i : Nat}
    (h : (asyncDb B).Run (.ret (.exec r) :: tr) s) (hc : lastCall tr = some (.exec ⟨some i⟩)) :
    TellsAcceptance r tr ↔ storedBetween tr = false := by
  cases h with
  | @step _ s₀ _ _ hr hst =>
    rcases hst with h | h
    · cases h with
      | ret hcl =>
        have hp := execProgress hr
        rw [hcl] at hp
        rcases hp with hp | ⟨-, ⟨hd, hq, hb, hr⟩ | ⟨hd, hq, hb⟩⟩
        · cases hp.symm.trans hc
        · rw [TellsAcceptance, hd, hq, hb, hr]
          simp
        · rw [TellsAcceptance, hd, hq, hb]
          cases refuses r <;> simp
    · cases h

/-- The run in which `exec` returns before the worker takes its job, which fails later. -/
def acceptedRun : List Event × State scripted :=
  (scriptedRun (fun _ _ => True) [false] (prepareInsert ++ [.call (.exec ⟨some 0⟩), .client,
    .client, .client, .client])).get (by decide)

theorem exec_tells_accepted : TellsAcceptance (.ok .finished) acceptedRun.1.tail :=
  (exec_tells_iff (B := scripted) (s := acceptedRun.2)
    (scriptedRun_sound (x := acceptedRun) (Option.some_get _).symm).of_restrict
    (by decide : lastCall acceptedRun.1.tail = some (.exec ⟨some 0⟩))).2 (by decide)

/-- The run in which the worker fails the job of `exec` before `exec` reads the error. -/
def refusedRun : List Event × State scripted :=
  (scriptedRun (fun _ _ => True) [false] (prepareInsert ++ [.call (.exec ⟨some 0⟩), .client,
    .client, .worker, .worker, .worker, .worker, .worker, .client, .client])).get (by decide)

/-- `exec` returns an error although its job was enqueued, and has run. -/
theorem not_exec_tells :
    ¬∀ (B : Backend) (tr : List Event) (s : State B) (r : Except DbError ExecStatus) (i : Nat),
      (asyncDb B).Run (.ret (.exec r) :: tr) s → lastCall tr = some (.exec ⟨some i⟩) →
      TellsAcceptance r tr := by
  intro h
  have ht := h scripted refusedRun.1.tail refusedRun.2 (.error scriptedError) 0
    (scriptedRun_sound (x := refusedRun) (Option.some_get _).symm).of_restrict (by decide)
  exact ht.2 (by decide) rfl

end Dbgen4.Async
