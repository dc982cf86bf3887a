import Dbgen4.Psql.Listen

/-!
# Whether `on_change` is answered

A call of `on_change` that waits is answered by the thread that listens. That thread ends when
the listening connection fails, and `stop_listen_`, which `disconnect` sets, is never reset; in
either case a later call finds a thread to join, or starts one that ends at once, and waits for
it. The runs in which nobody waits for a listener that is gone are those whose steps are all
`Undisturbed` (`run_undisturbed_iff`).
-/

namespace Dbgen4.Psql

open Rtl Transaction

variable {H : Type} {F : FloatText} {s s' : State H} {a : Act H} {tr : List (Act H)}

/-! ## What ought to hold -/

/-- A call of `on_change` waits. -/
def State.IsWaiting (s : State H) : Prop := ∃ table handler, s.caller = .waiting table handler

/-- The steps of `listen_loop`. -/
def Act.isListener : Act H → Bool
  | .check | .runPending | .listen _ | .answer | .poll _ | .consume _ | .pop | .lookUp | .call ..
  | .warn => true
  | _ => false

/-- No call of `on_change` goes on to wait after `disconnect` has set `stop_listen_`, or after the
    listener has ended, and the listening connection does not fail while one waits. -/
def Undisturbed (s : State H) : Act H → Prop
  | .queue => s.stopListen = false ∧ s.worker ≠ .ended
  | .poll .failed | .consume false => ¬ s.IsWaiting
  | _ => True

/-- The listener is alive, has not been told to stop, and comes to the end of
    `run_pending_listen` with the channel that is pending. -/
structure Answerable (F : FloatText) (s : State H) : Prop where
  alive : ∃ pc, s.worker = .running pc
  notStopped : s.stopListen = false
  answers : s.pendingListenDone = false →
    ((listener H F).restrict Undisturbed).Inevitable (·.isListener) (· = .answer) s

/-! ## Steps -/

/-- What the listener leaves alone. -/
theorem Step.frame (h : Step F s a s') (ha : a.isListener) :
    s'.caller = s.caller ∧ s'.stopListen = s.stopListen ∧ s'.worker ≠ .none ∧
      (a ≠ .answer → s'.pendingListen = s.pendingListen ∧
        s'.pendingListenDone = s.pendingListenDone) := by
  cases h with
  | answer => exact ⟨rfl, rfl, by simp, fun h => absurd rfl h⟩
  | op | onChange | joinable | startFails | startRuns | queue | wake | returns | notConnected
  | disconnect | join | others => cases ha
  | _ => exact ⟨rfl, rfl, by simp, fun _ => ⟨rfl, rfl⟩⟩

/-- What the fields that the two threads share say about each other. -/
structure Consistent (s : State H) : Prop where
  started : ∀ table handler, s.caller = .started table handler → s.worker ≠ .none
  queued : ∀ table handler, s.caller = .waiting table handler → s.pendingListenDone = false →
    s.pendingListen = some (channelName table)

/-- The caller is in `on_change`, with a thread to listen. -/
def Caller.engaged : Caller H → Bool
  | .started .. | .waiting .. => true
  | _ => false

theorem Consistent.of_not_engaged (h : s.caller.engaged = false) : Consistent s := by
  refine ⟨fun _ _ hcaller => ?_, fun _ _ hcaller => ?_⟩
  · rw [hcaller] at h
    cases h
  · rw [hcaller] at h
    cases h

theorem Consistent.step (hs : Consistent s) (h : Step F s a s') : Consistent s' := by
  by_cases ha : a.isListener
  · obtain ⟨hcaller, -, hworker, hpending⟩ := h.frame ha
    refine ⟨fun _ _ _ => hworker, fun table handler hwait hdone => ?_⟩
    rw [hcaller] at hwait
    by_cases hanswer : a = .answer
    · subst hanswer
      cases h
      cases hdone
    · obtain ⟨hpending, hdone'⟩ := hpending hanswer
      rw [hpending]
      exact hs.queued table handler hwait (hdone' ▸ hdone)
  · cases h with
    | op hcaller =>
      refine .of_not_engaged ?_
      dsimp only [State.publish]
      rw [hcaller]
      rfl
    | onChange =>
      refine .of_not_engaged ?_
      dsimp only [State.publish]
      split <;> rfl
    | joinable _ hworker => exact ⟨fun _ _ _ => hworker, (fun _ _ h => by cases h)⟩
    | startRuns => exact ⟨(fun _ _ _ => by simp), (fun _ _ h => by cases h)⟩
    | queue =>
      refine ⟨(fun _ _ h => by cases h), fun _ _ h _ => ?_⟩
      cases h
      rfl
    | startFails | wake | returns | notConnected | disconnect | join => exact .of_not_engaged rfl
    | others => exact ⟨hs.started, hs.queued⟩
    | _ => exact absurd rfl ha

theorem consistent (h : (listener H F).Run tr s) : Consistent s := by
  refine h.invariant (I := fun _ s => Consistent s) ?_ fun _ _ _ _ _ hs hst => hs.step hst
  rintro _ ⟨server, cs, log, rfl⟩
  exact .of_not_engaged rfl

/-! ## The way to the answer -/

/-- A call waits for an answer, and the listener is there to give it. -/
structure Served (s : State H) : Prop where
  waiting : s.IsWaiting
  alive : ∃ pc, s.worker = .running pc
  notStopped : s.stopListen = false
  notDone : s.pendingListenDone = false
  queued : s.pendingListen ≠ none

/-- How many notifications there are to be dealt with before the next turn of the loop, each in
    three steps. -/
def Pc.work (buffer : List Notify) : Pc H → ℕ
  | .notifies => 3 * buffer.length
  | .call .. => 3 * buffer.length + 1
  | .lookUp _ => 3 * buffer.length + 2
  | _ => 0

/-- How far the listener is from the answer. -/
def Pc.phase : Pc H → ℕ
  | .answer _ => 0
  | .listen _ => 1
  | .pending => 2
  | .check => 3
  | .notifies | .lookUp _ | .call .. => 4
  | .consume => 5
  | .poll => 6

/-- The phase, and the work in it. -/
def State.distance (s : State H) : ℕ × ℕ :=
  match s.worker with
  | .running pc => (pc.phase, pc.work s.buffer)
  | _ => (0, 0)

theorem Served.others (hs : Served s) (h : Step F s a s') (ha : ¬ a.isListener) :
    Served s' ∧ s'.distance = s.distance := by
  obtain ⟨table, handler, hwait⟩ := hs.waiting
  cases h with
  | others =>
    exact ⟨⟨hs.waiting, hs.alive, hs.notStopped, hs.notDone, hs.queued⟩, rfl⟩
  | wake _ hdone => exact absurd (hs.notDone.symm.trans hdone) (by decide)
  | op hcaller | onChange hcaller | joinable hcaller | startFails hcaller | startRuns hcaller
  | queue hcaller | returns hcaller | notConnected hcaller | disconnect hcaller | join hcaller =>
    cases hwait.symm.trans hcaller
  | _ => exact absurd rfl ha

theorem State.distance_eq {pc : Pc H} (h : s.worker = .running pc) :
    s.distance = (pc.phase, pc.work s.buffer) := by
  rw [distance, h]

theorem Served.own (hs : Served s) (h : Step F s a s') (hun : Undisturbed s a)
    (ha : a.isListener) (hgoal : a ≠ .answer) :
    Served s' ∧ Prod.Lex (· < ·) (· < ·) s'.distance s.distance := by
  obtain ⟨hwait, hpc', hstop, hdone, hqueued⟩ := hs
  have hserved {pc : Pc H} (h : s'.worker = .running pc) (ha' : s'.caller = s.caller ∧
      s'.stopListen = s.stopListen ∧ s'.worker ≠ .none ∧
        (a ≠ .answer → s'.pendingListen = s.pendingListen ∧
          s'.pendingListenDone = s.pendingListenDone)) : Served s' := by
    obtain ⟨hcaller, hstop', -, hpending⟩ := ha'
    obtain ⟨hpending, hdone'⟩ := hpending hgoal
    rw [← hpending] at hqueued
    refine ⟨?_, ⟨pc, h⟩, hstop'.trans hstop, hdone'.trans hdone, hqueued⟩
    rwa [State.IsWaiting, hcaller]
  have hframe := h.frame ha
  cases h with
  | stop hpc hstopped => cases hstop.symm.trans hstopped
  | nonePending hpc hpending => exact absurd hpending hqueued
  | answer => exact absurd rfl hgoal
  | pollFails | consumeFails => exact absurd hwait hun
  | check hpc | runPending hpc | listen hpc | listenFails hpc | interrupted hpc | timedOut hpc
  | ready hpc | consume hpc | drained hpc =>
    refine ⟨hserved rfl hframe, ?_⟩
    rw [State.distance_eq hpc]
    exact .left _ _ (by simp [Pc.phase])
  | pop hpc hbuffer =>
    refine ⟨hserved rfl hframe, ?_⟩
    rw [State.distance_eq hpc, hbuffer]
    exact .right _ (by simp [Pc.work]; omega)
  | nobody hpc | lookUp hpc | call hpc | warn hpc =>
    refine ⟨hserved rfl hframe, ?_⟩
    rw [State.distance_eq hpc]
    exact .right _ (by simp [Pc.work])
  | op | onChange | joinable | startFails | startRuns | queue | wake | returns | notConnected
  | disconnect | join | others => cases ha

/-- Nothing fails in the step, and `poll` finds something. -/
def Act.isSmooth : Act H → Bool
  | .poll outcome => outcome = .ready
  | .consume ok => ok
  | _ => true

/-- The listener is never stuck. -/
theorem can_listen {pc : Pc H} (hpc : s.worker = .running pc) :
    ∃ a s', a.isListener ∧ a.isSmooth ∧ Step F s a s' := by
  cases pc with
  | check =>
    cases hstop : s.stopListen with
    | false => exact ⟨_, _, rfl, rfl, .check hpc hstop⟩
    | true => exact ⟨_, _, rfl, rfl, .stop hpc hstop⟩
  | pending =>
    cases hpending : s.pendingListen with
    | none => exact ⟨_, _, rfl, rfl, .nonePending hpc hpending⟩
    | some channel => exact ⟨_, _, rfl, rfl, .runPending hpc hpending⟩
  | listen channel => exact ⟨_, _, rfl, rfl, .listen hpc⟩
  | answer result => exact ⟨_, _, rfl, rfl, .answer hpc⟩
  | poll => exact ⟨_, _, rfl, rfl, .ready hpc⟩
  | consume => exact ⟨_, _, rfl, rfl, .consume hpc⟩
  | notifies =>
    cases hbuffer : s.buffer with
    | nil => exact ⟨_, _, rfl, rfl, .drained hpc hbuffer⟩
    | cons n rest => exact ⟨_, _, rfl, rfl, .pop hpc hbuffer⟩
  | lookUp n =>
    cases hhandler : s.handlers n.channel with
    | none => exact ⟨_, _, rfl, rfl, .nobody hpc hhandler⟩
    | some handler => exact ⟨_, _, rfl, rfl, .lookUp hpc hhandler⟩
  | call n handler =>
    cases hop : changeOp n.payload with
    | none => exact ⟨_, _, rfl, rfl, .warn hpc hop⟩
    | some op => exact ⟨_, _, rfl, rfl, .call hpc hop⟩

theorem undisturbed_of_isSmooth (ha : a.isListener) (hsmooth : a.isSmooth) : Undisturbed s a := by
  cases a with
  | poll outcome =>
    obtain rfl : outcome = .ready := of_decide_eq_true hsmooth
    trivial
  | consume ok =>
    cases hsmooth
    trivial
  | queue => cases ha
  | _ => trivial

theorem Served.inevitable (hs : Served s) :
    ((listener H F).restrict Undisturbed).Inevitable (·.isListener) (· = .answer) s := by
  have hwf : WellFounded (Prod.Lex (· < ·) (· < ·) : ℕ × ℕ → ℕ × ℕ → Prop) := IsWellFounded.wf
  refine .of_rank hwf State.distance (I := Served) ?_ ?_ ?_ hs
  · intro s hs
    obtain ⟨pc, hpc⟩ := hs.alive
    obtain ⟨a, s', ha, hsmooth, hst⟩ := can_listen (F := F) hpc
    exact ⟨a, s', ha, hst, undisturbed_of_isSmooth ha hsmooth⟩
  · exact fun s a s' hs hst ha => hs.others hst.1 ha
  · exact fun s a s' hs hst ha hgoal => hs.own hst.1 hst.2 ha hgoal

/-- It takes no more than that. -/
theorem answerable_of (hs : Consistent s) (hwait : s.IsWaiting)
    (halive : ∃ pc, s.worker = .running pc) (hstop : s.stopListen = false) : Answerable F s := by
  refine ⟨halive, hstop, fun hdone => Served.inevitable ⟨hwait, halive, hstop, hdone, ?_⟩⟩
  obtain ⟨table, handler, hcaller⟩ := hwait
  rw [hs.queued table handler hcaller hdone]
  exact Option.some_ne_none _

/-! ## Runs -/

/-- A listener that is not told to stop goes on where nothing fails. -/
theorem Step.alive (h : Step F s a s') (ha : a.isListener) (hwait : s.IsWaiting)
    (hstop : s.stopListen = false) (hun : Undisturbed s a) : ∃ pc, s'.worker = .running pc := by
  cases h with
  | stop _ hstopped => cases hstop.symm.trans hstopped
  | pollFails | consumeFails => exact absurd hwait hun
  | op | onChange | joinable | startFails | startRuns | queue | wake | returns | notConnected
  | disconnect | join | others => cases ha
  | _ => exact ⟨_, rfl⟩

theorem Step.answerable (h : Step F s a s') (hs : Consistent s) (hun : Undisturbed s a)
    (hq : s.IsWaiting → Answerable F s) (hwait : s'.IsWaiting) : Answerable F s' := by
  have hs' := hs.step h
  by_cases ha : a.isListener
  · obtain ⟨hcaller, hstop, -, -⟩ := h.frame ha
    have hwait₀ : s.IsWaiting := by rwa [State.IsWaiting, ← hcaller]
    have hstop₀ := (hq hwait₀).notStopped
    exact answerable_of hs' hwait (h.alive ha hwait₀ hstop₀ hun) (hstop.trans hstop₀)
  · obtain ⟨table, handler, hcaller'⟩ := hwait
    cases h with
    | op hcaller => cases hcaller.symm.trans hcaller'
    | onChange =>
      dsimp only [State.publish] at hcaller'
      split at hcaller' <;> cases hcaller'
    | queue hcaller =>
      have halive : ∃ pc, s.worker = .running pc := by
        cases hworker : s.worker with
        | none => exact absurd hworker (hs.started _ _ hcaller)
        | running pc => exact ⟨pc, rfl⟩
        | ended => exact absurd hworker hun.2
      exact answerable_of hs' ⟨table, handler, hcaller'⟩ halive hun.1
    | others =>
      obtain ⟨halive, hstop, -⟩ := hq ⟨table, handler, hcaller'⟩
      exact answerable_of hs' ⟨table, handler, hcaller'⟩ halive hstop
    | joinable | startFails | startRuns | wake | returns | notConnected | disconnect | join =>
      cases hcaller'
    | _ => exact absurd rfl ha

/-- **`on_change` can always be answered** in exactly the runs whose steps are undisturbed: there,
    and only there, whoever waits in any state of the run waits for a listener that comes to
    answer. -/
theorem run_undisturbed_iff : ((listener H F).restrict Undisturbed).Run tr s ↔
    ((listener H F).within fun s => s.IsWaiting → Answerable F s).Run tr s := by
  refine Lts.run_restrict_iff_within ?_ ?_
  · rintro _ ⟨server, cs, log, rfl⟩ ⟨_, _, h⟩
    cases h
  · intro tr s a s' hr hq hst
    have hs := consistent hr.of_restrict
    refine ⟨fun hun => hst.answerable hs hun hq, fun hq' => ?_⟩
    cases hst with
    | queue =>
      obtain ⟨⟨pc, hpc⟩, hstop, -⟩ := hq' ⟨_, _, rfl⟩
      refine ⟨hstop, fun hended => ?_⟩
      cases hended.symm.trans hpc
    | pollFails | consumeFails =>
      intro hwait
      obtain ⟨⟨pc, hpc⟩, -, -⟩ := hq' hwait
      cases hpc
    | _ => trivial

/-- A call that waits for a listener that has ended waits for ever. -/
theorem waits_for_ever {tr' : List (Act H)} (hwait : s.IsWaiting) (hended : s.worker = .ended)
    (hdone : s.pendingListenDone = false) (h : (listener H F).Path s tr' s') :
    s'.IsWaiting ∧ s'.worker = .ended ∧ s'.pendingListenDone = false := by
  refine h.invariant (I := fun _ s' => s'.IsWaiting ∧ s'.worker = .ended ∧
    s'.pendingListenDone = false) ⟨hwait, hended, hdone⟩ ?_
  rintro _ s₁ a s₂ - ⟨⟨table, handler, hcaller⟩, hended, hdone⟩ hst
  cases hst with
  | others => exact ⟨⟨table, handler, hcaller⟩, hended, hdone⟩
  | wake _ hdone' => cases hdone.symm.trans hdone'
  | op hcaller' | onChange hcaller' | joinable hcaller' | startFails hcaller' | startRuns hcaller'
  | queue hcaller' | returns hcaller' | notConnected hcaller' | disconnect hcaller'
  | join hcaller' => cases hcaller.symm.trans hcaller'
  | stop hpc | check hpc | nonePending hpc | runPending hpc | listen hpc | listenFails hpc
  | answer hpc | pollFails hpc | interrupted hpc | timedOut hpc | ready hpc | consumeFails hpc
  | consume hpc | drained hpc | pop hpc | nobody hpc | lookUp hpc | call hpc | warn hpc =>
    cases hended.symm.trans hpc

/-! ## A second connection -/

theorem commandOk_ne : ExecStatus.commandOk ≠ .fatalError := by decide

/-- A server with a table of accounts, and what it makes of the messages it gets. -/
def registry (verdicts : List (Verdict Change)) : Server Change where
  command sql :=
    if sql = "BEGIN" then .begin
    else if sql = "COMMIT" then .commit
    else if sql = "ROLLBACK" then .rollback
    else if sql ∈ ["VACUUM ANALYZE account", "VACUUM ANALYZE Account"] then .outside
    else .plain
  answers n :=
    { verdict := verdicts.getD n (.ok [])
      result := { status := .commandOk, tuples := [] }
      status_ne := commandOk_ne }
  libpq _ := {}
  tableName table := table = "account" ∨ table = "Account"
  begin_eq := by decide
  commit_eq := by decide
  rollback_eq := by decide
  vacuum_eq := by
    rintro _ (rfl | rfl)
    · decide
    · decide
  change_eq := by
    rintro _ (rfl | rfl)
    · decide
    · decide

/-- What the server says to a client that connects, disconnects and connects again, and then
    creates the trigger of the accounts. -/
def reconnected : List (Verdict Change) :=
  [.ok [], .ok [], .ok [], .ok [], .ok [.function "account"], .ok [.dropTrigger "account"],
    .ok [.trigger "account"]]

/-- The call of `on_change` on the second connection waits for a listener that ends at once. -/
theorem not_answered :
    ¬ ∀ (F : FloatText) (tr : List (Act Unit)) (s : State Unit),
      (listener Unit F).Run tr s → s.IsWaiting → Answerable F s := by
  intro h
  have hnone (s : State Unit) : s.Sends [] [] := ⟨.refl _, fun n hn => hn⟩
  have hrun : ∃ tr s, (listener Unit noFloats).Run tr s ∧ s.caller = .waiting "account" () ∧
      s.worker = .ended := by
    refine ⟨_, _, .step (.step (.step (.step (.step (.step (.step (.step (.step
      (.init ⟨registry reconnected, [], [], rfl⟩)
      (.op (o := .connect .ok) rfl rfl trivial rfl rfl (hnone _)))
      (.disconnect rfl rfl))
      (.join rfl fun pc h => by cases h))
      (.returns rfl))
      (.op (o := .connect .ok) rfl rfl trivial rfl rfl (hnone _)))
      (.onChange rfl (.inl rfl) ?_ rfl rfl ⟨.refl _, fun n hn => hn⟩))
      (.startRuns rfl rfl))
      (.queue rfl))
      (.stop rfl rfl), rfl, rfl⟩
    refine ⟨?_, fun _ => ⟨?_, fun _ => ⟨?_, fun _ => ?_⟩⟩⟩
    · exact fun es h => (Verdict.ok.inj h).symm
    · exact fun es h => (Verdict.ok.inj h).symm
    · exact fun es h => (Verdict.ok.inj h).symm
    · intro es h e he
      cases Verdict.ok.inj h
      cases he
  obtain ⟨tr, s, hrun, hcaller, hended⟩ := hrun
  obtain ⟨⟨pc, hpc⟩, -, -⟩ := h noFloats tr s hrun ⟨_, _, hcaller⟩
  cases hended.symm.trans hpc

end Dbgen4.Psql
