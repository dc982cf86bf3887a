import Dbgen4.Psql.Registration
import Dbgen4.Psql.Wiring

/-!
# Whether every change is notified of

A handler that `on_change` has registered ought to be called once for every row of the table that
a transaction changes (`Notified`). The server is told the channel twice, as an identifier that it
folds and cuts and as a text that it takes as it is; of equal notifications of a transaction it
may send one; and what libpq has read together with the answer to a `LISTEN` does not make the
socket readable again. In the runs whose steps avoid these (`Regular`) all rows are notified of.
-/

namespace Dbgen4.Psql

open Rtl Transaction

variable {H : Type} {F : FloatText} {s s₀ s₁ s' : State H} {a : Act H} {tr tr₀ : List (Act H)}
  {table channel : String} {handler : H} {sts : DbSts}

/-! ## What ought to hold -/

/-- The call that a notification comes to with a handler, if it is one of the channel. -/
def callOn (channel : String) (n : Notify) (handler : H) : Option (H × ChangeOp) :=
  if n.channel = channel then (changeOp n.payload).map (handler, ·) else none

namespace State

variable (s : State H)

/-- What the listener has yet to look up. -/
def unread : List Notify :=
  (match s.worker with
    | .running (.lookUp n) => [n]
    | _ => []) ++ s.buffer ++ s.inbox

/-- The notifications of the channel that the listener has yet to deal with, as the calls they
    come to with the handlers there are. -/
def due (channel : String) : List (H × ChangeOp) :=
  (match s.worker with
    | .running (.call n handler) => (callOn channel n handler).toList
    | _ => []) ++
  s.unread.filterMap fun n => (s.handlers n.channel).bind (callOn channel n)

/-- What the listener has read and not yet dealt with. -/
def hand : List Notify :=
  (match s.worker with
    | .running (.lookUp n) | .running (.call n _) => [n]
    | _ => []) ++ s.buffer

/-- No handler is registered. -/
def Unwatched : Prop := ∀ channel, s.handlers channel = none

/-- A transaction changes no two rows of a table that is watched by the same operation, and does
    not notify the channels of `on_change` itself. -/
structure Distinct (es : List Change) : Prop where
  silent : ∀ n, .notify n ∈ es → n.channel ∉ s.listening
  nodup : ∀ table, channelName table ∈ s.listening → (rowsOf table es).Nodup

/-- A table for which `on_change` may be called: the server reads the channel as it is spelled, and
    no other table's trigger calls a function of the name. The call commits no other statement
    on triggers, and not the DROP without the CREATE. -/
structure Registers (table : String) : Prop where
  spelled : ident (channelName table) = channelName table
  alone : ∀ name, (catalog s.log).triggers name = some (functionName table) → name = table
  pending : ∀ e ∈ s.client.db.session.block.pending, e.isData
  whole : s.client.db.Commits 1 → s.client.db.Commits 2

end State

/-- The calls of `on_change` are for tables of their own, the triggers are left alone and change
    each row of a table by an operation of its own in a transaction, and the listening connection
    stays as long as there is a handler, and does not time out on what libpq has read. -/
def Regular (s : State H) : Act H → Prop
  | .op _ _ es => (∀ e ∈ es, e.isData) ∧ s.Distinct es
  | .onChange table _ es => s.Registers table ∧ s.Distinct es
  | .others es => s.Distinct es
  | .disconnect => s.client.db.conn = true → s.Unwatched
  | .poll .failed | .consume false => s.Unwatched ∧ ¬ s.IsWaiting
  | .poll .timedOut => s.buffer = []
  | _ => True

/-- What a step commits. -/
def Act.commits : Act H → List Change
  | .op _ _ es | .onChange _ _ es | .others es => es
  | _ => []

/-- What is committed in the course of a trace. -/
def committed (tr : List (Act H)) : List Change := tr.reverse.flatMap Act.commits

/-- The call of a handler for the channel. -/
def Act.callOn (channel : String) : Act H → Option (H × ChangeOp)
  | .call channel' handler o => if channel' = channel then some (handler, o) else none
  | _ => none

/-- Every row of the table is notified of, and nothing else: with the steps `tr` from `s₀`, in
    all of which `handler` is the one that is registered, the state `s` is reached. -/
structure Notified (F : FloatText) (table : String) (handler : H) (s₀ : State H)
    (tr : List (Act H)) (s : State H) : Prop where
  once : chron (Act.callOn (channelName table)) tr ++ s.due (channelName table) =
    s₀.due (channelName table) ++ (rowsOf (ident table) (committed tr)).map (handler, ·)
  called : s.due (channelName table) ≠ [] →
    ((listener H F).restrict fun s a => Regular s a ∧ a ≠ .poll .interrupted).Inevitable
      (·.isListener) (fun a => (a.callOn (channelName table)).isSome) s
  notOthers : ∀ table', (∀ n ∈ s₀.hand ++ s₀.inbox, n.channel ≠ channelName table') →
    rowsOf (ident table') (committed tr) = [] → chron (Act.callOn (channelName table')) tr = []

theorem committed_cons (a : Act H) (tr : List (Act H)) :
    committed (a :: tr) = committed tr ++ a.commits := by
  rw [committed, List.reverse_cons, List.flatMap_append, List.flatMap_singleton, committed]

/-! ## The listener of a handler -/

/-- There is a listener, and it has not been told to stop. -/
def State.Listens (s : State H) : Prop :=
  (∃ pc, s.worker = .running pc) ∧ s.stopListen = false

theorem State.Listens.step (hs : s.Listens) (h : Step F s a s') (ha : a.isListener)
    (hfails : a ≠ .poll .failed ∧ a ≠ .consume false) : s'.Listens := by
  obtain ⟨hpc, hstop⟩ := hs
  cases h with
  | stop _ hstopped => cases hstop.symm.trans hstopped
  | pollFails => exact absurd rfl hfails.1
  | consumeFails => exact absurd rfl hfails.2
  | op | onChange | joinable | startFails | startRuns | queue | wake | returns | notConnected
  | disconnect | join | others => cases ha
  | _ => exact ⟨⟨_, rfl⟩, hstop⟩

/-- Who has been answered, and be it a while ago, has a listener. -/
structure Alive (s : State H) : Prop where
  watched : ∀ channel, s.handlers channel ≠ none → s.Listens
  told : s.IsWaiting → s.pendingListenDone = true → s.Listens
  joining : s.caller = .joining → s.stopListen = true
  stopped : s.caller ≠ .joining → s.stopListen = true → ∀ pc, s.worker = .running pc → pc = .check

theorem Alive.listener (hs : Alive s) (h : Step F s a s') (hreg : Regular s a)
    (ha : a.isListener) : Alive s' := by
  obtain ⟨hcaller, hstop, -, hsame⟩ := h.frame ha
  obtain ⟨hhandlers, -, -⟩ := h.frame_listener ha
  have hwaiting : s'.IsWaiting ↔ s.IsWaiting := by rw [State.IsWaiting, hcaller, State.IsWaiting]
  have hfails (hneeded : ¬ (s.Unwatched ∧ ¬ s.IsWaiting)) :
      a ≠ .poll .failed ∧ a ≠ .consume false := by
    constructor
    · rintro rfl
      exact hneeded hreg
    · rintro rfl
      exact hneeded hreg
  refine ⟨fun channel hc => ?_, fun hwait hdone => ?_, fun hjoin => ?_, fun hjoin hstopped => ?_⟩
  · rw [hhandlers] at hc
    exact (hs.watched channel hc).step h ha (hfails fun hun => hc (hun.1 channel))
  · rw [hwaiting] at hwait
    have hlistens : s.Listens := by
      by_cases hanswer : a = .answer
      · subst hanswer
        obtain ⟨table, handler, hwait⟩ := hwait
        have hjoin : s.caller ≠ .joining := by simp [hwait]
        cases h with
        | answer hpc =>
          refine ⟨⟨_, hpc⟩, Bool.eq_false_iff.2 fun hstopped => ?_⟩
          cases hs.stopped hjoin hstopped _ hpc
      · rw [(hsame hanswer).2] at hdone
        exact hs.told hwait hdone
    exact hlistens.step h ha (hfails fun hun => hun.2 hwait)
  · exact hstop.trans (hs.joining (hcaller ▸ hjoin))
  · rw [hcaller] at hjoin
    rw [hstop] at hstopped
    have hcheck := hs.stopped hjoin hstopped
    cases h with
    | stop => exact fun pc hpc => by cases hpc
    | check _ hstop' => cases hstop'.symm.trans hstopped
    | nonePending hpc | runPending hpc | listen hpc | listenFails hpc | answer hpc | pollFails hpc
    | interrupted hpc | timedOut hpc | ready hpc | consumeFails hpc | consume hpc | drained hpc
    | pop hpc | nobody hpc | lookUp hpc | call hpc | warn hpc => cases hcheck _ hpc
    | op | onChange | joinable | startFails | startRuns | queue | wake | returns | notConnected
    | disconnect | join | others => cases ha

theorem Alive.step (hs : Alive s) (h : Step F s a s') (hreg : Regular s a) : Alive s' := by
  by_cases ha : a.isListener
  · exact hs.listener h hreg ha
  -- The caller does not wait afterwards, unless it has waited before.
  have hnot {s' : State H} (hcaller : ∀ table handler, s'.caller ≠ .waiting table handler) :
      ¬ s'.IsWaiting := fun ⟨table, handler, h⟩ => hcaller table handler h
  cases h with
  | op hcaller =>
    exact ⟨hs.watched, fun hwait => absurd hwait (hnot (by simp [State.publish, hcaller])),
      hs.joining, hs.stopped⟩
  | onChange hcaller =>
    refine ⟨hs.watched, fun hwait => absurd hwait (hnot ?_), fun h => ?_,
      fun _ => hs.stopped (by simp [hcaller])⟩
    · dsimp only [State.publish]
      split <;> simp
    · dsimp only [State.publish] at h
      split at h <;> cases h
  | joinable hcaller | startFails hcaller | returns hcaller | notConnected hcaller =>
    exact ⟨hs.watched, fun hwait => absurd hwait (hnot (by simp)), (fun h => by cases h),
      fun _ => hs.stopped (by simp [hcaller])⟩
  | startRuns hcaller hworker =>
    refine ⟨fun channel hc => ?_, fun hwait => absurd hwait (hnot (by simp)),
      (fun h => by cases h), fun _ _ pc hpc => ?_⟩
    · obtain ⟨⟨pc, hpc⟩, -⟩ := hs.watched channel hc
      cases hworker.symm.trans hpc
    · cases hpc
      rfl
  | queue hcaller =>
    exact ⟨hs.watched, (fun _ h => by cases h), (fun h => by cases h),
      fun _ => hs.stopped (by simp [hcaller])⟩
  | wake hcaller hdone =>
    have hlistens := hs.told ⟨_, _, hcaller⟩ hdone
    exact ⟨fun _ _ => hlistens, fun hwait => absurd hwait (hnot (by simp)), (fun h => by cases h),
      fun _ => hs.stopped (by simp [hcaller])⟩
  | disconnect hcaller hconn =>
    exact ⟨fun channel hc => absurd (hreg hconn channel) hc,
      fun hwait => absurd hwait (hnot (by simp)), fun _ => rfl, fun h => absurd rfl h⟩
  | join hcaller =>
    refine ⟨fun channel hc => ?_, fun hwait => absurd hwait (hnot (by simp)),
      (fun h => by cases h), (fun _ _ _ h => by cases h)⟩
    obtain ⟨-, hstop⟩ := hs.watched channel hc
    cases hstop.symm.trans (hs.joining hcaller)
  | others => exact ⟨hs.watched, hs.told, hs.joining, hs.stopped⟩
  | _ => exact absurd rfl ha

theorem alive (h : ((listener H F).restrict Regular).Run tr s) : Alive s := by
  refine Lts.Run.invariant (I := fun _ s => Alive s) ?_ ?_ h
  on_goal 2 => exact fun _ _ _ _ _ hs hst => hs.step hst.1 hst.2
  rintro _ ⟨server, cs, log, rfl⟩
  exact ⟨fun _ h => absurd rfl h, (fun ⟨_, _, h⟩ => by cases h), (fun h => by cases h),
    (fun _ h => by cases h)⟩

/-- A call that waits has its `LISTEN` on the way. -/
theorem hears (h : (listener H F).Run tr s) :
    ∀ table handler, s.caller = .waiting table handler →
      ∃ heard, Hears (channelName table) s heard := by
  refine Lts.Run.invariant (I := fun _ s => ∀ table handler, s.caller = .waiting table handler →
    ∃ heard, Hears (channelName table) s heard) ?_ ?_ h
  · rintro _ ⟨server, cs, log, rfl⟩ _ _ h
    cases h
  · intro tr s a s' hr ih hst table handler hwait
    by_cases ha : a.isListener
    · obtain ⟨hcaller, -, -, -⟩ := Step.frame hst ha
      obtain ⟨heard, hhears⟩ := ih table handler (hcaller ▸ hwait)
      exact ⟨_, hhears.listener hst ha⟩
    · cases hst with
      | queue hcaller =>
        have hquiet : Quiet s := tidy hr fun _ _ h => by cases hcaller.symm.trans h
        cases hwait
        exact ⟨[], .queued rfl rfl (fun c hc => absurd hc (hquiet.2 c)) hquiet.3⟩
      | others =>
        obtain ⟨heard, hhears⟩ := ih table handler hwait
        exact ⟨heard, hhears.publish⟩
      | op hcaller => cases hcaller.symm.trans hwait
      | onChange =>
        dsimp only [State.publish] at hwait
        split at hwait <;> cases hwait
      | joinable | startFails | startRuns | wake | returns | notConnected | disconnect | join =>
        cases hwait
      | _ => exact absurd rfl ha

/-! ## The channels that are listened to -/

/-- The table that a call of `on_change` is for, once the trigger is created. -/
def Caller.target : Caller H → Option String
  | .created table _ | .started table _ | .waiting table _ => some table
  | _ => none

/-- The server reads the channel of the table as it is spelled, and the triggers are there. -/
def State.IsWired (s : State H) (table : String) : Prop :=
  ident (channelName table) = channelName table ∧ (catalog s.log).Wires table

/-- Where there is a handler its channel is listened to, and this is a channel of one table. -/
structure Wired (s : State H) : Prop where
  listening : ∀ channel, s.handlers channel ≠ none → channel ∈ s.listening
  wired : ∀ channel ∈ s.listening, ∃ table, channel = channelName table ∧ s.IsWired table
  creating : ∀ table, s.caller.target = some table → s.IsWired table

/-- What a call of `on_change` commits, by its statements. -/
theorem Step.onChange_es {es : List Change} (h : Step F s (.onChange table handler es) s')
    (hreg : s.Registers table) : ∃ k ≤ 3, k ≠ 2 ∧ ∃ pre post : List Change,
      es = pre ++ ((ddl table).map Prod.snd).take k ++ post ∧ (∀ e ∈ pre, e.isData) ∧
      (∀ e ∈ post, e.isData) ∧
      (∀ table', s'.caller.target = some table' → table' = table ∧ k = 3) := by
  cases h with
  | @onChange _ _ ret db _ _ hcaller htable hdoes hcall hes hns =>
    obtain ⟨k, hk, pre, post, heq, hpost, hpre, hiff⟩ :=
      DbPsql.committed_createChangeTrigger htable hdoes
    have hsuccess := DbPsql.createChangeTrigger_success htable hdoes
    rw [hcall, hes, List.append_cancel_left_eq] at heq
    rw [hcall] at hsuccess
    refine ⟨k, hk, ?_, pre, post, heq, ?_, hpost, fun table' h => ?_⟩
    · rintro rfl
      exact absurd ((hiff 2 (by decide)).2 (hreg.whole ((hiff 1 (by decide)).1 (by decide))))
        (by decide)
    · rcases hpre with rfl | ⟨-, rfl⟩
      · exact fun e he => absurd he List.not_mem_nil
      · exact hreg.pending
    · dsimp only [State.publish] at h
      by_cases hret : ret = .success
      · rw [if_pos hret] at h
        cases h
        obtain ⟨hlive, htakes, -, hcommit, -⟩ := hsuccess.1 hret
        have := (hiff 2 (by decide)).2 (DbPsql.commits_of_takes hlive htakes hcommit (by decide))
        exact ⟨rfl, by omega⟩
      · rw [if_neg hret] at h
        cases h

/-- `on_change` leaves the tables wired that are, and wires its own where it reports success. -/
theorem Step.onChange_wired {es : List Change} (h : Step F s (.onChange table handler es) s')
    (hreg : s.Registers table) :
    (∀ table', s.IsWired table' → s'.IsWired table') ∧
      ∀ table', s'.caller.target = some table' → s'.IsWired table' := by
  obtain ⟨k, hk, hk', pre, post, rfl, hpre, hpost, htarget⟩ := h.onChange_es hreg
  have hident := ident_of_channelName hreg.spelled
  have hcatalog : catalog s'.log =
      (catalog s.log).applies (((ddl table).map Prod.snd).take k) := by
    have hlog : s'.log = s.log ++ (pre ++ ((ddl table).map Prod.snd).take k ++ post) := by
      cases h
      rfl
    rw [hlog, catalog_append, Catalog.applies_append, Catalog.applies_append,
      Catalog.applies_of_isData hpre, Catalog.applies_of_isData hpost]
  refine ⟨fun table' hw => ⟨hw.1, ?_⟩, fun table' h' => ?_⟩
  · rw [hcatalog]
    exact hw.2.ddl hident hreg.alone hk hk'
  · obtain ⟨rfl, rfl⟩ := htarget table' h'
    refine ⟨hreg.spelled, ?_⟩
    rw [hcatalog, List.take_of_length_le (Nat.le_refl 3)]
    exact Catalog.wires_ddl hident hreg.alone

theorem State.IsWired.of_catalog (hs : s.IsWired table) (h : catalog s'.log = catalog s.log) :
    s'.IsWired table := by
  refine ⟨hs.1, ?_⟩
  rw [h]
  exact hs.2

theorem Wired.wired_of_catalog (hs : Wired s) (h : catalog s'.log = catalog s.log)
    (hlistening : s'.listening = s.listening) :
    ∀ channel ∈ s'.listening, ∃ table, channel = channelName table ∧ s'.IsWired table := by
  intro channel hc
  obtain ⟨table, rfl, hw⟩ := hs.wired channel (hlistening ▸ hc)
  exact ⟨table, rfl, hw.of_catalog h⟩

theorem Wired.listener (hs : Wired s) (h : Step F s a s') (ha : a.isListener) (htidy : Tidy s)
    (hhears : ∀ table handler, s.caller = .waiting table handler →
      ∃ heard, Hears (channelName table) s heard) : Wired s' := by
  obtain ⟨hcaller, -, -, -⟩ := h.frame ha
  obtain ⟨hhandlers, hlog, hmem⟩ := h.frame_listener ha
  have hwired (table : String) : s'.IsWired table ↔ s.IsWired table := by
    rw [State.IsWired, hlog, State.IsWired]
  refine ⟨fun channel hc => hmem _ (hs.listening channel (hhandlers ▸ hc)), ?_, fun table h => ?_⟩
  · simp only [hwired]
    cases h with
    | @listen channel hpc =>
      refine List.forall_mem_cons.2 ⟨?_, hs.wired⟩
      -- The `LISTEN` is that of a call that waits for it.
      by_contra hnone
      refine (htidy fun table handler hwait => ?_).notListening channel hpc
      obtain ⟨heard, hhears⟩ := hhears table handler hwait
      cases hhears with
      | queued _ _ hchannel =>
        obtain rfl := hchannel channel hpc
        have hw := hs.creating table (by rw [hwait, Caller.target])
        exact absurd ⟨table, hw.1, hw⟩ hnone
      | heard _ hpc' => cases hpc.symm.trans hpc'
      | told hdone => exact hdone
    | op | onChange | joinable | startFails | startRuns | queue | wake | returns | notConnected
    | disconnect | join | others => cases ha
    | _ => exact hs.wired
  · rw [hwired]
    exact hs.creating table (hcaller ▸ h)

theorem Wired.step (hs : Wired s) (h : Step F s a s') (hreg : Regular s a) (halive : Alive s)
    (htidy : Tidy s) (hhears : ∀ table handler, s.caller = .waiting table handler →
      ∃ heard, Hears (channelName table) s heard) : Wired s' := by
  by_cases ha : a.isListener
  · exact hs.listener h ha htidy hhears
  cases h with
  | @op _ _ client es ns =>
    have hcatalog : catalog (State.publish { s with client := client } es ns).log = catalog s.log :=
      (catalog_append _ _).trans (Catalog.applies_of_isData hreg.1)
    exact ⟨hs.listening, hs.wired_of_catalog hcatalog rfl,
      fun table h => (hs.creating table h).of_catalog hcatalog⟩
  | @others es ns hdata =>
    have hcatalog : catalog (s.publish es ns).log = catalog s.log :=
      (catalog_append _ _).trans (Catalog.applies_of_isData hdata)
    exact ⟨hs.listening, hs.wired_of_catalog hcatalog rfl,
      fun table h => (hs.creating table h).of_catalog hcatalog⟩
  | onChange hcaller htable hdoes hcall hes hns =>
    obtain ⟨hwired, hcreating⟩ :=
      Step.onChange_wired (.onChange (F := F) hcaller htable hdoes hcall hes hns) hreg.1
    refine ⟨hs.listening, fun channel hc => ?_, hcreating⟩
    obtain ⟨table, rfl, hw⟩ := hs.wired channel hc
    exact ⟨table, rfl, hwired table hw⟩
  | joinable hcaller | queue hcaller =>
    refine ⟨hs.listening, hs.wired, fun table h => hs.creating table ?_⟩
    rw [hcaller]
    exact h
  | startFails | returns | notConnected | disconnect =>
    exact ⟨hs.listening, hs.wired, (fun _ h => by cases h)⟩
  | startRuns hcaller hworker =>
    refine ⟨fun channel hc => ?_, (fun _ h => by cases h), fun table h => hs.creating table ?_⟩
    · obtain ⟨⟨pc, hpc⟩, -⟩ := halive.watched channel hc
      cases hworker.symm.trans hpc
    · rw [hcaller]
      exact h
  | join hcaller =>
    refine ⟨fun channel hc => ?_, (fun _ h => by cases h), (fun _ h => by cases h)⟩
    obtain ⟨-, hstop⟩ := halive.watched channel hc
    cases hstop.symm.trans (halive.joining hcaller)
  | @wake table handler hcaller hdone =>
    obtain ⟨heard, hhears⟩ := hhears table handler hcaller
    refine ⟨fun channel hc => ?_, hs.wired, (fun _ h => by cases h)⟩
    cases hhears with
    | queued hdone' => cases hdone'.symm.trans hdone
    | heard hdone' => cases hdone'.symm.trans hdone
    | @told ok _ hresult _ hlistening =>
      dsimp only at hc ⊢
      rw [hresult] at hc
      cases ok with
      | false => exact hs.listening channel hc
      | true =>
        rw [show listenSts true = .success from rfl, if_pos rfl] at hc
        by_cases hchannel : channel = channelName table
        · have hw := hs.creating table (by rw [hcaller, Caller.target])
          rw [hchannel, ← hw.1]
          exact hlistening rfl
        · rw [Function.update_of_ne hchannel] at hc
          exact hs.listening channel hc
  | _ => exact absurd rfl ha

theorem wired (h : ((listener H F).restrict Regular).Run tr s) : Wired s := by
  refine Lts.Run.invariant (I := fun _ s => Wired s) ?_ ?_ h
  · rintro _ ⟨server, cs, log, rfl⟩
    exact ⟨fun _ h => absurd rfl h, (fun _ h => by cases h), (fun _ h => by cases h)⟩
  · intro tr s a s' hr hs hst
    have hrun := Lts.Run.of_restrict hr
    exact hs.step hst.1 hst.2 (alive hr) (tidy hrun) (hears hrun)

/-! ## What is due -/

theorem callOn_rowNotify (table : String) (op : ChangeOp) (handler : H) :
    callOn (channelName table) (rowNotify table op) handler = some (handler, op) := by
  refine (if_pos rfl).trans ?_
  cases op <;> rfl

theorem callOn_of_ne {n : Notify} (h : n.channel ≠ channel) (handler : H) :
    callOn channel n handler = none :=
  if_neg h

theorem filterMap_callOn (channel : String) (handler : H) (ns : List Notify) :
    ns.filterMap (callOn channel · handler) =
      (ns.filter (·.channel = channel)).filterMap (callOn channel · handler) := by
  rw [List.filterMap_filter]
  congr 1
  funext n
  by_cases h : n.channel = channel
  · simp [h]
  · simp [h, callOn_of_ne h]

/-- The call under way, if it is one for the channel. -/
def State.calling (s : State H) (channel : String) : List (H × ChangeOp) :=
  match s.worker with
  | .running (.call n handler) => (callOn channel n handler).toList
  | _ => []

theorem State.due_eq (h : s.handlers channel = some handler) :
    s.due channel = s.calling channel ++ s.unread.filterMap (callOn channel · handler) := by
  have hfun : (fun n => (s.handlers n.channel).bind (callOn channel n)) =
      (callOn channel · handler) := by
    funext n
    by_cases hn : n.channel = channel
    · rw [hn, h, Option.bind_some]
    · rw [callOn_of_ne hn]
      cases s.handlers n.channel with
      | none => rfl
      | some handler' => exact callOn_of_ne hn handler'
  rw [State.due, hfun]
  rfl

/-- What a transaction adds to it. -/
theorem State.due_publish {es : List Change} {ns : List Notify}
    (h : s.handlers (channelName table) = some handler)
    (hmem : channelName table ∈ s.listening) (hdistinct : s.Distinct es) (hns : s.Sends es ns)
    (hnotifies : ((catalog s.log).notifications es).filter (·.channel = channelName table) =
      (rowsOf table es).map (rowNotify table)) :
    (s.publish es ns).due (channelName table) =
      s.due (channelName table) ++ (rowsOf table es).map (handler, ·) := by
  have hunread : (s.publish es ns).unread = s.unread ++ ns.filter (·.channel ∈ s.listening) :=
    (List.append_assoc _ _ _).symm
  have hsent : ns.filter (·.channel = channelName table) =
      (rowsOf table es).map (rowNotify table) := by
    rw [← hnotifies]
    refine hns.filter_eq ?_
    rw [hnotifies]
    exact List.Nodup.map (rowNotify_injective table) (hdistinct.nodup table hmem)
  have hinbox : (ns.filter (·.channel ∈ s.listening)).filter (·.channel = channelName table) =
      (rowsOf table es).map (rowNotify table) := by
    rw [List.filter_filter, ← hsent]
    congr 1
    funext n
    by_cases hn : n.channel = channelName table
    · simp [hn, hmem]
    · simp [hn]
  have hcalls : (rowsOf table es).filterMap
      ((callOn (channelName table) · handler) ∘ rowNotify table) =
        (rowsOf table es).map (handler, ·) := by
    rw [← List.filterMap_eq_map]
    congr 1
    funext op
    exact callOn_rowNotify table op handler
  have h' : (s.publish es ns).handlers (channelName table) = some handler := h
  rw [State.due_eq h', State.due_eq h, hunread, List.filterMap_append, ← List.append_assoc,
    filterMap_callOn _ _ (ns.filter _), hinbox, List.filterMap_map, hcalls]
  rfl

/-- What a listener step makes of it. -/
theorem Step.due_listener (h : Step F s a s') (ha : a.isListener)
    (hh : s.handlers channel = some handler) :
    (a.callOn channel).toList ++ s'.due channel = s.due channel := by
  obtain ⟨hhandlers, -, -⟩ := h.frame_listener ha
  have hh' : s'.handlers channel = some handler := by rw [hhandlers, hh]
  rw [State.due_eq hh, State.due_eq hh']
  cases h with
  | @nobody n hpc hnone =>
    have hn : n.channel ≠ channel := fun hn => by
      rw [hn, hh] at hnone
      cases hnone
    simp [State.calling, State.unread, Act.callOn, hpc, callOn_of_ne hn]
  | @lookUp n handler' hpc hhandler =>
    have hsame : callOn channel n handler' = callOn channel n handler := by
      by_cases hn : n.channel = channel
      · rw [hn, hh] at hhandler
        rw [Option.some.inj hhandler]
      · rw [callOn_of_ne hn, callOn_of_ne hn]
    simp only [State.calling, State.unread, Act.callOn, hpc, hsame, List.cons_append,
      List.nil_append, List.filterMap_cons, Option.toList_none]
    cases callOn channel n handler <;> rfl
  | @call n handler' op hpc hop =>
    have hcall : Act.callOn channel (.call n.channel handler' op) = callOn channel n handler' := by
      rw [Act.callOn, callOn, hop, Option.map_some]
    rw [hcall]
    simp [State.calling, State.unread, hpc]
  | @warn n handler' hpc hop =>
    have hnone : callOn channel n handler' = none := by
      rw [callOn, hop, Option.map_none, ite_self]
    simp [State.calling, State.unread, Act.callOn, hpc, hnone]
  | pop hpc hbuffer => simp [State.calling, State.unread, Act.callOn, hpc, hbuffer]
  | stop hpc | check hpc | nonePending hpc | runPending hpc | listen hpc | listenFails hpc
  | answer hpc | pollFails hpc | interrupted hpc | timedOut hpc | ready hpc | consumeFails hpc
  | consume hpc | drained hpc =>
    simp [State.calling, State.unread, State.read, Act.callOn, hpc]
  | op | onChange | joinable | startFails | startRuns | queue | wake | returns | notConnected
  | disconnect | join | others => cases ha

/-- What a step commits notifies of the rows of a table that is listened to. -/
theorem Step.notifies (h : Step F s a s') (hreg : Regular s a) (hwired : Wired s)
    (hmem : channelName table ∈ s.listening) :
    ((catalog s.log).notifications a.commits).filter (·.channel = channelName table) =
      (rowsOf table a.commits).map (rowNotify table) := by
  obtain ⟨table', htable', hw⟩ := hwired.wired _ hmem
  obtain rfl := channelName_injective htable'
  have hnamed := Catalog.named_catalog s.log
  have hsilent {es : List Change} (hdistinct : s.Distinct es) (n : Notify) (hn : .notify n ∈ es) :
      n.channel ≠ channelName table := fun hchannel => hdistinct.silent n hn (hchannel ▸ hmem)
  cases a with
  | op o ok es => exact Catalog.notifications_of_isData hnamed hw.2 hreg.1 (hsilent hreg.2)
  | others es =>
    cases h with
    | others hdata => exact Catalog.notifications_of_isData hnamed hw.2 hdata (hsilent hreg)
  | onChange table' handler es =>
    obtain ⟨k, hk, hk', pre, post, rfl, hpre, hpost, -⟩ := h.onChange_es hreg.1
    exact Catalog.notifications_of_ddl hnamed hw.2 (ident_of_channelName hreg.1.spelled)
      hreg.1.alone hk hk' hpre hpost (hsilent hreg.2)
  | _ => rfl

/-- What a step makes of it: the call is made, and the rows are added. -/
theorem Step.due (h : Step F s a s') (hreg : Regular s a) (halive : Alive s) (hwired : Wired s)
    (hh : s.handlers (channelName table) = some handler)
    (hh' : s'.handlers (channelName table) = some handler) :
    (a.callOn (channelName table)).toList ++ s'.due (channelName table) =
      s.due (channelName table) ++ (rowsOf table a.commits).map (handler, ·) := by
  by_cases ha : a.isListener
  · have hnone : a.commits = [] := by
      cases a with
      | op | onChange | others => cases ha
      | _ => rfl
    rw [h.due_listener ha hh, hnone]
    exact (List.append_nil _).symm
  have hne : s.handlers (channelName table) ≠ none := by
    rw [hh]
    exact Option.some_ne_none _
  have hlistens := halive.watched _ hne
  have hmem := hwired.listening _ hne
  have hnotifies := h.notifies hreg hwired hmem
  cases h with
  | @op o ok client es ns _ _ _ _ _ hns =>
    exact State.due_publish (s := { s with client := client }) hh hmem ⟨hreg.2.1, hreg.2.2⟩ hns
      hnotifies
  | onChange _ _ _ _ _ hns =>
    exact State.due_publish (s := { s with client := _, caller := _ }) hh hmem
      ⟨hreg.2.1, hreg.2.2⟩ hns hnotifies
  | others _ hns => exact State.due_publish hh hmem hreg hns hnotifies
  | startRuns _ hworker =>
    obtain ⟨⟨pc, hpc⟩, -⟩ := hlistens
    cases hworker.symm.trans hpc
  | join hcaller => cases hlistens.2.symm.trans (halive.joining hcaller)
  | wake =>
    rw [State.due_eq hh, State.due_eq hh']
    exact (List.append_nil _).symm
  | joinable | startFails | queue | returns | notConnected | disconnect =>
    exact (List.append_nil _).symm
  | _ => exact absurd rfl ha

theorem spelled_of_watched (hwired : Wired s) (h : s.handlers (channelName table) ≠ none) :
    ident table = table := by
  obtain ⟨table', htable', hw⟩ := hwired.wired _ (hwired.listening _ h)
  obtain rfl := channelName_injective htable'
  exact ident_of_channelName hw.1

/-- The calls along a path, and what is due after it. -/
theorem calls_append_due (hr : ((listener H F).restrict Regular).Run tr₀ s₀)
    (hh : s₀.handlers (channelName table) = some handler)
    (hp : (((listener H F).restrict Regular).within
      fun s => s.handlers (channelName table) = some handler).Path s₀ tr s) :
    chron (Act.callOn (channelName table)) tr ++ s.due (channelName table) =
      s₀.due (channelName table) ++ (rowsOf table (committed tr)).map (handler, ·) := by
  have hpath := Lts.Path.invariant (I := fun tr s =>
    ((listener H F).restrict Regular).Run (tr ++ tr₀) s ∧
      s.handlers (channelName table) = some handler ∧
      chron (Act.callOn (channelName table)) tr ++ s.due (channelName table) =
        s₀.due (channelName table) ++ (rowsOf table (committed tr)).map (handler, ·))
    ⟨hr, hh, (List.append_nil _).symm⟩ ?_ hp
  · exact hpath.2.2
  · rintro tr s a s' - ⟨hrun, hh, heq⟩ ⟨⟨hst, hreg⟩, hh'⟩
    refine ⟨.step hrun ⟨hst, hreg⟩, hh', ?_⟩
    rw [chron_cons, List.append_assoc, Step.due hst hreg (alive hrun) (wired hrun) hh hh',
      ← List.append_assoc, heq, committed_cons, rowsOf_append, List.map_append, List.append_assoc]

/-! ## Other tables -/

/-- A step of the listener gets no notifications. -/
theorem Step.hand_listener (h : Step F s a s') (ha : a.isListener) :
    ∀ n ∈ s'.hand ++ s'.inbox, n ∈ s.hand ++ s.inbox := by
  cases h with
  | op | onChange | joinable | startFails | startRuns | queue | wake | returns | notConnected
  | disconnect | join | others => cases ha
  | pop hpc hbuffer => simp [State.hand, hpc, hbuffer]
  | nobody hpc | lookUp hpc | call hpc | warn hpc =>
    simp only [State.hand, hpc]
    grind
  | stop hpc | check hpc | nonePending hpc | runPending hpc | listen hpc | listenFails hpc
  | answer hpc | pollFails hpc | interrupted hpc | timedOut hpc | ready hpc | consumeFails hpc
  | consume hpc | drained hpc =>
    simp [State.hand, State.read, hpc]

/-- A transaction that changes no row of a table does not notify its channel. -/
theorem State.quiet_publish {es : List Change} {ns : List Notify}
    (hquiet : ∀ n ∈ s.hand ++ s.inbox, n.channel ≠ channel) (hns : s.Sends es ns)
    (hnone : channel ∈ s.listening →
      ((catalog s.log).notifications es).filter (·.channel = channel) = []) :
    ∀ n ∈ (s.publish es ns).hand ++ (s.publish es ns).inbox, n.channel ≠ channel := by
  intro n hn hchannel
  rcases List.mem_append.1 hn with hn | hn
  · exact hquiet n (List.mem_append_left _ hn) hchannel
  · rcases List.mem_append.1 hn with hn | hn
    · exact hquiet n (List.mem_append_right _ hn) hchannel
    · obtain ⟨hmem, hlistening⟩ := List.mem_filter.1 hn
      have hlistening : n.channel ∈ s.listening := of_decide_eq_true hlistening
      rw [hchannel] at hlistening
      have hfilter := List.filter_eq_nil_iff.1 (hnone hlistening) n (hns.1.subset hmem)
      exact hfilter (decide_eq_true hchannel)

theorem Step.quiet (h : Step F s a s') (hreg : Regular s a) (hwired : Wired s)
    (hquiet : ∀ n ∈ s.hand ++ s.inbox, n.channel ≠ channelName table)
    (hrows : rowsOf (ident table) a.commits = []) :
    (∀ n ∈ s'.hand ++ s'.inbox, n.channel ≠ channelName table) ∧
      a.callOn (channelName table) = none := by
  have hnone (hmem : channelName table ∈ s.listening) :
      ((catalog s.log).notifications a.commits).filter (·.channel = channelName table) = [] := by
    obtain ⟨table', htable', hw⟩ := hwired.wired _ hmem
    obtain rfl := channelName_injective htable'
    rw [ident_of_channelName hw.1] at hrows
    rw [h.notifies hreg hwired hmem, hrows]
    rfl
  by_cases ha : a.isListener
  · refine ⟨fun n hn => hquiet n (h.hand_listener ha n hn), ?_⟩
    cases h with
    | @call n _ _ hpc =>
      refine if_neg (hquiet n (List.mem_append_left _ ?_))
      simp [State.hand, hpc]
    | _ => rfl
  · cases h with
    | @op o ok client es ns _ _ _ _ _ hns =>
      exact ⟨State.quiet_publish (s := { s with client := client }) hquiet hns hnone, rfl⟩
    | onChange _ _ _ _ _ hns =>
      exact ⟨State.quiet_publish (s := { s with client := _, caller := _ }) hquiet hns hnone, rfl⟩
    | others _ hns => exact ⟨State.quiet_publish hquiet hns hnone, rfl⟩
    | startRuns | join => exact ⟨fun _ hn => absurd hn List.not_mem_nil, rfl⟩
    | joinable | startFails | queue | wake | returns | notConnected | disconnect =>
      exact ⟨hquiet, rfl⟩
    | _ => exact absurd rfl ha

theorem calls_of_quiet (hr : ((listener H F).restrict Regular).Run tr₀ s₀)
    (hp : ((listener H F).restrict Regular).Path s₀ tr s)
    (hquiet : ∀ n ∈ s₀.hand ++ s₀.inbox, n.channel ≠ channelName table)
    (hrows : rowsOf (ident table) (committed tr) = []) :
    chron (Act.callOn (channelName table)) tr = [] := by
  have hpath := Lts.Path.invariant (I := fun tr s =>
    ((listener H F).restrict Regular).Run (tr ++ tr₀) s ∧
      (rowsOf (ident table) (committed tr) = [] →
        (∀ n ∈ s.hand ++ s.inbox, n.channel ≠ channelName table) ∧
          chron (Act.callOn (channelName table)) tr = []))
    ⟨hr, fun _ => ⟨hquiet, rfl⟩⟩ ?_ hp
  · exact (hpath.2 hrows).2
  · rintro tr s a s' - ⟨hrun, ih⟩ ⟨hst, hreg⟩
    refine ⟨.step hrun ⟨hst, hreg⟩, fun hrows => ?_⟩
    rw [committed_cons, rowsOf_append, List.append_eq_nil_iff] at hrows
    obtain ⟨hquiet, hcalls⟩ := ih hrows.1
    obtain ⟨hquiet', hcall⟩ := Step.quiet hst hreg (wired hrun) hquiet hrows.2
    refine ⟨hquiet', ?_⟩
    rw [chron_cons, hcalls, hcall]
    rfl

/-! ## The way to the call -/

/-- The notification is to come to a call on the channel. -/
def Notify.IsFor (channel : String) (n : Notify) : Prop :=
  n.channel = channel ∧ changeOp n.payload ≠ none

instance (channel : String) (n : Notify) : Decidable (n.IsFor channel) :=
  inferInstanceAs (Decidable (_ ∧ _))

theorem callOn_ne_none {n : Notify} (handler : H) (h : callOn channel n handler ≠ none) :
    n.IsFor channel := by
  by_cases hn : n.channel = channel
  · refine ⟨hn, fun hop => h ?_⟩
    rw [callOn, hop, Option.map_none, ite_self]
  · exact absurd (callOn_of_ne hn handler) h

/-- What is due is among the notifications that there are. -/
theorem State.exists_isFor (h : s.due channel ≠ []) : ∃ n ∈ s.hand ++ s.inbox, n.IsFor channel := by
  obtain ⟨p, hp⟩ := List.exists_mem_of_ne_nil _ h
  rcases List.mem_append.1 hp with hp | hp
  · cases hworker : s.worker with
    | none | ended =>
      rw [hworker] at hp
      cases hp
    | running pc =>
      cases pc with
      | call n handler =>
        rw [hworker] at hp
        refine ⟨n, by simp [hand, hworker], callOn_ne_none handler fun hnone => ?_⟩
        dsimp only at hp
        rw [hnone] at hp
        cases hp
      | _ =>
        rw [hworker] at hp
        cases hp
  · obtain ⟨n, hn, hcall⟩ := List.mem_filterMap.1 hp
    obtain ⟨handler, -, hcall⟩ := Option.bind_eq_some_iff.1 hcall
    refine ⟨n, ?_, callOn_ne_none handler ?_⟩
    · rw [unread] at hn
      rw [hand]
      split at hn
      · rename_i hworker
        rw [hworker]
        exact hn
      · simp only [List.nil_append] at hn
        rw [List.append_assoc]
        exact List.mem_append_right _ hn
    · rw [hcall]
      exact Option.some_ne_none _

/-- How far the listener is from the next call on the channel: with none at hand, the rest of
    the turn and the next turn as far as the reading. -/
def State.delay (s : State H) (channel : String) : ℕ × ℕ :=
  match s.worker with
  | .running pc =>
    (if pc.phase = 4 ∧ ¬ ∃ n ∈ s.hand, n.IsFor channel then 7 else (pc.phase + 3) % 7,
      pc.work s.buffer)
  | _ => (0, 0)

theorem State.delay_eq {pc : Pc H} (h : s.worker = .running pc) : s.delay channel =
    (if pc.phase = 4 ∧ ¬ ∃ n ∈ s.hand, n.IsFor channel then 7 else (pc.phase + 3) % 7,
      pc.work s.buffer) := by
  rw [delay, h]

/-- There is a handler for the channel, and a notification to be dealt with. -/
structure Due (F : FloatText) (channel : String) (s : State H) : Prop where
  reachable : ((listener H F).restrict Regular).Reachable s
  watched : s.handlers channel ≠ none
  exists_isFor : ∃ n ∈ s.hand ++ s.inbox, n.IsFor channel

theorem Due.listens (hs : Due F channel s) : s.Listens := by
  obtain ⟨tr, hrun⟩ := hs.reachable
  exact (alive hrun).watched channel hs.watched

theorem Due.can (hs : Due F channel s) : ∃ a s', a.isListener ∧
    ((listener H F).restrict fun s a => Regular s a ∧ a ≠ .poll .interrupted).step s a s' := by
  obtain ⟨⟨pc, hpc⟩, -⟩ := hs.listens
  obtain ⟨a, s', ha, hsmooth, hst⟩ := can_listen (F := F) hpc
  refine ⟨a, s', ha, hst, ?_, ?_⟩
  · cases a with
    | poll outcome =>
      obtain rfl : outcome = .ready := of_decide_eq_true hsmooth
      trivial
    | consume ok =>
      cases hsmooth
      trivial
    | op | onChange | others | disconnect => cases ha
    | _ => trivial
  · rintro rfl
    cases hsmooth

theorem Due.others (hs : Due F channel s) (h : Step F s a s') (hreg : Regular s a)
    (ha : ¬ a.isListener) : Due F channel s' ∧ s'.delay channel = s.delay channel := by
  obtain ⟨hstop, hjoining⟩ :
      s.stopListen = false ∧ (s.caller = .joining → s.stopListen = true) := by
    obtain ⟨tr, hrun⟩ := hs.reachable
    exact ⟨hs.listens.2, (alive hrun).joining⟩
  obtain ⟨⟨tr, hrun⟩, hwatched, n, hn, hfor⟩ := hs
  have hreach : ((listener H F).restrict Regular).Reachable s' := ⟨_, .step hrun ⟨h, hreg⟩⟩
  have hpublish (ns : List Notify) : n ∈ s.hand ++ (s.inbox ++ ns) := by
    rw [← List.append_assoc]
    exact List.mem_append_left _ hn
  cases h with
  | op | onChange | others => exact ⟨⟨hreach, hwatched, n, hpublish _, hfor⟩, rfl⟩
  | joinable | startFails | queue | returns | notConnected =>
    exact ⟨⟨hreach, hwatched, n, hn, hfor⟩, rfl⟩
  | wake =>
    refine ⟨⟨hreach, ?_, n, hn, hfor⟩, rfl⟩
    dsimp only
    split
    · rw [Function.update_apply]
      split
      · exact Option.some_ne_none _
      · exact hwatched
    · exact hwatched
  | startRuns _ hworker =>
    obtain ⟨⟨pc, hpc⟩, -⟩ := (alive hrun).watched channel hwatched
    cases hworker.symm.trans hpc
  | disconnect _ hconn => exact absurd (hreg hconn channel) hwatched
  | join hcaller => cases hstop.symm.trans (hjoining hcaller)
  | _ => exact absurd rfl ha

/-- A turn of the loop up to the reading loses nothing, and has nothing to deal with. -/
theorem State.delay_lt {pc pc' : Pc H} (hpc : s.worker = .running pc)
    (hpc' : s'.worker = .running pc') (hphase : (pc'.phase + 3) % 7 < (pc.phase + 3) % 7)
    (hne : pc'.phase ≠ 4) : Prod.Lex (· < ·) (· < ·) (s'.delay channel) (s.delay channel) := by
  rw [delay_eq hpc, delay_eq hpc']
  refine .left _ _ ?_
  rw [if_neg fun h => hne h.1]
  split
  · omega
  · exact hphase

/-- A notification that is not for the channel is dealt with, or one is taken up. -/
theorem State.delay_work {pc pc' : Pc H} (hpc : s.worker = .running pc)
    (hpc' : s'.worker = .running pc') (hphase : pc.phase = 4) (hphase' : pc'.phase = 4)
    (hhand : (∃ n ∈ s'.hand, n.IsFor channel) ↔ ∃ n ∈ s.hand, n.IsFor channel)
    (hwork : pc'.work s'.buffer < pc.work s.buffer) :
    Prod.Lex (· < ·) (· < ·) (s'.delay channel) (s.delay channel) := by
  rw [delay_eq hpc, delay_eq hpc', hphase, hphase']
  simp only [hhand]
  exact .right _ hwork

theorem Due.own (hs : Due F channel s) (h : Step F s a s') (hreg : Regular s a)
    (hsignal : a ≠ .poll .interrupted) (ha : a.isListener) (hgoal : ¬ (a.callOn channel).isSome) :
    Due F channel s' ∧ Prod.Lex (· < ·) (· < ·) (s'.delay channel) (s.delay channel) := by
  have hstop := hs.listens.2
  obtain ⟨⟨tr, hrun⟩, hwatched, n, hn, hfor⟩ := hs
  have hreach : ((listener H F).restrict Regular).Reachable s' := ⟨_, .step hrun ⟨h, hreg⟩⟩
  have hwatched' : s'.handlers channel ≠ none := by rwa [(h.frame_listener ha).1]
  have hdue (hmem : n ∈ s'.hand ++ s'.inbox) : Due F channel s' :=
    ⟨hreach, hwatched', n, hmem, hfor⟩
  cases h with
  | stop _ hstopped => cases hstop.symm.trans hstopped
  | pollFails | consumeFails => exact absurd (hreg.1 channel) hwatched
  | interrupted => exact absurd rfl hsignal
  | timedOut hpc hinbox =>
    have hbuffer : s.buffer = [] := hreg
    simp [State.hand, hpc, hinbox, hbuffer] at hn
  | check hpc | nonePending hpc | runPending hpc | answer hpc | ready hpc =>
    refine ⟨hdue (by simpa [State.hand, hpc] using hn), ?_⟩
    exact State.delay_lt hpc rfl (by simp [Pc.phase]) (by simp [Pc.phase])
  | listen hpc | listenFails hpc =>
    refine ⟨hdue (by simpa [State.hand, State.read, hpc] using hn), ?_⟩
    exact State.delay_lt hpc rfl (by simp [Pc.phase]) (by simp [Pc.phase])
  | drained hpc hbuffer =>
    refine ⟨hdue (by simpa [State.hand, hpc] using hn), ?_⟩
    have hnone : ¬ ∃ n ∈ s.hand, n.IsFor channel := by simp [State.hand, hpc, hbuffer]
    have hdelay : s.delay channel = _ := State.delay_eq hpc
    rw [if_pos ⟨rfl, hnone⟩] at hdelay
    rw [hdelay, State.delay_eq rfl]
    exact .left _ _ (by simp [Pc.phase])
  | consume hpc =>
    -- What is for the channel is at hand now.
    have hmem : n ∈ s.buffer ++ s.inbox := by simpa [State.hand, hpc] using hn
    refine ⟨hdue (by simpa [State.hand, State.read] using hmem), ?_⟩
    rw [State.delay_eq hpc, State.delay_eq rfl]
    refine .left _ _ ?_
    rw [if_neg fun h => h.2 ⟨n, by simpa [State.hand, State.read] using hmem, hfor⟩]
    simp [Pc.phase]
  | pop hpc hbuffer =>
    refine ⟨hdue (by simpa [State.hand, hpc, hbuffer] using hn), ?_⟩
    refine State.delay_work hpc rfl rfl rfl (by simp [State.hand, hpc, hbuffer]) ?_
    simp [Pc.work, hbuffer]
    omega
  | lookUp hpc =>
    refine ⟨hdue (by simpa [State.hand, hpc] using hn), ?_⟩
    exact State.delay_work hpc rfl rfl rfl (by simp [State.hand, hpc]) (by simp [Pc.work])
  | @nobody n' hpc hnone =>
    have hnot : ¬ n'.IsFor channel := fun h => hwatched (h.1 ▸ hnone)
    have hne : n ≠ n' := fun h => hnot (h ▸ hfor)
    refine ⟨hdue (by simpa [State.hand, hpc, hne] using hn), ?_⟩
    exact State.delay_work hpc rfl rfl rfl (by simp [State.hand, hpc, hnot]) (by simp [Pc.work])
  | @call n' _ _ hpc hop =>
    have hnot : ¬ n'.IsFor channel := fun h => hgoal (by simp [Act.callOn, h.1])
    have hne : n ≠ n' := fun h => hnot (h ▸ hfor)
    refine ⟨hdue (by simpa [State.hand, hpc, hne] using hn), ?_⟩
    exact State.delay_work hpc rfl rfl rfl (by simp [State.hand, hpc, hnot]) (by simp [Pc.work])
  | @warn n' _ hpc hop =>
    have hnot : ¬ n'.IsFor channel := fun h => h.2 hop
    have hne : n ≠ n' := fun h => hnot (h ▸ hfor)
    refine ⟨hdue (by simpa [State.hand, hpc, hne] using hn), ?_⟩
    exact State.delay_work hpc rfl rfl rfl (by simp [State.hand, hpc, hnot]) (by simp [Pc.work])
  | op | onChange | joinable | startFails | startRuns | queue | wake | returns | notConnected
  | disconnect | join | others => cases ha

theorem Due.inevitable (hs : Due F channel s) :
    ((listener H F).restrict fun s a => Regular s a ∧ a ≠ .poll .interrupted).Inevitable
      (·.isListener) (fun a => (a.callOn channel).isSome) s := by
  have hwf : WellFounded (Prod.Lex (· < ·) (· < ·) : ℕ × ℕ → ℕ × ℕ → Prop) := IsWellFounded.wf
  refine .of_rank hwf (State.delay · channel) (I := Due F channel) ?_ ?_ ?_ hs
  · exact fun s hs => hs.can
  · exact fun s a s' hs hst ha => hs.others hst.1 hst.2.1 ha
  · exact fun s a s' hs hst ha hgoal => hs.own hst.1 hst.2.1 hst.2.2 ha hgoal

/-- **Every change is notified of** in the runs whose steps are all regular: the handler that is
    registered for a table is called for each of its rows, once, and for nothing else. -/
theorem notified_of_regular (hr : ((listener H F).restrict Regular).Run tr₀ s₀)
    (hh : s₀.handlers (channelName table) = some handler)
    (hp : (((listener H F).restrict Regular).within
      fun s => s.handlers (channelName table) = some handler).Path s₀ tr s) :
    Notified F table handler s₀ tr s := by
  have hrun := hr.append hp.of_within
  have hwatched : s.handlers (channelName table) ≠ none :=
    ne_of_eq_of_ne (hp.within hh) (Option.some_ne_none _)
  have hident := spelled_of_watched (wired hrun) hwatched
  exact {
    once := by
      rw [hident]
      exact calls_append_due hr hh hp
    called := fun hdue =>
      Due.inevitable ⟨⟨_, hrun⟩, hwatched, State.exists_isFor hdue⟩
    notOthers := fun _ hquiet hrows => calls_of_quiet hr hp.of_within hquiet hrows }

/-! ## A table of accounts -/

/-- The handler of the accounts is registered, and the listener polls. -/
def registered : State Unit :=
  { triggered with
    caller := .idle
    handlers := Function.update (fun _ => none) (channelName "account") (some ())
    worker := .running .poll
    pendingListenDone := true
    listening := [ident (channelName "account")] }

theorem registers_account : connected.Registers "account" where
  spelled := by decide
  alone _ h := by cases h
  pending _ h := absurd h List.not_mem_nil
  whole _ := by
    refine DbPsql.commits_of_takes ⟨rfl, fun ⟨sps, h⟩ => by cases h⟩ (fun k hk => ?_)
      (fun _ h => by cases h) (by decide)
    obtain rfl | rfl | rfl : k = 0 ∨ k = 1 ∨ k = 2 := by omega
    all_goals exact ⟨rfl, (fun h => by cases h), rfl⟩

theorem run_registered : ∃ tr, ((listener Unit noFloats).restrict Regular).Run tr registered := by
  have hnothing (s : State Unit) : s.Distinct [] := ⟨(fun _ h => by cases h), fun _ _ => .nil⟩
  have hddl : connected.Distinct ((ddl "account").map Prod.snd) :=
    ⟨(fun _ _ h => by cases h), (fun _ h => by cases h)⟩
  have hfirst : ((listener Unit noFloats).restrict Regular).Run [.op (.connect .ok) true []]
      connected := by
    refine .step (.init ⟨registry accepting, [], [], rfl⟩) ⟨?_, (fun e h => by cases h), hnothing _⟩
    exact .op (s := { client := _, log := [] }) (o := .connect .ok) rfl rfl trivial rfl rfl
      (sends_nothing _)
  refine ⟨_, .step (.step (.step (.step (.step (.step (.step (.step (.step hfirst
    ⟨step_triggered, registers_account, hddl⟩)
    ⟨.startRuns rfl rfl, trivial⟩) ⟨.queue rfl, trivial⟩) ⟨.check rfl rfl, trivial⟩)
    ⟨.runPending rfl rfl, trivial⟩) ⟨.listen rfl, trivial⟩) ⟨.answer rfl, trivial⟩)
    ⟨.wake rfl rfl, trivial⟩) ⟨.returns rfl, trivial⟩⟩

theorem registered_handlers : registered.handlers (channelName "account") = some () := by
  dsimp only [registered]
  rw [Function.update_self]

/-- A row is inserted, and the handler is called. -/
theorem notified_of_regular_account : ∃ tr s, Notified noFloats "account" () registered tr s ∧
    chron (Act.callOn (channelName "account")) tr = [((), .insert)] := by
  obtain ⟨tr₀, hrun⟩ := run_registered
  have hdata : ∀ e ∈ [Change.row "account" .insert], e.isData := by simp [Change.isData]
  have hsends : registered.Sends [.row "account" .insert] [rowNotify "account" .insert] :=
    ⟨.refl _, fun n hn => hn⟩
  have hdistinct : registered.Distinct [.row "account" .insert] := by
    refine ⟨(fun n h => by cases h; contradiction), fun table _ => ?_⟩
    rw [rowsOf_cons]
    cases Change.rowOf table (.row "account" .insert) with
    | none => exact List.nodup_nil
    | some op => exact List.nodup_singleton op
  refine ⟨_, _, notified_of_regular hrun registered_handlers (.step (.step (.step (.step (.step
    (.step (.refl _) ⟨⟨.others hdata hsends, hdistinct⟩, registered_handlers⟩)
    ⟨⟨.ready rfl, trivial⟩, registered_handlers⟩)
    ⟨⟨.consume rfl, trivial⟩, registered_handlers⟩)
    ⟨⟨.pop rfl rfl, trivial⟩, registered_handlers⟩)
    ⟨⟨.lookUp rfl registered_handlers, trivial⟩, registered_handlers⟩)
    ⟨⟨.call rfl rfl, trivial⟩, registered_handlers⟩), rfl⟩

/-- Two rows inserted in one transaction are notified of once. -/
theorem not_notified :
    ¬ ∀ (F : FloatText) (tr₀ : List (Act Unit)) (s₀ : State Unit) (table : String) (handler : Unit)
      (tr : List (Act Unit)) (s : State Unit), (listener Unit F).Run tr₀ s₀ →
      s₀.handlers (channelName table) = some handler →
      ((listener Unit F).within fun s => s.handlers (channelName table) = some handler).Path
        s₀ tr s →
      Notified F table handler s₀ tr s := by
  intro h
  obtain ⟨tr₀, hrun⟩ := run_registered
  have hdata : ∀ e ∈ List.replicate 2 (Change.row "account" .insert), e.isData := by
    simp [Change.isData]
  have hsends : registered.Sends (List.replicate 2 (.row "account" .insert))
      [rowNotify "account" .insert] := by
    have hnotifies : (catalog registered.log).notifications
        (List.replicate 2 (.row "account" .insert)) =
          List.replicate 2 (rowNotify "account" .insert) := rfl
    refine ⟨?_, ?_⟩
    · rw [hnotifies]
      exact List.Sublist.cons _ (.refl _)
    · rw [hnotifies]
      exact fun n hn => List.mem_singleton.2 (List.eq_of_mem_replicate hn)
  have honce := (h noFloats tr₀ registered "account" () _ _ hrun.of_restrict registered_handlers
    (.step (.refl _) ⟨.others hdata hsends, registered_handlers⟩)).once
  cases congrArg List.length honce

end Dbgen4.Psql
