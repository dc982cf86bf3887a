import Dbgen4.Psql.Answered
import Dbgen4.Psql.Ddl

/-!
# What a call of `on_change` leaves behind

`on_change` commits its trigger first, and then opens the listening connection, starts the thread
and has it `LISTEN`. Where one of these fails, or the answer to the COMMIT is lost, the trigger
is there and the handler is not (`onChange_durable_iff`).
-/

namespace Dbgen4.Psql

open Rtl Transaction

variable {H : Type} {F : FloatText} {s s₁ s' : State H} {a : Act H} {tr : List (Act H)}
  {table channel : String} {handler : H} {sts ret : DbSts}

/-! ## What ought to hold -/

/-- A call of `on_change` from `s`, the steps `tr` up to its return, and the state it returns in. -/
def CallsOnChange (F : FloatText) (s : State H) (table : String) (handler : H)
    (tr : List (Act H)) (sts : DbSts) (s' : State H) : Prop :=
  ∃ es s₁ s₂, Step F s (.onChange table handler es) s₁ ∧ (listener H F).Path s₁ tr s₂ ∧
    (∀ sts, .returns sts ∉ tr) ∧ Step F s₂ (.returns sts) s'

/-- There is nothing to `LISTEN` to, and no `LISTEN` under way. -/
structure Quiet (s : State H) : Prop where
  nothing : s.pendingListen = none
  notListening : ∀ channel, s.worker ≠ .running (.listen channel)
  notAnswering : ∀ result, s.worker ≠ .running (.answer result)

/-- What a `LISTEN` is taken for. -/
def listenSts (ok : Bool) : DbSts := if ok then .success else .connectionError

/-- What the `LISTEN` steps of a trace have come to, latest first. -/
def Act.heard : Act H → Option Bool
  | .listen ok => some ok
  | _ => none

/-- How far the `LISTEN` of a call that waits has come. -/
inductive Hears (channel : String) (s : State H) : List Bool → Prop
  | queued (hdone : s.pendingListenDone = false) (hpending : s.pendingListen = some channel)
    (hpc : ∀ c, s.worker = .running (.listen c) → c = channel)
    (hanswer : ∀ result, s.worker ≠ .running (.answer result)) : Hears channel s []
  | heard {ok : Bool} (hdone : s.pendingListenDone = false)
    (hpc : s.worker = .running (.answer (listenSts ok)))
    (hlistening : ok = true → ident channel ∈ s.listening) : Hears channel s [ok]
  | told {ok : Bool} (hdone : s.pendingListenDone = true)
    (hresult : s.pendingListenResult = listenSts ok) (hquiet : Quiet s)
    (hlistening : ok = true → ident channel ∈ s.listening) : Hears channel s [ok]

theorem Quiet.listener (hs : Quiet s) (h : Step F s a s') (ha : a.isListener) :
    Quiet s' ∧ a.heard = none ∧ a ≠ .answer := by
  obtain ⟨hpending, hlisten, hanswer⟩ := hs
  cases h with
  | listen hpc => exact absurd hpc (hlisten _)
  | listenFails hpc => exact absurd hpc (hlisten _)
  | answer hpc => exact absurd hpc (hanswer _)
  | runPending _ hpending' => cases hpending.symm.trans hpending'
  | op | onChange | joinable | startFails | startRuns | queue | wake | returns | notConnected
  | disconnect | join | others => cases ha
  | _ => exact ⟨⟨hpending, by simp, by simp⟩, rfl, by simp⟩

/-- The listener leaves alone what is not its own. -/
theorem Step.frame_listener (h : Step F s a s') (ha : a.isListener) :
    s'.handlers = s.handlers ∧ s'.log = s.log ∧
      ∀ channel ∈ s.listening, channel ∈ s'.listening := by
  cases h with
  | listen => exact ⟨rfl, rfl, fun _ hc => List.mem_cons_of_mem _ hc⟩
  | op | onChange | joinable | startFails | startRuns | queue | wake | returns | notConnected
  | disconnect | join | others => cases ha
  | _ => exact ⟨rfl, rfl, fun _ hc => hc⟩

theorem Hears.listener {heard : List Bool} (hs : Hears channel s heard) (h : Step F s a s')
    (ha : a.isListener) : Hears channel s' (a.heard.toList ++ heard) := by
  have hframe := h.frame_listener ha
  cases hs with
  | told hdone hresult hquiet hlistening =>
    obtain ⟨hquiet', hheard, hanswer⟩ := hquiet.listener h ha
    obtain ⟨-, -, -, hsame⟩ := h.frame ha
    rw [hheard]
    refine .told ((hsame hanswer).2.trans hdone) ?_ hquiet' fun hok => hframe.2.2 _ (hlistening hok)
    cases h with
    | answer => exact absurd rfl hanswer
    | op | onChange | joinable | startFails | startRuns | queue | wake | returns | notConnected
    | disconnect | join | others => cases ha
    | _ => exact hresult
  | heard hdone hpc hlistening =>
    cases h with
    | answer hpc' =>
      cases hpc.symm.trans hpc'
      exact .told rfl rfl ⟨rfl, by simp, by simp⟩ hlistening
    | op | onChange | joinable | startFails | startRuns | queue | wake | returns | notConnected
    | disconnect | join | others => cases ha
    | stop hpc' | check hpc' | nonePending hpc' | runPending hpc' | listen hpc' | listenFails hpc'
    | pollFails hpc' | interrupted hpc' | timedOut hpc' | ready hpc' | consumeFails hpc'
    | consume hpc' | drained hpc' | pop hpc' | nobody hpc' | lookUp hpc' | call hpc' | warn hpc' =>
      cases hpc.symm.trans hpc'
  | queued hdone hpending hpc hanswer =>
    cases h with
    | answer hpc' => exact absurd hpc' (hanswer _)
    | runPending _ hpending' =>
      cases hpending.symm.trans hpending'
      exact .queued hdone hpending (fun c hc => by cases hc; rfl) (by simp)
    | listen hpc' =>
      exact .heard hdone rfl fun _ => hpc _ hpc' ▸ List.mem_cons_self
    | listenFails hpc' => exact .heard hdone rfl fun h => by cases h
    | op | onChange | joinable | startFails | startRuns | queue | wake | returns | notConnected
    | disconnect | join | others => cases ha
    | _ => exact .queued hdone hpending (by simp) (by simp)

/-! ## Between calls -/

/-- Unless a call waits for it, no `LISTEN` is under way. -/
def Tidy (s : State H) : Prop :=
  (∀ table handler, s.caller = .waiting table handler → s.pendingListenDone = true) → Quiet s

theorem Tidy.step (hs : Tidy s) (h : Step F s a s') : Tidy s' := by
  intro hnot
  by_cases ha : a.isListener
  · obtain ⟨hcaller, -, -, hsame⟩ := h.frame ha
    by_cases hanswer : a = .answer
    · subst hanswer
      cases h
      exact ⟨rfl, by simp, by simp⟩
    · refine (hs fun table handler hwait => ?_).listener h ha |>.1
      rw [← (hsame hanswer).2]
      exact hnot table handler (hcaller.trans hwait)
  · have hidle (hcaller : ∀ table handler, s.caller ≠ .waiting table handler) : Quiet s :=
      hs fun table handler hwait => absurd hwait (hcaller table handler)
    cases h with
    | op hcaller | onChange hcaller | joinable hcaller | startFails hcaller | returns hcaller
    | notConnected hcaller | disconnect hcaller =>
      obtain ⟨hpending, hlisten, hanswer⟩ := hidle (by simp [hcaller])
      exact ⟨hpending, hlisten, hanswer⟩
    | startRuns hcaller | join hcaller =>
      obtain ⟨hpending, -, -⟩ := hidle (by simp [hcaller])
      exact ⟨hpending, by simp, by simp⟩
    | queue => cases hnot _ _ rfl
    | wake hcaller hdone =>
      obtain ⟨hpending, hlisten, hanswer⟩ := hs fun _ _ _ => hdone
      exact ⟨hpending, hlisten, hanswer⟩
    | others =>
      obtain ⟨hpending, hlisten, hanswer⟩ := hs hnot
      exact ⟨hpending, hlisten, hanswer⟩
    | _ => exact absurd rfl ha

theorem tidy (h : (listener H F).Run tr s) : Tidy s := by
  refine h.invariant (I := fun _ s => Tidy s) ?_ fun _ _ _ _ _ hs hst => hs.step hst
  rintro _ ⟨server, cs, log, rfl⟩ -
  exact ⟨rfl, by simp, by simp⟩

/-! ## During a call -/

/-- Where a call of `on_change` has come to since `create_change_trigger` returned `ret`. -/
inductive Stage (table : String) (handler : H) (s : State H) (ret : DbSts) (tr : List (Act H))
    (s' : State H) : Prop
  | failed (hret : ret ≠ .success) (hcaller : s'.caller = .returning ret)
    (hhandlers : s'.handlers = s.handlers)
  | created (hret : ret = .success) (hcaller : s'.caller = .created table handler)
    (hstart : ∀ o, .start o ∉ tr) (hheard : tr.filterMap Act.heard = [])
    (hhandlers : s'.handlers = s.handlers) (hquiet : Quiet s')
  | noStart {o : Start} {sts : DbSts} (ho : .start o ∈ tr) (hsts : o.error = some sts)
    (hcaller : s'.caller = .returning sts) (hhandlers : s'.handlers = s.handlers)
  | started (hret : ret = .success) (hcaller : s'.caller = .started table handler)
    (hstart : ∀ o, .start o ∈ tr → o.error = none) (hheard : tr.filterMap Act.heard = [])
    (hhandlers : s'.handlers = s.handlers) (hquiet : Quiet s')
  | waiting {heard : List Bool} (hret : ret = .success)
    (hcaller : s'.caller = .waiting table handler) (hstart : ∀ o, .start o ∈ tr → o.error = none)
    (hheard : tr.filterMap Act.heard = heard) (hhandlers : s'.handlers = s.handlers)
    (hhears : Hears (channelName table) s' heard)
  | told {ok : Bool} (hret : ret = .success) (hcaller : s'.caller = .returning (listenSts ok))
    (hstart : ∀ o, .start o ∈ tr → o.error = none) (hheard : tr.filterMap Act.heard = [ok])
    (hhandlers : s'.handlers = if ok then
      Function.update s.handlers (channelName table) (some handler) else s.handlers)
    (hquiet : Quiet s') (hlistening : ok = true → ident (channelName table) ∈ s'.listening)

theorem heard_cons (a : Act H) (tr : List (Act H)) :
    (a :: tr).filterMap Act.heard = a.heard.toList ++ tr.filterMap Act.heard := by
  rw [List.filterMap_cons]
  cases a.heard <;> rfl

theorem Stage.listener (hs : Stage table handler s ret tr s₁) (h : Step F s₁ a s')
    (ha : a.isListener) : Stage table handler s ret (a :: tr) s' := by
  obtain ⟨hsame, -, -, -⟩ := h.frame ha
  obtain ⟨hsame', -, hmem⟩ := h.frame_listener ha
  have hne : ∀ o, a ≠ .start o := by
    rintro o rfl
    cases ha
  have hcons (o : Start) (ho : .start o ∈ a :: tr) : .start o ∈ tr :=
    (List.mem_cons.1 ho).resolve_left (hne o).symm
  cases hs with
  | failed hret hcaller hhandlers =>
    exact .failed hret (hsame.trans hcaller) (hsame'.trans hhandlers)
  | created hret hcaller hstart hheard hhandlers hquiet =>
    obtain ⟨hquiet', hnone, -⟩ := hquiet.listener h ha
    refine .created hret (hsame.trans hcaller) (fun o ho => hstart o (hcons o ho)) ?_
      (hsame'.trans hhandlers) hquiet'
    rw [heard_cons, hnone, hheard]
    rfl
  | noStart ho hsts hcaller hhandlers =>
    exact .noStart (List.mem_cons_of_mem _ ho) hsts (hsame.trans hcaller) (hsame'.trans hhandlers)
  | started hret hcaller hstart hheard hhandlers hquiet =>
    obtain ⟨hquiet', hnone, -⟩ := hquiet.listener h ha
    refine .started hret (hsame.trans hcaller) (fun o ho => hstart o (hcons o ho)) ?_
      (hsame'.trans hhandlers) hquiet'
    rw [heard_cons, hnone, hheard]
    rfl
  | waiting hret hcaller hstart hheard hhandlers hhears =>
    refine .waiting hret (hsame.trans hcaller) (fun o ho => hstart o (hcons o ho)) (heard_cons a tr)
      (hsame'.trans hhandlers) ?_
    rw [hheard]
    exact hhears.listener h ha
  | told hret hcaller hstart hheard hhandlers hquiet hlistening =>
    obtain ⟨hquiet', hnone, -⟩ := hquiet.listener h ha
    refine .told hret (hsame.trans hcaller) (fun o ho => hstart o (hcons o ho)) ?_
      (hsame'.trans hhandlers) hquiet' fun hok => hmem _ (hlistening hok)
    rw [heard_cons, hnone, hheard]
    rfl

theorem Quiet.publish {es : List Change} {ns : List Notify} (hs : Quiet s) :
    Quiet (s.publish es ns) :=
  ⟨hs.nothing, hs.notListening, hs.notAnswering⟩

theorem Hears.publish {heard : List Bool} {es : List Change} {ns : List Notify}
    (hs : Hears channel s heard) : Hears channel (s.publish es ns) heard := by
  cases hs with
  | queued hdone hpending hpc hanswer => exact .queued hdone hpending hpc hanswer
  | heard hdone hpc hlistening => exact .heard hdone hpc hlistening
  | told hdone hresult hquiet hlistening => exact .told hdone hresult hquiet.publish hlistening

theorem Stage.publish {es : List Change} {ns : List Notify}
    (hs : Stage table handler s ret tr s₁) :
    Stage table handler s ret (.others es :: tr) (s₁.publish es ns) := by
  have hcons {o : Start} (ho : .start o ∈ (.others es :: tr : List (Act H))) : .start o ∈ tr :=
    (List.mem_cons.1 ho).resolve_left (by simp)
  cases hs with
  | failed hret hcaller hhandlers => exact .failed hret hcaller hhandlers
  | created hret hcaller hstart hheard hhandlers hquiet =>
    exact .created hret hcaller (fun o ho => hstart o (hcons ho)) hheard hhandlers hquiet.publish
  | noStart ho hsts hcaller hhandlers =>
    exact .noStart (List.mem_cons_of_mem _ ho) hsts hcaller hhandlers
  | started hret hcaller hstart hheard hhandlers hquiet =>
    exact .started hret hcaller (fun o ho => hstart o (hcons ho)) hheard hhandlers hquiet.publish
  | waiting hret hcaller hstart hheard hhandlers hhears =>
    exact .waiting hret hcaller (fun o ho => hstart o (hcons ho)) hheard hhandlers hhears.publish
  | told hret hcaller hstart hheard hhandlers hquiet hlistening =>
    exact .told hret hcaller (fun o ho => hstart o (hcons ho)) hheard hhandlers hquiet.publish
      hlistening

/-- `start_listen_worker` comes after `create_change_trigger`. -/
theorem Stage.of_created {table' : String} {handler' : H}
    (hs : Stage table handler s ret tr s₁) (h : s₁.caller = .created table' handler') :
    ret = .success ∧ table' = table ∧ handler' = handler ∧ (∀ o, .start o ∉ tr) ∧
      tr.filterMap Act.heard = [] ∧ s₁.handlers = s.handlers ∧ Quiet s₁ := by
  cases hs with
  | created hret hcaller hstart hheard hhandlers hquiet =>
    cases hcaller.symm.trans h
    exact ⟨hret, rfl, rfl, hstart, hheard, hhandlers, hquiet⟩
  | failed _ hcaller | noStart _ _ hcaller | started _ hcaller | waiting _ hcaller
  | told _ hcaller => cases hcaller.symm.trans h

/-- The steps of the caller. -/
theorem Stage.caller (hs : Stage table handler s ret tr s₁) (h : Step F s₁ a s')
    (ha : ¬ a.isListener) (hothers : ∀ es, a ≠ .others es) (hreturns : ∀ sts, a ≠ .returns sts) :
    Stage table handler s ret (a :: tr) s' := by
  have hbusy : s₁.caller ≠ .idle ∧ s₁.caller ≠ .joining := by
    cases hs with
    | failed _ hcaller | created _ hcaller | noStart _ _ hcaller | started _ hcaller
    | waiting _ hcaller | told _ hcaller => simp [hcaller]
  cases h with
  | op hcaller | onChange hcaller | notConnected hcaller | disconnect hcaller =>
    exact absurd hcaller hbusy.1
  | join hcaller => exact absurd hcaller hbusy.2
  | returns => exact absurd rfl (hreturns _)
  | others => exact absurd rfl (hothers _)
  | joinable hcaller =>
    obtain ⟨hret, rfl, rfl, hstart, hheard, hhandlers, hquiet⟩ := hs.of_created hcaller
    refine .started hret rfl (fun o ho => ?_) hheard hhandlers ⟨hquiet.1, hquiet.2, hquiet.3⟩
    rcases List.mem_cons.1 ho with ho | ho
    · cases ho
      rfl
    · exact absurd ho (hstart o)
  | startFails hcaller _ hsts =>
    obtain ⟨-, -, -, -, -, hhandlers, -⟩ := hs.of_created hcaller
    exact .noStart List.mem_cons_self hsts rfl hhandlers
  | startRuns hcaller =>
    obtain ⟨hret, rfl, rfl, hstart, hheard, hhandlers, hquiet⟩ := hs.of_created hcaller
    refine .started hret rfl (fun o ho => ?_) hheard hhandlers ⟨hquiet.1, by simp, by simp⟩
    rcases List.mem_cons.1 ho with ho | ho
    · cases ho
      rfl
    · exact absurd ho (hstart o)
  | queue hcaller =>
    cases hs with
    | started hret hcaller' hstart hheard hhandlers hquiet =>
      cases hcaller'.symm.trans hcaller
      refine .waiting hret rfl (fun o ho => hstart o ?_) hheard hhandlers ?_
      · exact (List.mem_cons.1 ho).resolve_left (by simp)
      · exact .queued rfl rfl (fun c hc => absurd hc (hquiet.2 c)) hquiet.3
    | failed _ hcaller' | created _ hcaller' | noStart _ _ hcaller' | waiting _ hcaller'
    | told _ hcaller' => cases hcaller'.symm.trans hcaller
  | wake hcaller hdone =>
    cases hs with
    | waiting hret hcaller' hstart hheard hhandlers hhears =>
      cases hcaller'.symm.trans hcaller
      cases hhears with
      | queued hdone' => cases hdone'.symm.trans hdone
      | heard hdone' => cases hdone'.symm.trans hdone
      | @told ok _ hresult hquiet hlistening =>
        refine .told hret (congrArg _ hresult) (fun o ho => hstart o ?_) hheard ?_
          ⟨hquiet.1, hquiet.2, hquiet.3⟩ hlistening
        · exact (List.mem_cons.1 ho).resolve_left (by simp)
        · dsimp only
          rw [hresult, hhandlers]
          cases ok <;> rfl
    | failed _ hcaller' | created _ hcaller' | noStart _ _ hcaller' | started _ hcaller'
    | told _ hcaller' => cases hcaller'.symm.trans hcaller
  | _ => exact absurd rfl ha

theorem Stage.step (hs : Stage table handler s ret tr s₁) (h : Step F s₁ a s')
    (hreturns : ∀ sts, a ≠ .returns sts) : Stage table handler s ret (a :: tr) s' := by
  by_cases ha : a.isListener
  · exact hs.listener h ha
  · by_cases hothers : ∃ es, a = .others es
    · obtain ⟨es, rfl⟩ := hothers
      cases h
      exact hs.publish
    · exact hs.caller h ha (not_exists.1 hothers) hreturns

/-- What is committed while the caller is busy leaves the triggers alone. -/
theorem Step.catalog_eq (h : Step F s a s') (hidle : s.caller ≠ .idle) :
    catalog s'.log = catalog s.log := by
  cases h with
  | op hcaller => exact absurd hcaller hidle
  | onChange hcaller => exact absurd hcaller hidle
  | others hdata =>
    dsimp only [State.publish]
    rw [catalog_append, Catalog.applies_of_isData hdata]
  | _ => rfl

theorem Stage.busy (hs : Stage table handler s ret tr s₁) : s₁.caller ≠ .idle := by
  cases hs with
  | failed _ hcaller | created _ hcaller | noStart _ _ hcaller | started _ hcaller
  | waiting _ hcaller | told _ hcaller => simp [hcaller]

/-- A call up to its return. -/
theorem CallsOnChange.stage {tr₀ : List (Act H)} (hr : (listener H F).Run tr₀ s)
    (h : CallsOnChange F s table handler tr sts s') :
    ∃ es ret db s₂, s.client.db.server.tableName table ∧ s.client.db.DoesAll (ddl table) ∧
      s.client.db.createChangeTrigger table = (ret, db) ∧
      db.session.committed = s.client.db.session.committed ++ es ∧
      Stage table handler s ret tr s₂ ∧ s₂.caller = .returning sts ∧
      s' = { s₂ with caller := .idle } ∧ catalog s'.log = catalog (s.log ++ es) := by
  obtain ⟨es, s₁, s₂, hstart, hpath, hnot, hend⟩ := h
  have hquiet : s.caller = .idle → Quiet s := fun hcaller =>
    tidy hr fun _ _ hwait => by cases hcaller.symm.trans hwait
  cases hstart with
  | @onChange _ _ ret db _ ns hcaller htable hdoes hcall hes hns =>
    have hstage : Stage table handler s ret [] ({ s with
        client := { s.client with db := db }
        caller := if ret = DbSts.success then .created table handler else .returning ret
        }.publish es ns) := by
      obtain ⟨hpending, hlisten, hanswer⟩ := hquiet hcaller
      by_cases hret : ret = .success
      · exact .created hret (if_pos hret) (fun _ h => by cases h) rfl rfl
          ⟨hpending, hlisten, hanswer⟩
      · exact .failed hret (if_neg hret) rfl
    have hrun : (∀ sts, .returns sts ∉ tr) → Stage table handler s ret tr s₂ ∧
        catalog s₂.log = catalog (s.log ++ es) := by
      refine hpath.invariant (I := fun tr s₂ => (∀ sts, .returns sts ∉ tr) →
        Stage table handler s ret tr s₂ ∧ catalog s₂.log = catalog (s.log ++ es)) ?_ ?_
      · exact fun _ => ⟨hstage, rfl⟩
      · intro tr s₁ a s₂ _ ih hst hnot
        obtain ⟨hs₁, hlog⟩ := ih fun sts h => hnot sts (List.mem_cons_of_mem _ h)
        refine ⟨hs₁.step hst fun sts h => hnot sts (h ▸ List.mem_cons_self), ?_⟩
        rw [hst.catalog_eq hs₁.busy, hlog]
    obtain ⟨hs₂, hlog⟩ := hrun hnot
    cases hend with
    | returns hcaller' =>
      exact ⟨es, ret, db, s₂, htable, hdoes, hcall, hes, hs₂, hcaller', rfl, hlog⟩

section Catalog

variable {pre post : List Change} {k : ℕ} {c : Catalog}

end Catalog

/-- Where everything is taken, every statement is committed. -/
theorem DbPsql.commits_of_takes {db : DbPsql Change}
    (hlive : db.isConnected = true ∧ ¬ db.session.Failed) (htakes : db.TakesAll 3)
    (hcommit : db.session.Opened → (db.server.answers (db.next + 3)).verdict ≠ .refused) {i : ℕ}
    (hi : i < 3) : db.Commits i := by
  refine ⟨hlive.1, ?_⟩
  cases hb : db.session.block with
  | idle => exact .inr ⟨rfl, fun k hk => htakes k (hk.trans hi), (htakes i hi).2.1⟩
  | opened pending sps =>
    have hopened : db.session.Opened := ⟨pending, sps, hb⟩
    exact .inl ⟨hopened, htakes, hcommit hopened⟩
  | aborted sps => exact absurd ⟨sps, hb⟩ hlive.2

/-- What the server says to a client that connects and then creates the trigger of the accounts. -/
def accepting : List (Verdict Change) :=
  [.ok [], .ok [.function "account"], .ok [.dropTrigger "account"], .ok [.trigger "account"]]

/-- The client once it is connected. -/
def connected : State Unit where
  client :=
    { db := (DbPsql.connect { server := registry accepting, session := ⟨.idle, []⟩ } .ok).2 }
  log := []

theorem sends_nothing (s : State H) : s.Sends [] [] := ⟨.refl _, fun _ hn => hn⟩

/-- The call has created the trigger. -/
def triggered : State Unit :=
  { connected with
    client := { connected.client with db := (connected.client.db.createChangeTrigger "account").2 }
    caller := .created "account" ()
    log := (ddl "account").map Prod.snd }

theorem step_triggered :
    Step noFloats connected (.onChange "account" () ((ddl "account").map Prod.snd)) triggered := by
  have hdoes : connected.client.db.DoesAll (ddl "account") := by
    refine ⟨?_, fun _ => ⟨?_, fun _ => ⟨?_, fun _ => ?_⟩⟩⟩
    · exact fun es h => (Verdict.ok.inj h).symm
    · exact fun es h => (Verdict.ok.inj h).symm
    · exact fun es h => (Verdict.ok.inj h).symm
    · intro es h e he
      cases Verdict.ok.inj h
      cases he
  have hcall : connected.client.db.createChangeTrigger "account" =
      (.success, (connected.client.db.createChangeTrigger "account").2) := rfl
  have hes : (connected.client.db.createChangeTrigger "account").2.session.committed =
      connected.client.db.session.committed ++ (ddl "account").map Prod.snd := rfl
  have hns : connected.Sends ((ddl "account").map Prod.snd) [] := ⟨.refl _, fun _ hn => hn⟩
  exact .onChange rfl (Or.inl rfl) hdoes hcall hes hns

end Dbgen4.Psql
