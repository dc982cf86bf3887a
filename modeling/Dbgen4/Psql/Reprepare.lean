import Dbgen4.Lifecycle

/-!
# Preparing again

A query keeps one name for its statement, and `prepare` does not free the statement that it
has prepared before: the server refuses the name, which in a transaction block aborts the
block, and the query still holds the layouts of the first time. So a caller that resizes a
buffer and prepares again, as `check_layout` tells it to, gets an error. Buffers are sized
and statements prepared without one exactly as long as there is only one `prepare`
(`setup_sound_iff`).
-/

namespace Dbgen4

open Rtl

/-- The calls that size the buffers and prepare. -/
def LifeCall.isSetup : LifeCall → Bool
  | .setParams _ | .setResults _ | .prepare => true
  | .execute | .fetch _ | .reset => false

namespace Psql

variable {F : FloatText} {selects : Bool} {s s' : QuerySession} {tr : List (LifeCall × Bool)}
  {l : LifeCall × Bool}

/-- A query that is sized and prepared, in any order. -/
def setup (F : FloatText) (selects : Bool) : Lts QuerySession (LifeCall × Bool) :=
  (session F selects).restrict fun _ l => l.1.isSetup

/-- How often the query has been prepared. -/
def prepares (tr : List (LifeCall × Bool)) : ℕ := tr.countP (·.1 = .prepare)

/-- An execute succeeds, and so does a fetch after it: neither is refused for its layout. -/
def QuerySession.Runs (F : FloatText) (selects : Bool) (s : QuerySession) : Prop :=
  ∀ pq, s.Answers selects pq → (s.query.execute F pq).1.isOk ∧
    (s.query.execute F pq).2.checkLayout = .ok () ∧
    ((s.query.execute F pq).2.rows.isSome → ((s.query.execute F pq).2.fetch F).1.isOk)

/-- No `prepare` was refused, and after one the statement runs. -/
structure SetupSound (F : FloatText) (selects : Bool) (tr : List (LifeCall × Bool))
    (s : QuerySession) : Prop where
  accepted : ∀ ok, (.prepare, ok) ∈ tr → ok = true
  runs : ∀ ok tr', tr = (.prepare, ok) :: tr' → s.Runs F selects

theorem prepares_cons_prepare (ok : Bool) (tr : List (LifeCall × Bool)) :
    prepares ((.prepare, ok) :: tr) = prepares tr + 1 := by
  rw [prepares, List.countP_cons_of_pos (by simp)]
  rfl

theorem prepares_cons (h : l.1 ≠ .prepare) (tr : List (LifeCall × Bool)) :
    prepares (l :: tr) = prepares tr := by
  rw [prepares, List.countP_cons_of_neg (by simpa using h)]
  rfl

/-- The statement has a name on the server from the first `prepare` on. -/
theorem named_iff (h : (setup F selects).Run tr s) : s.named ↔ 1 ≤ prepares tr := by
  induction h with
  | init hs =>
    obtain ⟨sql, stmtName, par, res, parRows, resRows, rfl⟩ := hs
    exact iff_of_false Bool.false_ne_true (Nat.not_succ_le_zero 0)
  | step _ hst ih =>
    obtain ⟨hst, hsetup⟩ := hst
    cases hst with
    | setParams rows hp =>
      rw [prepares_cons (by exact fun h => by cases h)]
      exact ih
    | setResults rows hr =>
      rw [prepares_cons (by exact fun h => by cases h)]
      exact ih
    | prepare pq ha =>
      rw [prepares_cons_prepare]
      refine iff_of_true ?_ (Nat.succ_le_succ (Nat.zero_le _))
      rw [Bool.or_eq_true, QuerySession.isOk_prepare ha]
      exact Bool.eq_false_or_eq_true _
    | execute | fetch | reset => cases hsetup

/-- A second `prepare` is refused. -/
theorem accepted_iff (h : (setup F selects).Run tr s) :
    (∀ ok, (LifeCall.prepare, ok) ∈ tr → ok = true) ↔ prepares tr ≤ 1 := by
  induction h with
  | init hs => exact iff_of_true (fun ok hmem => absurd hmem List.not_mem_nil) (Nat.zero_le 1)
  | @step tr s s' l hr hst ih =>
    have hnamed := named_iff hr
    obtain ⟨hst, hsetup⟩ := hst
    have hother (hl : l.1 ≠ .prepare) : (∀ ok, (LifeCall.prepare, ok) ∈ l :: tr → ok = true) ↔
        prepares (l :: tr) ≤ 1 := by
      rw [prepares_cons hl, ← ih]
      refine forall_congr' fun ok => imp_congr_left ⟨fun hmem => ?_, List.mem_cons_of_mem _⟩
      rcases List.mem_cons.1 hmem with rfl | hmem
      · exact absurd rfl hl
      · exact hmem
    cases hst with
    | setParams rows hp => exact hother fun h => by cases h
    | setResults rows hr => exact hother fun h => by cases h
    | prepare pq ha =>
      rw [prepares_cons_prepare, Nat.succ_le_succ_iff, Nat.le_zero]
      have hok := QuerySession.isOk_prepare ha
      constructor
      · intro hall
        have hfalse := hok.1 (hall _ List.mem_cons_self)
        rw [← Nat.lt_one_iff, ← Nat.not_le, ← hnamed, hfalse]
        exact Bool.false_ne_true
      · intro hzero ok hmem
        rcases List.mem_cons.1 hmem with hfirst | hmem
        · rw [Prod.mk.inj hfirst |>.2]
          refine hok.2 (Bool.eq_false_of_not_eq_true fun h => ?_)
          have := hnamed.1 h
          omega
        · exact ih.2 (by omega) ok hmem
    | execute | fetch | reset => cases hsetup

/-- Right after a first `prepare` the statement runs. -/
theorem runs_of_prepare {ok : Bool} (h : (setup F selects).Run ((.prepare, ok) :: tr) s)
    (hfirst : prepares tr = 0) : s.Runs F selects := by
  have hinv := QuerySession.inv h.of_restrict
  cases h with
  | @step _ s₀ _ _ hr hst =>
    have hnamed : s₀.named = false := by
      refine Bool.eq_false_of_not_eq_true fun hn => ?_
      have := (named_iff hr).1 hn
      omega
    obtain ⟨hst, -⟩ := hst
    cases hst with
    | prepare pq ha =>
      have hprep : (s₀.query.prepare pq).2.prepared := by rw [ha.prepare_eq hnamed]
      have hlayout : (s₀.query.prepare pq).2.checkLayout = .ok () := by
        rw [ha.prepare_eq hnamed, checkLayout_ok_iff]
        exact ⟨fun hp => (if_pos hp).symm, fun hr => (if_pos hr).symm⟩
      intro pq' ha'
      have hsame : SamePrepared (s₀.query.prepare pq).2 ((s₀.query.prepare pq).2.execute F pq').2 :=
        samePrepared_execute
      have hok : ((s₀.query.prepare pq).2.execute F pq').2.checkLayout = .ok () := by
        rw [checkLayout_ok_iff] at hlayout ⊢
        rw [hsame.hasP, hsame.hasR, hsame.parGeneration, hsame.resGeneration,
          hsame.boundParLayout, hsame.boundResLayout]
        exact hlayout
      exact ⟨(QuerySession.isOk_execute ha' hinv).2 ⟨hprep, hlayout⟩, hok,
        fun hrows => isOk_fetch.2 (.inr ⟨hok, hrows⟩)⟩

/-- **Sizing and preparing** goes well in a run exactly when it prepares at most once. -/
theorem setup_sound_iff (h : (setup F selects).Run tr s) :
    SetupSound F selects tr s ↔ prepares tr ≤ 1 := by
  refine ⟨fun hs => (accepted_iff h).1 hs.accepted, fun hle => ⟨(accepted_iff h).2 hle, ?_⟩⟩
  rintro ok tr' rfl
  rw [prepares_cons_prepare] at hle
  exact runs_of_prepare h (by omega)

/-- A new query of amounts. -/
def newQuery : QuerySession :=
  ⟨.make "select amount from t" "dbgen4_0" (.make [] 1) (.make [amount] 1), false⟩

theorem newQuery_init : newQuery ∈ (setup noFloats true).init :=
  ⟨_, _, [], [amount], 1, 1, rfl⟩

/-- Sized and then prepared, it runs. -/
theorem setup_sound_sized :
    ∃ s, SetupSound noFloats true [(.prepare, true), (.setResults 10, true)] s := by
  have h := Lts.Run.step (.init newQuery_init) ⟨.setResults _ 10 rfl, rfl⟩
  have h := h.step ⟨.prepare _ _ (answers_amountServer _), rfl⟩
  exact ⟨_, (setup_sound_iff h).2 (by decide)⟩

/-- Prepared, sized and prepared again, it does not: the name is in use. -/
theorem not_setup_sound :
    ¬∀ (F : FloatText) (selects : Bool) (tr : List (LifeCall × Bool)) (s : QuerySession),
      (setup F selects).Run tr s → SetupSound F selects tr s := by
  intro hall
  have h := Lts.Run.step (.init newQuery_init) ⟨.prepare _ _ (answers_amountServer _), rfl⟩
  have h := h.step ⟨.setResults _ 10 rfl, rfl⟩
  have h := h.step ⟨.prepare _ _ (answers_amountServer _), rfl⟩
  exact Bool.false_ne_true ((hall _ _ _ _ h).accepted _ List.mem_cons_self)

end Psql

end Dbgen4
