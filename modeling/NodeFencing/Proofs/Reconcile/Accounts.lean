/-
The accounts of the metrics.

In a round the metrics are told how the pass ended.  The pass itself tells them of the agent
only, and of each run of it at once: while it goes on, what is told and what was run differ by
the run that it made last, and at its end by none.

`Accounts` is what the metrics have to show after some rounds; `Accounts.round` is the step
for one more of them, and `metrics_account` goes through all rounds from a health that
begins.
-/
import NodeFencing.Proofs.Pass.Onward
import NodeFencing.Proofs.Reconcile.Rounds

namespace NodeFencing

/-! ### Runs of the agent and what is told of them -/

/-- The run of the agent that was made last and is not told yet, if it ended so. -/
def owed (o : ExecutionOutcome) (log : List Exchange) : Nat :=
  if log.getLast?.any (Exchange.runsTo o) = true then 1 else 0

theorem owed_concat (o : ExecutionOutcome) (log : List Exchange) (x : Exchange) :
    owed o (log ++ [x]) = if Exchange.runsTo o x = true then 1 else 0 := by
  simp [owed]

theorem owed_eq_zero {o : ExecutionOutcome} {log : List Exchange}
    (h : ∀ past pod command a, log ≠ past ++ [⟨.execute pod command, a⟩]) : owed o log = 0 := by
  rcases List.eq_nil_or_concat log with rfl | ⟨past, ⟨c, a⟩, rfl⟩
  · rfl
  · rw [List.concat_eq_append, owed_concat]
    cases c with
    | execute pod command => exact absurd (List.concat_eq_append) (h past pod command a)
    | _ => rfl

/-- Runs of the agent, by how they ended. -/
theorem countP_isExecution (log : List Exchange) :
    log.countP (fun x => x.1.isExecution) =
      log.countP (Exchange.runsTo .success) + log.countP (Exchange.runsTo .failure) +
        log.countP (Exchange.runsTo .unexpectedResponse) := by
  induction log with
  | nil => rfl
  | cons x log ih =>
      simp only [List.countP_cons, ih]
      obtain ⟨c, a⟩ := x
      cases c with
      | execute pod command =>
          cases hrun : ExecutionOutcome.ofAnswer a <;>
            simp [Call.isExecution, Exchange.runsTo, hrun] <;> omega
      | _ => rfl

namespace Pass

/-- While a pass goes on, the metrics are told of the runs of the agent but for the last one. -/
theorem countP_observes_execution {p : Program (Except Error Report)} {before log : List Exchange}
    {result : Except Error Report} (o : ExecutionOutcome) (h : p.Every Onward before)
    (hp : ∀ past pod command a, before = past ++ [⟨.execute pod command, a⟩] →
      ∃ rest, p = .call (.observe (.execution (.ofAnswer a))) rest)
    (hlog : p.Reaches log (.done result)) :
    log.countP (Exchange.observes (.execution o)) =
      log.countP (Exchange.runsTo o) + owed o before := by
  induction p generalizing before log with
  | done b =>
      cases hlog
      rw [owed_eq_zero]
      · rfl
      · intro past pod command a heq
        obtain ⟨rest, hcall⟩ := hp past pod command a heq
        cases hcall
  | call c next ih =>
      obtain ⟨a, rest, rfl, hrest⟩ := hlog.exists_answer
      obtain ⟨honward, hnext⟩ := h
      have hpaid : (∀ seen, c ≠ .observe seen) → owed o before = 0 := by
        intro hc
        refine owed_eq_zero fun past pod command a heq => ?_
        obtain ⟨rest, hcall⟩ := hp past pod command a heq
        exact hc _ (Program.call.inj hcall).1
      have hnow : (∀ pod command, c ≠ .execute pod command) →
          rest.countP (Exchange.observes (.execution o)) =
            rest.countP (Exchange.runsTo o) + owed o (before ++ [⟨c, a⟩]) := by
        intro hc
        refine ih a (hnext a) ?_ hrest
        intro past pod command a' heq
        have hlast := (List.append_inj' heq rfl).2
        exact absurd (congrArg Sigma.fst (List.cons.inj hlast).1) (hc pod command)
      rw [List.countP_cons, List.countP_cons]
      cases c with
      | execute pod command =>
          have hnext := ih a (hnext a) (fun past pod' command' a' heq => by
            cases (List.append_inj' heq rfl).2
            exact honward.1 a) hrest
          rw [hnext, owed_concat, hpaid (by simp)]
          simp [Exchange.observes]
      | observe seen =>
          obtain ⟨past, pod, command, a', rfl, rfl⟩ := honward
          rw [hnow (by simp), owed_concat, owed_concat]
          simp [Exchange.observes, Exchange.runsTo]
      | _ =>
          rw [hnow (by simp), owed_concat, hpaid (by simp)]
          simp [Exchange.observes, Exchange.runsTo]

variable {s : Settings} {inNamespace name : String} {log : List Exchange}

/-- A pass tells the metrics of nothing but runs of the agent. -/
theorem countP_observes_eq_zero {q : Program (Except Error Report)} {seen : Observation}
    (h : (pass s inNamespace name).Reaches log q) (hseen : ∀ o, seen ≠ .execution o) :
    log.countP (Exchange.observes seen) = 0 := by
  rw [List.countP_eq_zero]
  rintro ⟨c, a⟩ hx htells
  obtain ⟨before, after, rfl⟩ := List.append_of_mem hx
  obtain ⟨next, hcall, -⟩ := h.at_exchange
  obtain ⟨honward, -⟩ := (every_pass s inNamespace name).of_reaches hcall
  cases c with
  | observe seen' =>
      obtain ⟨_, _, _, _, _, rfl⟩ := honward
      exact hseen _ (beq_iff_eq.mp htells).symm
  | _ => cases htells

end Pass

namespace Reconcile

/-! ### The accounts -/

/-- Whether a round was over a request of the name and ended so. -/
def Round.isOf (inNamespace name : String) (well : Bool) (x : Round) : Bool :=
  x.request.key == (inNamespace, name) && x.result.isOk == well

/-- A round ended well or not, as the metrics are told. -/
theorem Round.isOf_iff (x : Round) (inNamespace name : String) :
    (x.isOf inNamespace name true = true ↔
        verdict x.request x.result = .reconciled inNamespace name) ∧
      (x.isOf inNamespace name false = true ↔
        verdict x.request x.result = .failed inNamespace name) := by
  obtain ⟨request, result, finished, log⟩ := x
  cases result <;> simp [isOf, verdict, Except.isOk, Except.toBool, Remediation.key]

theorem Round.countP_isOf (rounds : List Round) (inNamespace name : String) :
    rounds.countP (isOf inNamespace name true) + rounds.countP (isOf inNamespace name false) =
      rounds.countP fun x => x.request.key == (inNamespace, name) := by
  rw [List.countP_eq_countP_filter_add rounds (fun x => x.request.key == (inNamespace, name))
    (·.result.isOk), List.countP_filter, List.countP_filter]
  have hwell : isOf inNamespace name true = fun x =>
      x.request.key == (inNamespace, name) && x.result.isOk := by
    funext x
    simp [isOf]
  have hill : isOf inNamespace name false = fun x =>
      x.request.key == (inNamespace, name) && !x.result.isOk := by
    funext x
    simp [isOf]
  rw [hwell, hill]

/-- What the metrics have to show after some rounds. -/
structure Accounts (rounds : List Round) (h : Health) : Prop where
  reconciled : ∀ ns n, h.metrics.tally (.reconciled ns n) = rounds.countP (Round.isOf ns n true)
  failed : ∀ ns n, h.metrics.tally (.failed ns n) = rounds.countP (Round.isOf ns n false)
  timed : ∀ ns n, h.timed ns n = h.metrics.tally (.reconciled ns n)
  executed : ∀ o,
    h.metrics.tally (.execution o) = (rounds.flatMap Round.log).countP (Exchange.runsTo o)
  last : h.lastReconcile = (rounds.filter (·.result.isOk)).getLast?.map Round.finished

/-- A health that begins has nothing to show. -/
theorem accounts_nil (ready : Bool) : Accounts [] { ready := ready } where
  reconciled _ _ := rfl
  failed _ _ := rfl
  timed _ _ := rfl
  executed _ := rfl
  last := rfl

section

variable {σ : Type} (others : Others σ) (s : Settings) (r : Remediation) (state : σ)

/-- What is observed in a round is what is observed in the pass, and how it ended. -/
theorem countP_observes_round (h : Option Health) (seen : Observation) :
    let x := round others s r (h, state)
    x.log.countP (Exchange.observes seen) =
      ((Pass.pass s r.namespaceName r.anyName).conversation others.serve state).countP
        (Exchange.observes seen) + if verdict r x.result = seen then 1 else 0 := by
  intro x
  rw [log_round, List.countP_append, List.countP_singleton]
  simp only [Exchange.observes, beq_iff_eq]
  rfl

/-- A round is told of by how it ended. -/
theorem countP_observes_verdict (h : Option Health) (inNamespace name : String) :
    let x := round others s r (h, state)
    x.log.countP (Exchange.observes (.reconciled inNamespace name)) =
        (if x.isOf inNamespace name true = true then 1 else 0) ∧
      x.log.countP (Exchange.observes (.failed inNamespace name)) =
        (if x.isOf inNamespace name false = true then 1 else 0) := by
  intro x
  have hpass := Program.reaches_conversation others.serve
    (Pass.pass s r.namespaceName r.anyName) state
  have hrequest : x.request = r := rfl
  rw [countP_observes_round, countP_observes_round,
    Pass.countP_observes_eq_zero hpass (by simp), Pass.countP_observes_eq_zero hpass (by simp)]
  simp only [x.isOf_iff, hrequest, Nat.zero_add, x, and_self]

/-- Each run of the agent in a round is told of once. -/
theorem countP_observes_runs (h : Option Health) (o : ExecutionOutcome) :
    let x := round others s r (h, state)
    x.log.countP (Exchange.observes (.execution o)) = x.log.countP (Exchange.runsTo o) := by
  intro x
  have hruns := Pass.countP_observes_execution o (Pass.every_pass s _ _)
    (fun past pod command a heq => by simp at heq)
    (Program.reaches_conversation others.serve (Pass.pass s r.namespaceName r.anyName) state)
  have hverdict : verdict r x.result ≠ .execution o := by
    cases x.result <;> simp [verdict]
  rw [countP_observes_round, if_neg hverdict, hruns, log_round, List.countP_append]
  rfl

variable {h : Health} {past : List Round}

/-- **One more round keeps the accounts.** -/
theorem Accounts.round (hacc : Accounts past h) :
    Accounts (past ++ [Reconcile.round others s r (some h, state)])
      (others.healthAfter (settle s r) h state) := by
  have hlog : (Reconcile.round others s r (some h, state)).log =
      (settle s r).conversation others.serve state := others.conversation_attend _ _ _
  have htold := countP_observes_verdict others s r state (some h)
  constructor
  case reconciled =>
    intro ns n
    rw [others.tally_healthAfter, ← hlog, (htold ns n).1, hacc.reconciled, List.countP_append,
      List.countP_singleton]
  case failed =>
    intro ns n
    rw [others.tally_healthAfter, ← hlog, (htold ns n).2, hacc.failed, List.countP_append,
      List.countP_singleton]
  case timed =>
    intro ns n
    rw [others.tally_healthAfter, others.timed_healthAfter, hacc.timed]
  case executed =>
    intro o
    rw [others.tally_healthAfter, ← hlog, countP_observes_runs, hacc.executed, List.flatMap_append,
      List.countP_append, List.flatMap_singleton]
  case last =>
    have hpass := Program.reaches_conversation others.serve
      (Pass.pass s r.namespaceName r.anyName) state
    have hlast := others.lastReconcile_healthAfter _ state h
      fun ns n => Pass.countP_observes_eq_zero hpass (by simp)
    rw [healthAfter_settle, List.filter_append]
    cases hresult : (Reconcile.round others s r (some h, state)).result with
    | ok action =>
        simp [hresult, verdict, Health.observe, Health.recordReconcile, Except.isOk, Except.toBool]
    | error e =>
        simp [hresult, verdict, Health.observe, Except.isOk, Except.toBool, hlast, hacc.last]

/-- The accounts of all rounds. -/
theorem Accounts.rounds (hacc : Accounts past h) (requests : List Remediation) :
    ∃ h', (afterRounds others s requests (some h, state)).1 = some h' ∧
      Accounts (past ++ Reconcile.rounds others s requests (some h, state)) h' := by
  induction requests generalizing past h state with
  | nil => exact ⟨h, rfl, by simpa [Reconcile.rounds] using hacc⟩
  | cons r rest ih =>
      obtain ⟨h', hrest, hacc⟩ := ih ((settle s r).run others.serve state).2
        (hacc.round others s r state)
      rw [← others.run_attend_some, List.append_assoc] at hacc
      rw [← others.run_attend_some] at hrest
      exact ⟨h', hrest, hacc⟩

end

/-- **The accounts of the metrics.**  Whoever answers, after some requests were reconciled one
after the other: of the passes over the requests of a name, the counters of those that ended well
and of those that failed add up to all, and there is a time for each that ended well; each run of
the agent was counted once, by how it ended, also where the pass failed after it; and the last
time that is noted is that of the last pass that ended well, if any did. -/
theorem metrics_account {σ : Type} (others : Others σ) (s : Settings)
    (requests : List Remediation) (ready : Bool) (state : σ) :
    let start : Option Health × σ := (some { ready := ready }, state)
    let past := rounds others s requests start
    let log := past.flatMap Round.log
    ∃ h, (afterRounds others s requests start).1 = some h ∧
      (∀ ns n, h.metrics.tally (.reconciled ns n) + h.metrics.tally (.failed ns n) =
          requests.countP (·.key == (ns, n)) ∧
        h.timed ns n = h.metrics.tally (.reconciled ns n)) ∧
      (h.metrics.tally (.execution .success) + h.metrics.tally (.execution .failure) +
          h.metrics.tally (.execution .unexpectedResponse) =
        log.countP fun x => x.1.isExecution) ∧
      (∀ o, h.metrics.tally (.execution o) = log.countP (Exchange.runsTo o)) ∧
      h.lastReconcile = (past.filter (·.result.isOk)).getLast?.map Round.finished := by
  intro start past log
  obtain ⟨h, hlast, hacc⟩ := (accounts_nil ready).rounds others s state requests
  rw [List.nil_append] at hacc
  refine ⟨h, hlast, ?_, ?_, hacc.executed, hacc.last⟩
  · intro ns n
    refine ⟨?_, hacc.timed ns n⟩
    have hrequests : past.map Round.request = requests := map_request_rounds others s requests start
    calc h.metrics.tally (.reconciled ns n) + h.metrics.tally (.failed ns n)
        = past.countP fun x => x.request.key == (ns, n) := by
          rw [hacc.reconciled, hacc.failed, Round.countP_isOf]
      _ = (past.map Round.request).countP (·.key == (ns, n)) := by
          rw [List.countP_map]
          rfl
      _ = requests.countP (·.key == (ns, n)) := by rw [hrequests]
  · rw [hacc.executed, hacc.executed, hacc.executed, countP_isExecution]

end Reconcile

end NodeFencing
