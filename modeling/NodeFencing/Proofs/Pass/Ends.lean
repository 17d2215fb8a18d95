/-
What a pass has heard when it reports that the agent was executed.

There are many ways for a pass to end, and one of them is the end after a success: the
agent was run, it gave an output in the shape of a success, and the status was written.
-/
import NodeFencing.Pass
import NodeFencing.Proofs.Conversation

namespace NodeFencing.Pass

/-- Whoever reports that the agent was executed has run it and heard a success. -/
def Vouches (log : List Exchange) (result : Except Error Report) : Prop :=
  ∀ report, result = .ok report → report.outcome = .fenceAgentExecuted →
    ∃ pod command o, ⟨.execute pod command, .ok o⟩ ∈ log ∧ o.isSuccess = true

variable (s : Settings) (inNamespace name : String) {log : List Exchange} {r : Remediation}

theorem vouches_report {t : Tracker} {outcome : Outcome}
    (h : outcome = .fenceAgentExecuted →
      ∃ pod command o, ⟨.execute pod command, .ok o⟩ ∈ log ∧ o.isSuccess = true) :
    Vouches log (Ending.report ⟨t, .ok outcome⟩) := by
  intro report hreport houtcome
  unfold Ending.report Ending.close at hreport
  split at hreport
  · cases hreport
  · next outcome' heq =>
      obtain rfl := Except.ok.inj heq
      split at hreport
      · obtain rfl := Except.ok.inj hreport
        exact h houtcome
      · cases hreport

theorem vouches_error (log : List Exchange) (e : Error) : Vouches log (.error e) := by
  intro report hreport
  cases hreport

theorem finally_enter {t : Tracker} {p : Phase} {next : Tracker → Program Ending}
    (h : ∀ t, ((next t).map Ending.report).Finally Vouches log) :
    ((enter t p next).map Ending.report).Finally Vouches log := by
  unfold enter
  split
  · exact h _
  · exact vouches_error log _

theorem finally_responseValidating {pod : Pod} {command : List String} {o : Output}
    (hx : ⟨.execute pod command, .ok o⟩ ∈ log) (t : Tracker) :
    ((responseValidating inNamespace name r o t).map Ending.report).Finally Vouches log := by
  unfold responseValidating Output.validate
  by_cases ho : o.isSuccess = true
  · simp only [ho, if_true]
    -- the metrics, the event, the clock and the status follow
    intro _ _ _ answer
    cases answer with
    | error e => exact vouches_error _ e
    | ok _ => exact vouches_report fun _ => ⟨pod, command, o, by simp [hx], ho⟩
  · simp only [ho, Bool.false_eq_true, if_false]
    intro _ _ _ _
    exact vouches_error _ _

theorem finally_executing {command : List String} (t : Tracker) :
    ((executing s inNamespace name r command t).map Ending.report).Finally Vouches log := by
  intro pods
  match pods with
  | .error e => exact vouches_error _ e
  | .ok [] => exact vouches_error _ _
  | .ok (pod :: _) =>
      intro answer
      cases answer with
      | error e => exact fun _ _ => vouches_error _ e
      | ok o =>
          apply finally_enter
          exact finally_responseValidating inNamespace name
            (List.mem_append_right _ List.mem_cons_self)

theorem finally_tainted (t : Tracker) :
    ((tainted s inNamespace name r t).map Ending.report).Finally Vouches log := by
  intro _ _ _
  apply finally_enter
  intro t
  unfold parameterBuilding
  split
  · exact fun _ => vouches_error _ _
  · apply finally_enter
    exact finally_executing s inNamespace name

theorem finally_tainting (t : Tracker) :
    ((tainting s inNamespace name r t).map Ending.report).Finally Vouches log := by
  intro node
  match node with
  | .error e => exact vouches_error _ e
  | .ok none => exact vouches_report (by simp)
  | .ok (some n) =>
      by_cases hn : n.isTainted = true
      · simp only [hn, if_true]
        exact vouches_report (by simp)
      · have hn' : n.isTainted = false := by simpa using hn
        simp only [hn', Node.applyTaint?_of_not_isTainted hn', Bool.false_eq_true, if_false]
        intro _ answer
        cases answer with
        | error e => exact vouches_error _ e
        | ok _ => exact finally_tainted s inNamespace name t

/-- Whatever becomes of the life of the request, a pass that goes on is at its node. -/
theorem finally_lifecycleHandling (t : Tracker) :
    ((lifecycleHandling s inNamespace name r t).map Ending.report).Finally Vouches log := by
  unfold lifecycleHandling Program.map
  rw [Program.bind_assoc]
  refine .bind (.of_forall _ _ ?_)
  intro log a
  match a with
  | .error e => exact vouches_error log e
  | .ok .finalizerAdded => exact vouches_report (by simp)
  | .ok .deletionComplete => exact vouches_report (by simp)
  | .ok .proceed => exact finally_enter (finally_tainting s inNamespace name)

/-- **A pass that reports that the agent was executed has heard a success of it.** -/
theorem vouches {result : Except Error Report}
    (h : (pass s inNamespace name).Reaches log (.done result)) : Vouches log result := by
  have hfinally : (pass s inNamespace name).Finally Vouches [] := by
    intro request
    match request with
    | .error e => exact vouches_error _ e
    | .ok none => exact vouches_report (by simp)
    | .ok (some r) =>
        apply finally_enter
        intro t names
        cases names with
        | error e => exact vouches_error _ e
        | ok names =>
            by_cases hopen : (names.contains name || (r.isDeleted && r.hasFinalizer)) = true
            · simp only [hopen, if_true]
              exact finally_enter (finally_lifecycleHandling s inNamespace name)
            · simp only [hopen, Bool.false_eq_true, if_false]
              exact vouches_report (by simp)
  exact hfinally.of_reaches h

end NodeFencing.Pass
