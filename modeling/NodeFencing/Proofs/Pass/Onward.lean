/-
How a pass goes on after its calls.

What a pass does with an answer depends on the call.  An error from the names of the nodes or
from the pods is what the pass ends with; one from the agent is told of and then is what it
ends with.  Each run of the agent is told to the metrics at once, and nothing else is.  The
time goes into the write that comes next and nowhere else, and a status that is written
before the agent succeeded is not heard at all.

`Onward` says so call by call, and `every_pass` that it holds of all calls that can come up.
The walk keeps in mind one thing only, whether the agent succeeded: that is when the status
matters.
-/
import NodeFencing.Proofs.Apart.Undated
import NodeFencing.Proofs.Pass.Path

namespace NodeFencing

/-- How a run of the agent ended, from its answer: well if something was printed, and nothing of
it on the error stream. -/
def ExecutionOutcome.ofAnswer : Except Error Output → ExecutionOutcome
  | .error _ => .failure
  | .ok o => if o.stderr = "" ∧ o.stdout ≠ "" then .success else .unexpectedResponse

/-- Whether an exchange is a run of the agent that ended so. -/
def Exchange.runsTo (o : ExecutionOutcome) : Exchange → Bool
  | ⟨.execute _ _, a⟩ => ExecutionOutcome.ofAnswer a == o
  | _ => false

theorem Output.ofAnswer_of_validate_ok {o : Output} {stdout : String}
    (h : o.validate = .ok stdout) : ExecutionOutcome.ofAnswer (.ok o) = .success := by
  unfold validate isSuccess at h
  split at h
  · next hs => simpa [ExecutionOutcome.ofAnswer] using hs
  · cases h

theorem Output.ofAnswer_of_validate_error {o : Output} {e : Error} (h : o.validate = .error e) :
    ExecutionOutcome.ofAnswer (.ok o) = .unexpectedResponse := by
  unfold validate isSuccess at h
  split at h
  · cases h
  · next hs => simpa [ExecutionOutcome.ofAnswer] using hs

theorem Program.Every.bind {α β : Type} {p : Program α} {k : α → Program β} {log : List Exchange}
    {P : List Exchange → (c : Call) → (c.Answer → Program β) → Prop}
    (h : p.Every (fun log c next => P log c fun a => (next a).bind k) log)
    (hk : p.Finally (fun log a => (k a).Every P log) log) : (p.bind k).Every P log := by
  induction p generalizing log with
  | done a => exact hk
  | call c next ih => exact ⟨h.1, fun a => ih a (h.2 a) (hk a)⟩

/-! ### The life of a request -/

namespace Lifecycle

/-- The calls for the life of a request; of a node that was put back nothing is heard. -/
def Tends {α : Type} (_ : List Exchange) : (c : Call) → (c.Answer → Program α) → Prop
  | .replaceNode _, next => ∀ m m', next (.ok m) = next (.ok m')
  | .getNode _, _ | .replaceRemediation _, _ | .publishEvent _ _, _ => True
  | _, _ => False

variable {r : Remediation} {log : List Exchange}

theorem tends_bind {α β : Type} {c : Call} {next : c.Answer → Program α} (k : α → Program β)
    (h : Tends log c next) : Tends log c fun a => (next a).bind k := by
  cases c with
  | replaceNode n => exact fun m m' => congrArg (Program.bind · k) (h m m')
  | getNode _ | replaceRemediation _ | publishEvent _ _ => trivial
  | _ => exact h.elim

theorem every_attach : (attach r).Every Tends log := by
  unfold attach
  split
  · exact ⟨trivial, fun _ => trivial⟩
  · refine ⟨trivial, fun a => ?_⟩
    cases a with
    | error e => exact trivial
    | ok _ => exact ⟨trivial, fun _ => trivial⟩

theorem every_removeTaint (node : String) : (removeTaint node).Every Tends log := by
  refine ⟨trivial, fun a => ?_⟩
  match a with
  | .error e => exact trivial
  | .ok none => exact trivial
  | .ok (some n) =>
      cases hn : n.removeTaint? with
      | none =>
          simp only [hn]
          exact trivial
      | some sent =>
          simp only [hn]
          refine ⟨fun m m' => rfl, fun a => ?_⟩
          cases a <;> exact trivial

theorem every_release : (release r).Every Tends log := by
  unfold release
  split
  · exact ⟨trivial, fun _ => trivial⟩
  · refine ⟨trivial, fun a => ?_⟩
    cases a with
    | ok _ => exact ⟨trivial, fun _ => trivial⟩
    | error e =>
        cases he : e.isNotFound with
        | true =>
            simp only [he, if_true]
            exact ⟨trivial, fun _ => trivial⟩
        | false =>
            simp only [he, Bool.false_eq_true, if_false]
            exact trivial

theorem every_cleanUp : (cleanUp r).Every Tends log := by
  refine .bind ((every_removeTaint r.anyName).imp fun _ _ _ => tends_bind _) ?_
  refine .of_forall _ _ fun log a => ?_
  cases a with
  | error e => exact trivial
  | ok _ => exact every_release

theorem every_handle : (handle r).Every Tends log := by
  unfold handle
  split
  · exact every_attach
  · exact every_cleanUp
  · exact trivial
  · exact trivial

end Lifecycle

namespace Pass

/-! ### The walk through a pass -/

/-- Programs that are the same, but for a time in what they are about to write. -/
inductive Twin {α : Type} : Program α → Program α → Prop
  | same (p : Program α) : Twin p p
  | taint (n : Node) (time time' : Instant) {k k' : Except Error Node → Program α}
      (hk : ∀ a, k a = k' a) :
      Twin (.call (.replaceNode (n.addTaint time)) k) (.call (.replaceNode (n.addTaint time')) k')
  | status {ns n : String} {st st' : Status} {k k' : Except Error Unit → Program α}
      (h : st.undated = st'.undated) (hk : ∀ a, k a = k' a) :
      Twin (.call (.patchStatus ns n st) k) (.call (.patchStatus ns n st') k')

/-- How a pass goes on after a call. -/
def Onward (log : List Exchange) :
    (c : Call) → (c.Answer → Program (Except Error Report)) → Prop
  | .listNodeNames, next => ∀ e, next (.error e) = .done (.error e)
  | .listPods _ _, next => ∀ e, next (.error e) = .done (.error e)
  | .execute _ _, next =>
    (∀ a, ∃ rest, next a = .call (.observe (.execution (.ofAnswer a))) rest) ∧
      ∀ e, ∃ r, next (.error e) = .call (.observe (.execution .failure)) fun _ =>
        .call (.publishEvent r (.agentFailed e.message)) fun _ => .done (.error e)
  | .observe o, _ =>
    ∃ before pod command a, log = before ++ [⟨.execute pod command, a⟩] ∧
      o = .execution (.ofAnswer a)
  | .readClock, next => ∀ time time', Twin (next time) (next time')
  | .patchStatus _ _ _, next =>
    (log.any (Exchange.runsTo .success) = true → ∀ e, next (.error e) = .done (.error e)) ∧
      (log.any (Exchange.runsTo .success) = false → ∀ a a', next a = next a')
  | .replaceNode _, next => ∀ m m', next (.ok m) = next (.ok m')
  | .getRemediation _ _, _ | .replaceRemediation _, _ | .getNode _, _ | .publishEvent _ _, _ => True

variable (s : Settings) (inNamespace name : String) {log : List Exchange} {r : Remediation}

theorem onward_succeeded {pod : Pod} {command : List String} {o : Output} {stdout : String}
    (ho : o.validate = .ok stdout) :
    ((succeeded inNamespace name r stdout (.reaching .responseValidating)).map
      Ending.report).Every Onward (log ++ [⟨.execute pod command, .ok o⟩]) := by
  have hrun := Output.ofAnswer_of_validate_ok ho
  refine ⟨⟨log, pod, command, _, rfl, by rw [hrun]⟩, fun _ => ⟨trivial, fun _ => ⟨?_, ?_⟩⟩⟩
  · exact fun time time' => .status (Remediation.undated_finishedStatus rfl stdout time time')
      fun a => by cases a <;> rfl
  · refine fun time => ⟨?_, fun a => ?_⟩
    · exact ⟨fun _ e => rfl, fun hnone => by simp [Exchange.runsTo, hrun] at hnone⟩
    · cases a <;> exact trivial

theorem onward_answeredElse {pod : Pod} {command : List String} {o : Output} {e : Error}
    (hlog : log.any (Exchange.runsTo .success) = false) (ho : o.validate = .error e) :
    ((answeredElse r e (.reaching .responseValidating)).map Ending.report).Every Onward
      (log ++ [⟨.execute pod command, .ok o⟩]) := by
  have hrun := Output.ofAnswer_of_validate_error ho
  refine ⟨⟨log, pod, command, _, rfl, by rw [hrun]⟩, fun _ => ⟨trivial, fun _ => ⟨?_, ?_⟩⟩⟩
  · exact fun time time' =>
      .status (Remediation.undated_agentFailedStatus rfl e.message time time') fun a => rfl
  · refine fun time => ⟨?_, fun _ => trivial⟩
    exact ⟨fun hsome => by simp [Exchange.runsTo, hrun, hlog] at hsome, fun _ a a' => rfl⟩

theorem onward_runningIn {pod : Pod} {command : List String}
    (hlog : log.any (Exchange.runsTo .success) = false) :
    ((runningIn inNamespace name r command (.reaching .executing) pod).map
      Ending.report).Every Onward log := by
  refine ⟨⟨?_, fun e => ⟨r, rfl⟩⟩, ?_⟩
  · intro a
    cases a with
    | error e => exact ⟨_, rfl⟩
    | ok o =>
        show ∃ rest, (responseValidating inNamespace name r o
          (.reaching .responseValidating)).map Ending.report = _
        unfold responseValidating
        split
        · next stdout ho =>
            rw [Output.ofAnswer_of_validate_ok ho]
            exact ⟨_, rfl⟩
        · next e ho =>
            rw [Output.ofAnswer_of_validate_error ho]
            exact ⟨_, rfl⟩
  · intro a
    cases a with
    | error e => exact ⟨⟨log, pod, command, _, rfl, rfl⟩, fun _ => ⟨trivial, fun _ => trivial⟩⟩
    | ok o =>
        show ((responseValidating inNamespace name r o
          (.reaching .responseValidating)).map Ending.report).Every Onward _
        unfold responseValidating
        split
        · next stdout ho => exact onward_succeeded inNamespace name ho
        · next e ho => exact onward_answeredElse hlog ho

theorem onward_executing {command : List String}
    (hlog : log.any (Exchange.runsTo .success) = false) :
    ((executing s inNamespace name r command (.reaching .executing)).map Ending.report).Every
      Onward log := by
  refine ⟨fun e => rfl, fun a => ?_⟩
  match a with
  | .error e => exact trivial
  | .ok [] => exact trivial
  | .ok (pod :: pods) => exact onward_runningIn inNamespace name (by simp [hlog, Exchange.runsTo])

theorem onward_tainted (hlog : log.any (Exchange.runsTo .success) = false) :
    ((tainted s inNamespace name r (.reaching .tainting)).map Ending.report).Every Onward log := by
  refine ⟨trivial, fun _ => ⟨?_, fun time => ⟨?_, fun a => ?_⟩⟩⟩
  · exact fun time time' =>
      .status (Remediation.undated_startedStatus rfl time time') fun a => rfl
  · exact ⟨fun hsome => by simp [Exchange.runsTo, hlog] at hsome, fun _ a a' => rfl⟩
  · show ((parameterBuilding s inNamespace name r (.reaching .parameterBuilding)).map
      Ending.report).Every Onward _
    unfold parameterBuilding
    split
    · exact ⟨trivial, fun _ => trivial⟩
    · exact onward_executing s inNamespace name (by simp [hlog, Exchange.runsTo])

theorem onward_tainting (hlog : log.any (Exchange.runsTo .success) = false) :
    ((tainting s inNamespace name r (.reaching .tainting)).map Ending.report).Every Onward log := by
  refine ⟨trivial, fun a => ?_⟩
  match a with
  | .error e => exact trivial
  | .ok none => exact trivial
  | .ok (some n) =>
      by_cases hn : n.isTainted = true
      · simp only [hn, if_true]
        exact trivial
      · have hn' : n.isTainted = false := by simpa using hn
        simp only [hn', Node.applyTaint?_of_not_isTainted hn', Bool.false_eq_true, if_false]
        refine ⟨fun time time' => .taint n time time' fun a => by cases a <;> rfl,
          fun time => ⟨fun m m' => rfl, fun a => ?_⟩⟩
        cases a with
        | error e => exact trivial
        | ok m => exact onward_tainted s inNamespace name (by simp [hlog, Exchange.runsTo])

theorem onward_lifecycleHandling (hlog : log.any (Exchange.runsTo .success) = false) :
    ((lifecycleHandling s inNamespace name r (.reaching .lifecycleHandling)).map
      Ending.report).Every Onward log := by
  by_cases hr : r.lifecycleAction = .proceed
  · unfold lifecycleHandling Lifecycle.handle
    rw [hr]
    exact onward_tainting s inNamespace name hlog
  · unfold lifecycleHandling Program.map
    rw [Program.bind_assoc]
    refine .bind (Lifecycle.every_handle.imp ?_) ((Lifecycle.finally_handle hr).imp ?_)
    · intro more c next h
      cases c with
      | replaceNode n => exact fun m m' => congrArg (Program.bind · _) (h m m')
      | getNode _ | replaceRemediation _ | publishEvent _ _ => trivial
      | _ => exact h.elim
    · rintro log result ⟨-, hsettled⟩
      match result with
      | .error e => exact trivial
      | .ok .finalizerAdded => exact trivial
      | .ok .deletionComplete => exact trivial
      | .ok .proceed => exact absurd rfl hsettled

/-- **A pass goes on after each of its calls as `Onward` says.** -/
theorem every_pass : (pass s inNamespace name).Every Onward [] := by
  refine ⟨trivial, fun a => ?_⟩
  match a with
  | .error e => exact trivial
  | .ok none => exact trivial
  | .ok (some r) =>
      refine ⟨fun e => rfl, fun a => ?_⟩
      match a with
      | .error e => exact trivial
      | .ok names =>
          by_cases h : (names.contains name || (r.isDeleted && r.hasFinalizer)) = true
          · simp only [h, if_true]
            exact onward_lifecycleHandling s inNamespace name rfl
          · simp only [h, Bool.false_eq_true, if_false]
            exact trivial

end Pass

end NodeFencing
