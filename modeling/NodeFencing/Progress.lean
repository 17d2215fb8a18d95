/-
What a pass writes into the status of a request.

Three moments are told of: the agent is about to run, the agent succeeded, the agent
answered something else.  Each sets its conditions on the ones that the pass found.
-/
import NodeFencing.Instant
import NodeFencing.Remediation
import NodeFencing.Text.Blank

namespace NodeFencing

/-- A status with conditions, written at a time (`build_status`). -/
def Status.ofConditions (cs : List Condition) (time : Instant) : Status := ⟨cs, some time.stamp⟩

@[simp] theorem Status.conditions_ofConditions (cs : List Condition) (time : Instant) :
    (Status.ofConditions cs time).conditions = cs := rfl

namespace Remediation

/-- The conditions of the request after one of them was set at a time (`conditions_of` and
`ConditionBuilder::set`). -/
def setCondition (r : Remediation) (aspect : Aspect) (holds : Bool) (reason message : String)
    (time : Instant) (cs : List Condition) : List Condition :=
  Condition.set (.make aspect holds reason message time.stamp r.metadata.generation) cs

/-- The status when the node was tainted and the agent is about to run. -/
def startedStatus (r : Remediation) (time : Instant) : Status :=
  .ofConditions
    (r.setCondition .processing true "RemediationStarted"
      "The node was tainted and the fence agent is about to run" time r.conditions) time

/-- The status when the agent succeeded. -/
def finishedStatus (r : Remediation) (stdout : String) (time : Instant) : Status :=
  let cs := r.setCondition .processing false "RemediationFinished" "Fence agent executed" time
    r.conditions
  let cs := r.setCondition .agentSucceeded true "FenceAgentSucceeded" (Text.trim stdout) time cs
  let cs := r.setCondition .succeeded true "RemediationFinished" "Node was fenced" time cs
  .ofConditions cs time

/-- The status when the agent answered something else. -/
def agentFailedStatus (r : Remediation) (note : String) (time : Instant) : Status :=
  .ofConditions
    (r.setCondition .agentSucceeded false "FenceAgentFailed" note time r.conditions) time

end Remediation

end NodeFencing
