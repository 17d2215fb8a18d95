/-
One pass over a request.

A pass reads the request, looks up the node of its name, handles the finalizer, taints
the node, and runs the fence agent if the node was not tainted before.  The taint that
was there *before* the pass puts its own on decides whether the agent runs.

Every phase is a program that goes on into the next one; `enter` keeps the path.  A
status that is written underway is written with best effort: whether that works does
not matter to the pass.  Only the write after a success does.
-/
import NodeFencing.Command
import NodeFencing.Lifecycle
import NodeFencing.Progress
import NodeFencing.Settings

namespace NodeFencing

/-- How a pass ended that ended well (`ReconcileOutcome`). -/
inductive Outcome where
  /-- There is no such request. -/
  | requestNotFound
  /-- There is no such node. -/
  | nodeNotFound
  /-- The finalizer was put on. -/
  | finalizerAdded
  /-- The deletion was cleaned up after. -/
  | deletionComplete
  /-- The node was tainted before the pass. -/
  | alreadyRemediated
  /-- The agent ran and succeeded. -/
  | fenceAgentExecuted
deriving DecidableEq, Repr, Inhabited

/-- The word for how a pass ended. -/
def Outcome.name : Outcome → String
  | .requestNotFound => "RequestNotFound"
  | .nodeNotFound => "NodeNotFound"
  | .finalizerAdded => "FinalizerAdded"
  | .deletionComplete => "DeletionComplete"
  | .alreadyRemediated => "AlreadyRemediated"
  | .fenceAgentExecuted => "FenceAgentExecuted"

/-- The phases of a pass that ended well, and how (`ReconcileReport`). -/
structure Report where
  phases : List Phase
  outcome : Outcome
deriving DecidableEq, Repr, Inhabited

namespace Pass

/-- Where the phases of a pass got to. -/
structure Ending where
  tracker : Tracker
  result : Except Error Outcome

/-- A pass that failed. -/
def failed (t : Tracker) (e : Error) : Program Ending := .done ⟨t, .error e⟩

/-- A pass that ended well. -/
def ended (t : Tracker) (o : Outcome) : Program Ending := .done ⟨t, .ok o⟩

/-- Goes on into a phase, if the table of phases has the step (`advance`). -/
def enter (t : Tracker) (p : Phase) (next : Tracker → Program Ending) : Program Ending :=
  match t.advance? p with
  | some t => next t
  | none => failed t (.invalidTransition t.current p)

/-- Tells of the request and goes on (`publish_event`). -/
def tell (r : Remediation) (e : Event) (next : Program Ending) : Program Ending :=
  .call (.publishEvent r e) fun _ => next

/-- Tells the metrics of a run of the agent and goes on (`record_execution`). -/
def observe (o : ExecutionOutcome) (next : Program Ending) : Program Ending :=
  .call (.observe (.execution o)) fun _ => next

/-- Writes a status with best effort and goes on (`write_status_best_effort`).

The clock is read once for a status.  The controller reads it for every condition that is set and
once more for the time of the update, up to four times for one status; here a status is put
together in one moment. -/
def noteStatus (r : Remediation) (status : Instant → Status) (next : Program Ending) :
    Program Ending :=
  .call .readClock fun time =>
    .call (.patchStatus r.namespaceName r.anyName (status time)) fun _ => next

variable (s : Settings) (inNamespace name : String)

/-- The agent succeeded: tells so and writes the status, which has to work. -/
def succeeded (r : Remediation) (stdout : String) (t : Tracker) : Program Ending :=
  observe .success <| tell r (.agentExecuted r.spec.agent name) <|
    .call .readClock fun time =>
      .call (.patchStatus inNamespace name (r.finishedStatus stdout time)) fun
        | .error e => failed t e
        | .ok _ => ended t .fenceAgentExecuted

/-- The agent answered something else: tells so. -/
def answeredElse (r : Remediation) (e : Error) (t : Tracker) : Program Ending :=
  observe .unexpectedResponse <| tell r (.agentFailed e.message) <|
    noteStatus r (r.agentFailedStatus e.message) <| failed t e

/-- The agent ran: its output decides. -/
def responseValidating (r : Remediation) (o : Output) (t : Tracker) : Program Ending :=
  match o.validate with
  | .ok stdout => succeeded inNamespace name r stdout t
  | .error e => answeredElse r e t

/-- Runs a command in a pod. -/
def runningIn (r : Remediation) (command : List String) (t : Tracker) (pod : Pod) :
    Program Ending :=
  .call (.execute pod command) fun
    | .error e => observe .failure <| tell r (.agentFailed e.message) <| failed t e
    | .ok o => enter t .responseValidating (responseValidating inNamespace name r o)

/-- Looks for a pod to run the command in (`find_agent_pod`). -/
def executing (r : Remediation) (command : List String) (t : Tracker) : Program Ending :=
  .call (.listPods s.agentPodNamespace s.agentPodSelector) fun
    | .error e => failed t e
    | .ok [] => failed t (.agentPodNotFound s.agentPodNamespace s.agentPodSelector)
    | .ok (pod :: _) => runningIn inNamespace name r command t pod

/-- Puts the command together. -/
def parameterBuilding (r : Remediation) (t : Tracker) : Program Ending :=
  match Command.ofSpec r.spec name with
  | .error e => tell r (.invalidParameters e.message) <| failed t e
  | .ok command => enter t .executing (executing s inNamespace name r command)

/-- The node is tainted now: tells so and goes on to the command. -/
def tainted (r : Remediation) (t : Tracker) : Program Ending :=
  tell r (.taintAdded name) <| noteStatus r r.startedStatus <|
    enter t .parameterBuilding (parameterBuilding s inNamespace name r)

/-- Looks at the taint of the node and puts it on.  The gate is the node as it was read, before
the taint is put on. -/
def tainting (r : Remediation) (t : Tracker) : Program Ending :=
  .call (.getNode name) fun
    | .error e => failed t e
    | .ok none => ended t .nodeNotFound
    | .ok (some n) =>
      if n.isTainted then ended t .alreadyRemediated
      else
        .call .readClock fun time =>
          match n.applyTaint? time with
          | none => enter t .parameterBuilding (parameterBuilding s inNamespace name r)
          | some m =>
            .call (.replaceNode m) fun
              | .error e => failed t e
              | .ok _ => tainted s inNamespace name r t

/-- Handles the finalizer. -/
def lifecycleHandling (r : Remediation) (t : Tracker) : Program Ending :=
  (Lifecycle.handle r).bind fun
    | .error e => failed t e
    | .ok .finalizerAdded => ended t .finalizerAdded
    | .ok .deletionComplete => ended t .deletionComplete
    | .ok .proceed => enter t .tainting (tainting s inNamespace name r)

/-- Looks up the node; a deleted request may still have to give its finalizer up without one. -/
def nodeValidating (r : Remediation) (t : Tracker) : Program Ending :=
  .call .listNodeNames fun
    | .error e => failed t e
    | .ok names =>
      if names.contains name || (r.isDeleted && r.hasFinalizer) then
        enter t .lifecycleHandling (lifecycleHandling s inNamespace name r)
      else ended t .nodeNotFound

/-- Reads the request (`run_pass`). -/
def fetching (t : Tracker) : Program Ending :=
  .call (.getRemediation inNamespace name) fun
    | .error e => failed t e
    | .ok none => ended t .requestNotFound
    | .ok (some r) => enter t .nodeValidating (nodeValidating s inNamespace name r)

/-- The path of a pass whose phases got to an ending, and its report: a pass that ended well goes
on to the end, one that failed fails in the phase it is in. -/
def Ending.close (e : Ending) : Tracker × Except Error Report :=
  match e.result with
  | .error err => (e.tracker.fail, .error err)
  | .ok outcome =>
    match e.tracker.advance? .done with
    | some t => (t, .ok ⟨t.visited, outcome⟩)
    | none => (e.tracker, .error (.invalidTransition e.tracker.current .done))

/-- The report of a pass whose phases got to an ending. -/
def Ending.report (e : Ending) : Except Error Report := e.close.2

/-- One pass over the request of a name (`reconcile_remediation`). -/
def pass : Program (Except Error Report) :=
  (fetching s inNamespace name .start).map Ending.report

end Pass

end NodeFencing
