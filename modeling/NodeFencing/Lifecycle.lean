/-
The life of a request: its finalizer and its deletion.

The finalizer is put on when a request is first met, and is taken off after the
remediation taint is off the node.  What has to be done follows from two facts of the
request: whether it has the finalizer and whether it is marked deleted.
-/
import NodeFencing.Program

namespace NodeFencing

/-- What the finalizer and the deletion mark of a request call for (`LifecycleAction`). -/
inductive LifecycleAction where
  | addFinalizer
  | cleanup
  | awaitRemoval
  | proceed
deriving DecidableEq, Repr, Inhabited

/-- The word for what is called for. -/
def LifecycleAction.name : LifecycleAction → String
  | .addFinalizer => "AddFinalizer"
  | .cleanup => "Cleanup"
  | .awaitRemoval => "AwaitRemoval"
  | .proceed => "Proceed"

/-- What was done about the life of a request (`LifecycleOutcome`). -/
inductive LifecycleOutcome where
  | finalizerAdded
  | deletionComplete
  | proceed
deriving DecidableEq, Repr, Inhabited

/-- The word for what was done. -/
def LifecycleOutcome.name : LifecycleOutcome → String
  | .finalizerAdded => "FinalizerAdded"
  | .deletionComplete => "DeletionComplete"
  | .proceed => "Proceed"

/-- What the life of a request calls for (`lifecycle_action`). -/
def Remediation.lifecycleAction (r : Remediation) : LifecycleAction :=
  match r.hasFinalizer, r.isDeleted with
  | false, false => .addFinalizer
  | true, true => .cleanup
  | false, true => .awaitRemoval
  | true, false => .proceed

namespace Remediation

theorem lifecycleAction_eq_proceed_iff {r : Remediation} :
    r.lifecycleAction = .proceed ↔ r.hasFinalizer = true ∧ r.isDeleted = false := by
  unfold lifecycleAction
  cases r.hasFinalizer <;> cases r.isDeleted <;> simp

theorem lifecycleAction_eq_cleanup_iff {r : Remediation} :
    r.lifecycleAction = .cleanup ↔ r.hasFinalizer = true ∧ r.isDeleted = true := by
  unfold lifecycleAction
  cases r.hasFinalizer <;> cases r.isDeleted <;> simp

theorem lifecycleAction_eq_addFinalizer_iff {r : Remediation} :
    r.lifecycleAction = .addFinalizer ↔ r.hasFinalizer = false ∧ r.isDeleted = false := by
  unfold lifecycleAction
  cases r.hasFinalizer <;> cases r.isDeleted <;> simp

theorem lifecycleAction_eq_awaitRemoval_iff {r : Remediation} :
    r.lifecycleAction = .awaitRemoval ↔ r.hasFinalizer = false ∧ r.isDeleted = true := by
  unfold lifecycleAction
  cases r.hasFinalizer <;> cases r.isDeleted <;> simp

end Remediation

namespace Lifecycle

/-- Puts a node back; that it is gone is told apart from other errors. -/
def putNode (n : Node) : Program (Except Error Bool) :=
  .call (.replaceNode n) fun
    | .ok _ => .done (.ok true)
    | .error e => .done (if e.isNotFound then .ok false else .error e)

/-- Takes the remediation taint off the node of a name and says whether it was there
(`remove_remediation_taint`); a node that is gone has none. -/
def removeTaint (node : String) : Program (Except Error Bool) :=
  .call (.getNode node) fun
    | .error e => .done (.error e)
    | .ok none => .done (.ok false)
    | .ok (some n) =>
      match n.removeTaint? with
      | none => .done (.ok false)
      | some n => putNode n

/-- Puts the finalizer on a request. -/
def attach (r : Remediation) : Program (Except Error LifecycleOutcome) :=
  let added : Program (Except Error LifecycleOutcome) :=
    .call (.publishEvent r .finalizerAdded) fun _ => .done (.ok .finalizerAdded)
  match r.addFinalizer? Remediation.finalizer with
  | none => added
  | some r =>
    .call (.replaceRemediation r) fun
      | .error e => .done (.error e)
      | .ok _ => added

/-- Takes the finalizer off a request; a request that is gone has none. -/
def release (r : Remediation) : Program (Except Error LifecycleOutcome) :=
  let released : Program (Except Error LifecycleOutcome) :=
    .call (.publishEvent r .finalizerRemoved) fun _ => .done (.ok .deletionComplete)
  match r.removeFinalizer? Remediation.finalizer with
  | none => released
  | some r =>
    .call (.replaceRemediation r) fun
      | .error e => if e.isNotFound then released else .done (.error e)
      | .ok _ => released

/-- Cleans up after a deletion: first the taint goes, then the finalizer. -/
def cleanUp (r : Remediation) : Program (Except Error LifecycleOutcome) :=
  (removeTaint r.anyName).bind fun
    | .error e => .done (.error e)
    | .ok _ => release r

/-- Does what the life of a request calls for (`handle_lifecycle`). -/
def handle (r : Remediation) : Program (Except Error LifecycleOutcome) :=
  match r.lifecycleAction with
  | .addFinalizer => attach r
  | .cleanup => cleanUp r
  | .awaitRemoval => .done (.ok .deletionComplete)
  | .proceed => .done (.ok .proceed)

end Lifecycle

end NodeFencing
