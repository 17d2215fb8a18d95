/-
Reconciling a request: a pass, and when to come back.

A request whose pass ended well is left alone until it changes, unless the pass only put
the finalizer on.  After an error it is tried again, soon if that may help; a request
that is gone is left alone.
-/
import NodeFencing.Pass

namespace NodeFencing

/-- When to come back to a request (`Action`). -/
inductive Action where
  /-- When it changes. -/
  | awaitChange
  /-- After some seconds. -/
  | requeue (seconds : Nat)
deriving DecidableEq, Repr, Inhabited

namespace Reconcile

/-- When to come back after a pass that ended well. -/
def afterOutcome : Outcome → Action
  | .finalizerAdded => .requeue 1
  | _ => .awaitChange

/-- When to come back after an error. -/
def afterError (e : Error) : Action :=
  if e.isNotFound then .awaitChange else .requeue e.requeueSeconds

/-- A pass over a request, of which the metrics are told if it ends well (`reconcile`). -/
def reconcile (s : Settings) (r : Remediation) : Program (Except Error Action) :=
  (Pass.pass s r.namespaceName r.anyName).bind fun
    | .error e => .done (.error e)
    | .ok report =>
      .call (.observe (.reconciled r.namespaceName r.anyName)) fun _ =>
        .done (.ok (afterOutcome report.outcome))

/-- What is done about an error, of which the metrics are told (`error_policy`). -/
def errorPolicy (r : Remediation) (e : Error) : Program Action :=
  .call (.observe (.failed r.namespaceName r.anyName)) fun _ => .done (afterError e)

/-- Reconciles a request and says when to come back, whatever happens. -/
def settle (s : Settings) (r : Remediation) : Program Action :=
  (reconcile s r).bind fun
    | .error e => errorPolicy r e
    | .ok action => .done action

end Reconcile

end NodeFencing
