/-
The health of the controller, and what it answers to those who ask.

Three paths can be read: whether the program is alive, whether it is ready, and its
metrics.
-/
import NodeFencing.Metrics

namespace NodeFencing

/-- What is known of the controller while it runs (`HealthState`). -/
structure Health where
  ready : Bool := false
  metrics : Metrics := {}
  /-- When a pass last ended well. -/
  lastReconcile : Option Instant := none

namespace Health

instance : Inhabited Health := ⟨{}⟩

/-- Notes a pass that ended well (`HealthState::record_reconcile`). -/
def recordReconcile (h : Health) (inNamespace name : String) (seconds : Float) (time : Instant) :
    Health :=
  { h with
    metrics := h.metrics.recordReconcile inNamespace name seconds
    lastReconcile := some time }

/-- Notes an observation of a pass that took some seconds. -/
def observe (h : Health) (o : Observation) (seconds : Float) (time : Instant) : Health :=
  match o with
  | .execution outcome => { h with metrics := h.metrics.recordExecution outcome }
  | .reconciled inNamespace name => h.recordReconcile inNamespace name seconds time
  | .failed inNamespace name => { h with metrics := h.metrics.recordError inNamespace name }

/-- An answer to somebody who asks. -/
structure Answer where
  status : Nat
  contentType : Option String := none
  allow : Option String := none
  body : String := ""
deriving DecidableEq, Repr, Inhabited

/-- The type of plain text. -/
def plainText : String := "text/plain; charset=utf-8"

/-- The type of metrics. -/
def metricsText : String := "text/plain; version=0.0.4; charset=utf-8"

/-- What there is to read at a path (`create_router`). -/
def page? (h : Health) (path : String) : Option Answer :=
  match path with
  | "/healthz" => some { status := 200, contentType := some plainText, body := "ok" }
  | "/readyz" =>
    some (if h.ready then { status := 200, contentType := some plainText, body := "ready" }
      else { status := 503, contentType := some plainText, body := "not ready" })
  | "/metrics" =>
    some { status := 200, contentType := some metricsText, body := h.metrics.text }
  | _ => none

/-- The path of a target: what stands before a question mark or a hash. -/
def pathOf (target : String) : String :=
  String.ofList (target.toList.takeWhile fun c => c != '?' && c != '#')

/-- The answer to a request for a target; what follows its path does not matter. -/
def respond (h : Health) (method target : String) : Answer :=
  match h.page? (pathOf target) with
  | none => { status := 404 }
  | some page =>
    if method = "GET" then page
    else if method = "HEAD" then { page with body := "" }
    else { status := 405, allow := some "GET,HEAD" }

end Health

end NodeFencing
