/-
The metrics of the controller, and how they are written.

Four families are kept: passes that ended well, passes that failed, how long the former
took, and runs of the agent by how they ended.  A family is written with a line of help
and a line of its type before its samples, and is left out as long as it has none.
-/
import NodeFencing.Decimal.Binary
import NodeFencing.Program

namespace NodeFencing

/-- The word for how a run of the agent ended, as a label. -/
def ExecutionOutcome.label : ExecutionOutcome → String
  | .success => "success"
  | .failure => "failure"
  | .unexpectedResponse => "unexpected_response"

/-- What is counted (`Metrics`); requests go by namespace and name. -/
structure Metrics where
  reconciliations : Ordered (String × String) Nat := .empty
  errors : Ordered (String × String) Nat := .empty
  /-- How long passes took, in seconds. -/
  durations : Ordered (String × String) (List Float) := .empty
  executions : Ordered ExecutionOutcome Nat := .empty

namespace Metrics

instance : Inhabited Metrics := ⟨{}⟩

/-- Counts one more under a key. -/
def count {κ : Type} [DecidableEq κ] (m : Ordered κ Nat) (k : κ) : Ordered κ Nat :=
  m.alter k fun n => n.getD 0 + 1

/-- Counts a pass that ended well (`record_reconcile`). -/
def recordReconcile (m : Metrics) (inNamespace name : String) (seconds : Float) : Metrics :=
  { m with
    reconciliations := count m.reconciliations (inNamespace, name)
    durations := m.durations.alter (inNamespace, name) fun l => l.getD [] ++ [seconds] }

/-- Counts a pass that failed (`record_error`). -/
def recordError (m : Metrics) (inNamespace name : String) : Metrics :=
  { m with errors := count m.errors (inNamespace, name) }

/-- Counts a run of the agent (`record_execution`). -/
def recordExecution (m : Metrics) (o : ExecutionOutcome) : Metrics :=
  { m with executions := count m.executions o }

/-! ### Writing -/

/-- Floats are positional up to 21 digits before the point and 5 zeros after it. -/
def layout : Decimal.Layout := ⟨21, 5, "NaN", "inf"⟩

/-- Labels as they are written; their values stand as they are. -/
def labelText (labels : List (String × String)) : String :=
  "\x7b" ++ ",".intercalate (labels.map fun (n, v) => n ++ "=\"" ++ v ++ "\"") ++ "\x7d"

/-- The labels of a request. -/
def requestLabels (key : String × String) : List (String × String) :=
  [("namespace", key.1), ("name", key.2)]

/-- A line with a sample. -/
def sample (name : String) (labels : List (String × String)) (value : String) : String :=
  name ++ labelText labels ++ " " ++ value

/-- The lines of a family; none if it has no samples. -/
def family (name help type : String) (samples : List String) : List String :=
  if samples.isEmpty then []
  else ["# HELP " ++ name ++ " " ++ help ++ ".", "# TYPE " ++ name ++ " " ++ type] ++ samples

/-- The lines of a family of counters. -/
def counters {κ : Type} (name help : String) (labels : κ → List (String × String))
    (m : Ordered κ Nat) : List String :=
  family name help "counter" (m.entries.map fun (k, n) =>
    sample (name ++ "_total") (labels k) (Json.decimalText n))

/-- The upper bounds of the buckets: fifteen, each twice the one before, and no bound. -/
def bounds : List Float := (List.range 15).map fun i => 0.001 * Float.ofNat (Nat.pow 2 i)

/-- The lines of the durations of one request: their sum, their count, and how many of them are
within each bound. -/
def histogram (name : String) (labels : List (String × String)) (values : List Float) :
    List String :=
  let bucket (bound : String) (n : Nat) : String :=
    sample (name ++ "_bucket") (("le", bound) :: labels) (Json.decimalText n)
  let sum := values.foldl (· + ·) 0.0
  [sample (name ++ "_sum") labels (layout.write sum),
    sample (name ++ "_count") labels (Json.decimalText values.length)] ++
  bounds.map (fun b => bucket (layout.write b) (values.filter (fun v => v ≤ b)).length) ++
  [bucket "+Inf" values.length]

/-- The lines of the metrics. -/
def lines (m : Metrics) : List String :=
  counters "far_reconciliations" "Total number of reconciliations" requestLabels
    m.reconciliations ++
  counters "far_reconciliation_errors" "Total number of reconciliation errors" requestLabels
    m.errors ++
  family "far_reconcile_duration_seconds" "Duration of reconciliation in seconds" "histogram"
    (m.durations.entries.flatMap fun (k, values) =>
      histogram "far_reconcile_duration_seconds" (requestLabels k) values) ++
  counters "far_fence_agent_executions" "Total number of fence agent invocations by outcome"
    (fun o => [("outcome", o.label)]) m.executions ++
  ["# EOF"]

/-- The metrics as they are written (`Metrics::encode`). -/
def text (m : Metrics) : String := String.join (m.lines.map (· ++ "\n"))

end Metrics

end NodeFencing
