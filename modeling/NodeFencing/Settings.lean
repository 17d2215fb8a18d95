/-
The settings of the controller.

Settings come from the command line or from defaults and are checked once; the first
rule that they break is reported.
-/
import NodeFencing.Error

namespace NodeFencing

/-- What the controller is told at its start (`OperatorConfig`); durations are in milliseconds. -/
structure Settings where
  watchNamespace : Option String := none
  agentPodNamespace : String := "default"
  agentPodSelector : String := "app=fence-agents-remediation-operator"
  agentContainer : Option String := none
  fenceAgentTimeout : Nat := 60000
  healthPort : Nat := 8081
  leaderElect : Bool := false
  leaseName : String := "fence-agents-remediation-leader"
  leaseTtl : Nat := 15000
  leaseRenewInterval : Nat := 5000
deriving DecidableEq, Inhabited

namespace Settings

/-- The rules that settings can break. -/
inductive Defect where
  | noPodNamespace
  | noSelector (given : String)
  | noTimeout
  | lateRenewal
deriving DecidableEq, Repr, Inhabited

/-- The wording of a broken rule. -/
def Defect.message : Defect → String
  | .noPodNamespace => "agent pod namespace must not be empty"
  | .noSelector given =>
    "agent pod selector must be of the form key=value, got `" ++ given ++ "`"
  | .noTimeout => "fence agent timeout must be greater than zero"
  | .lateRenewal => "lease renew interval must be shorter than the lease TTL"

/-- The first rule that the settings break. -/
def defect? (s : Settings) : Option Defect :=
  if s.agentPodNamespace = "" then some .noPodNamespace
  else if !s.agentPodSelector.toList.contains '=' then some (.noSelector s.agentPodSelector)
  else if s.fenceAgentTimeout = 0 then some .noTimeout
  else if s.leaderElect ∧ s.leaseTtl ≤ s.leaseRenewInterval then some .lateRenewal
  else none

/-- Checks settings (`OperatorConfig::validate`). -/
def validate (s : Settings) : Except Error Unit :=
  match s.defect? with
  | some d => .error (.settings d.message)
  | none => .ok ()

/-! ### Writing -/

/-- A duration in whole seconds. -/
def seconds (milliseconds : Nat) : String := Json.decimalText (milliseconds / 1000)

/-- The settings, one on a line, each after its name. -/
def lines (s : Settings) : List String := [
  "watch namespace: " ++ s.watchNamespace.getD "(all)",
  "agent pod namespace: " ++ s.agentPodNamespace,
  "agent pod selector: " ++ s.agentPodSelector,
  "agent container: " ++ s.agentContainer.getD "(first)",
  "fence agent timeout: " ++ seconds s.fenceAgentTimeout ++ "s",
  "health port: " ++ Json.decimalText s.healthPort,
  "leader election: " ++ (if s.leaderElect then "on" else "off"),
  "lease: " ++ s.leaseName ++ ", held " ++ seconds s.leaseTtl ++ "s, renewed every " ++
    seconds s.leaseRenewInterval ++ "s"]

end Settings

end NodeFencing
