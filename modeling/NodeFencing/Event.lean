/-
Events: what the controller tells the people who watch a request.
-/

namespace NodeFencing

/-- Whether an event is a cause for concern. -/
inductive EventKind where
  | normal
  | warning
deriving DecidableEq, Repr, Inhabited

/-- The word for the kind of an event. -/
def EventKind.name : EventKind → String
  | .normal => "Normal"
  | .warning => "Warning"

/-- Something worth telling about a request (`RemediationEvent`). -/
structure Event where
  kind : EventKind
  reason : String
  action : String
  note : String
deriving DecidableEq, Repr, Inhabited

namespace Event

/-- The action of fencing. -/
def remediating : String := "Remediating"

/-- The finalizer was put on. -/
def finalizerAdded : Event := ⟨.normal, "AddFinalizer", remediating, "Finalizer added"⟩

/-- A deletion was cleaned up after. -/
def finalizerRemoved : Event :=
  ⟨.normal, "RemoveFinalizer", "Cleanup", "Remediation taint and finalizer removed"⟩

/-- The node was tainted. -/
def taintAdded (node : String) : Event :=
  ⟨.normal, "AddRemediationTaint", remediating, "Remediation taint added to node " ++ node⟩

/-- The parameters do not make a command. -/
def invalidParameters (note : String) : Event :=
  ⟨.warning, "InvalidParameters", remediating, note⟩

/-- The agent failed. -/
def agentFailed (note : String) : Event := ⟨.warning, "FenceAgentFailed", remediating, note⟩

/-- The agent ran. -/
def agentExecuted (agent node : String) : Event :=
  ⟨.normal, "FenceAgentExecuted", remediating,
    "Fence agent " ++ agent ++ " executed for node " ++ node⟩

end Event

end NodeFencing
