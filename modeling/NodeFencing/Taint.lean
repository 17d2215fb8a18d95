/-
Taints of nodes.

A taint keeps work off a node.  Two taints match when key and effect agree; what value
they have, and since when, does not matter.  The remediation taint marks a node whose
fencing was begun, and its presence is what keeps the agent from running twice.
-/
import NodeFencing.Metadata

namespace NodeFencing

/-- A mark that keeps work off a node (`Taint`). -/
structure Taint where
  key : String := ""
  effect : String := ""
  value : Option String := none
  timeAdded : Option Instant := none
deriving DecidableEq, Inhabited

namespace Taint

/-- Whether key and effect agree (`taint_matches`). -/
def agrees (a b : Taint) : Bool := a.key == b.key && a.effect == b.effect

/-- Whether one of the taints agrees with a taint (`taint_exists`). -/
def occurs (t : Taint) (taints : List Taint) : Bool := taints.any (·.agrees t)

/-- The key of the remediation taint (`FAR_TAINT_KEY`). -/
def remediationKey : String := "medik8s.io/fence-agents-remediation"

/-- The effect of the remediation taint (`FAR_TAINT_EFFECT`). -/
def remediationEffect : String := "NoExecute"

/-- The remediation taint, put on at a time (`remediation_taint`). -/
def remediation (time : Instant) : Taint := ⟨remediationKey, remediationEffect, none, some time⟩

/-- Whether a taint agrees with the remediation taint, whenever that was put on. -/
def isRemediation (t : Taint) : Bool := t.agrees (remediation default)

/-- Reads a member of a taint. -/
def put (t : Taint) (name : String) (d : Json.Document) : Except Json.Fault Taint :=
  match name with
  | "effect" => return { t with effect := (← Json.Reader.last Json.Reader.text d).getD "" }
  | "key" => return { t with key := (← Json.Reader.last Json.Reader.text d).getD "" }
  | "timeAdded" => return { t with timeAdded := ← Json.Reader.last Instant.read d }
  | "value" => return { t with value := ← Json.Reader.last Json.Reader.text d }
  | _ => do d.skip; return t

/-- Reads a taint. -/
def read : Json.Reader Taint := Json.Reader.plain put {}

/-- A taint as a value. -/
def toJson (t : Taint) : Json :=
  .object (Json.present [
    ("effect", some (.text t.effect)),
    ("key", some (.text t.key)),
    ("timeAdded", t.timeAdded.map Instant.toJson),
    ("value", t.value.map .text)])

end Taint

end NodeFencing
