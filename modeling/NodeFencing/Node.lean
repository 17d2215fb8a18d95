/-
Nodes of the cluster.

Only the taints of a node are ever changed here; everything else is carried along, so
that a node that is put back says what it said before.  A node may lack a spec, and a
spec may lack a list of taints; the remediation taint brings both along.
-/
import NodeFencing.Taint

namespace NodeFencing

/-- What is laid down for a node (`NodeSpec`). -/
structure NodeSpec where
  configSource : Option Json := none
  externalID : Option String := none
  podCIDR : Option String := none
  podCIDRs : Option (List String) := none
  providerID : Option String := none
  taints : Option (List Taint) := none
  unschedulable : Option Bool := none
deriving DecidableEq, Inhabited

/-- A machine of the cluster (`Node`). -/
structure Node where
  metadata : Metadata := {}
  spec : Option NodeSpec := none
  status : Option Json := none
deriving DecidableEq, Inhabited

namespace Node

/-- The name of the node. -/
def anyName (n : Node) : String := n.metadata.anyName

/-- The taints of the node (`node_taints`). -/
def taints (n : Node) : List Taint :=
  match n.spec with
  | some s => s.taints.getD []
  | none => []

/-- The node with other taints. -/
def withTaints (n : Node) (taints : List Taint) : Node :=
  { n with spec := some { n.spec.getD {} with taints := some taints } }

/-- Whether the remediation taint is on the node (`remediation_taint_present`). -/
def isTainted (n : Node) : Bool := (Taint.remediation default).occurs n.taints

/-- The node with the remediation taint after its other taints. -/
def addTaint (n : Node) (time : Instant) : Node :=
  n.withTaints (n.taints ++ [Taint.remediation time])

/-- The node with the remediation taint (`with_remediation_taint`); none if it has it already. -/
def applyTaint? (n : Node) (time : Instant) : Option Node :=
  if n.isTainted then none else some (n.addTaint time)

/-- The node without the remediation taint, however often it has it (`without_remediation_taint`);
none if it has it not. -/
def removeTaint? (n : Node) : Option Node :=
  if n.isTainted then some (n.withTaints (n.taints.filter (!·.isRemediation))) else none

/-- The node is tainted if one of its taints is the remediation taint. -/
theorem isTainted_eq_any (n : Node) : n.isTainted = n.taints.any Taint.isRemediation := rfl

/-- A node that lacks the taint gets it. -/
theorem applyTaint?_of_not_isTainted {n : Node} (h : n.isTainted = false) (time : Instant) :
    n.applyTaint? time = some (n.addTaint time) := by
  simp [applyTaint?, h]

@[simp] theorem taints_withTaints (n : Node) (ts : List Taint) : (n.withTaints ts).taints = ts :=
  rfl

theorem removeTaint?_eq_some_iff {n m : Node} : n.removeTaint? = some m ↔
    n.isTainted = true ∧ m = n.withTaints (n.taints.filter (!·.isRemediation)) := by
  unfold removeTaint?
  cases n.isTainted <;> simp [eq_comm]

/-- The node lacks the remediation taint after it was removed. -/
theorem isTainted_of_removeTaint? {n m : Node} (h : n.removeTaint? = some m) :
    m.isTainted = false := by
  obtain ⟨-, rfl⟩ := removeTaint?_eq_some_iff.mp h
  simp [isTainted_eq_any]

/-! ### Reading and writing -/

/-- Reads a member of the spec of a node. -/
def putSpec (s : NodeSpec) (name : String) (d : Json.Document) : Except Json.Fault NodeSpec :=
  match name with
  | "configSource" =>
    return { s with
      configSource := ← Json.Reader.last (Json.ofDocument (Json.nesting - 2)) d }
  | "externalID" => return { s with externalID := ← Json.Reader.last Json.Reader.text d }
  | "podCIDR" => return { s with podCIDR := ← Json.Reader.last Json.Reader.text d }
  | "podCIDRs" =>
    return { s with podCIDRs := ← Json.Reader.last (Json.Reader.list Json.Reader.text) d }
  | "providerID" => return { s with providerID := ← Json.Reader.last Json.Reader.text d }
  | "taints" => return { s with taints := ← Json.Reader.last (Json.Reader.list Taint.read) d }
  | "unschedulable" => return { s with unschedulable := ← Json.Reader.last Json.Reader.bool d }
  | _ => do d.skip; return s

/-- Reads the spec of a node. -/
def readSpec : Json.Reader NodeSpec := Json.Reader.plain putSpec {}

/-- The spec of a node as a value. -/
def specJson (s : NodeSpec) : Json :=
  .object (Json.present [
    ("configSource", s.configSource),
    ("externalID", s.externalID.map .text),
    ("podCIDR", s.podCIDR.map .text),
    ("podCIDRs", s.podCIDRs.map Json.texts),
    ("providerID", s.providerID.map .text),
    ("taints", s.taints.map fun l => .array (l.map Taint.toJson)),
    ("unschedulable", s.unschedulable.map .bool)])

/-- Reads a member of a node. -/
def put (n : Node) (name : String) (d : Json.Document) : Except Json.Fault Node :=
  match name with
  | "apiVersion" => do Json.Reader.exactly "v1" d; return n
  | "kind" => do Json.Reader.exactly "Node" d; return n
  | "metadata" =>
    return { n with
      metadata := (← Json.Reader.last (Metadata.read (Json.nesting - 1)) d).getD {} }
  | "spec" => return { n with spec := ← Json.Reader.last readSpec d }
  | "status" =>
    return { n with status := ← Json.Reader.last (Json.readObject (Json.nesting - 1)) d }
  | _ => do d.skip; return n

/-- Reads a node. -/
def read : Json.Reader Node := Json.Reader.plain put {}

/-- A node as a value. -/
def toJson (n : Node) : Json :=
  .object (Json.present [
    ("apiVersion", some (.text "v1")),
    ("kind", some (.text "Node")),
    ("metadata", some n.metadata.toJson),
    ("spec", n.spec.map specJson),
    ("status", n.status)])

end Node

end NodeFencing
