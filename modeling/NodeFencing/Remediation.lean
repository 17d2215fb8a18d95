/-
Requests to fence a node.

A request is named after the node that it wants fenced, says which fence agent to run
and with which parameters, and is told in its status how that went.  The parameters
keep the order in which they were written.
-/
import NodeFencing.Condition
import NodeFencing.Metadata

namespace NodeFencing

/-- Flags and their values (`SharedParameters`). -/
abbrev SharedParameters := Ordered String String

/-- Flags and their values node by node (`NodeParameters`). -/
abbrev NodeParameters := Ordered String (Ordered String String)

/-- What a request asks for (`FenceAgentsRemediationSpec`). -/
structure Spec where
  agent : String
  sharedParameters : Option SharedParameters := none
  nodeParameters : Option NodeParameters := none
deriving DecidableEq, Inhabited

/-- What is told of a request (`FenceAgentsRemediationStatus`). -/
structure Status where
  conditions : List Condition := []
  lastUpdateTime : Option String := none
deriving DecidableEq, Inhabited

/-- A request to fence the node of its name (`FenceAgentsRemediation`). -/
structure Remediation where
  metadata : Metadata := {}
  spec : Spec
  status : Option Status := none
deriving DecidableEq, Inhabited

namespace Spec

/-- What was found of a spec so far. -/
structure Found where
  agent : Option String := none
  sharedParameters : Option (Option SharedParameters) := none
  nodeParameters : Option (Option NodeParameters) := none

/-- Reads flags and their values. -/
def readShared : Json.Reader SharedParameters := Json.Reader.map Json.Reader.text

/-- Reads flags and their values node by node. -/
def readByNode : Json.Reader NodeParameters := Json.Reader.map readShared

/-- Specs as declared objects. -/
def declared : Json.Declared Found Spec where
  fields := ["agent", "sharedParameters", "nodeParameters"]
  needed := 1
  start := {}
  put f name d :=
    match name with
    | "agent" => return { f with agent := ← Json.Reader.once Json.Reader.text f.agent d }
    | "sharedParameters" =>
      return { f with
        sharedParameters :=
          ← Json.Reader.once (Json.Reader.optional readShared) f.sharedParameters d }
    | "nodeParameters" =>
      return { f with
        nodeParameters := ← Json.Reader.once (Json.Reader.optional readByNode) f.nodeParameters d }
    | _ => do d.skip; return f
  finish f := do
    return {
      agent := ← Json.Reader.required f.agent
      sharedParameters := f.sharedParameters.join
      nodeParameters := f.nodeParameters.join }

/-- Reads a spec. -/
def read : Json.Reader Spec := declared.read

/-- Flags and their values as a value. -/
def sharedJson (p : SharedParameters) : Json :=
  .object (p.entries.map fun (flag, value) => (flag, .text value))

/-- Flags and their values node by node as a value. -/
def byNodeJson (p : NodeParameters) : Json :=
  .object (p.entries.map fun (flag, values) => (flag, sharedJson values))

/-- A spec as a value. -/
def toJson (s : Spec) : Json :=
  .object (Json.present [
    ("agent", some (.text s.agent)),
    ("sharedParameters", s.sharedParameters.map sharedJson),
    ("nodeParameters", s.nodeParameters.map byNodeJson)])

end Spec

namespace Status

/-- What was found of a status so far. -/
structure Found where
  conditions : Option (List Condition) := none
  lastUpdateTime : Option (Option String) := none

/-- Statuses as declared objects. -/
def declared : Json.Declared Found Status where
  fields := ["conditions", "lastUpdateTime"]
  needed := 2
  start := {}
  put f name d :=
    match name with
    | "conditions" =>
      return { f with
        conditions := ← Json.Reader.once (Json.Reader.list Condition.read) f.conditions d }
    | "lastUpdateTime" =>
      return { f with
        lastUpdateTime :=
          ← Json.Reader.once (Json.Reader.optional Json.Reader.text) f.lastUpdateTime d }
    | _ => do d.skip; return f
  finish f := return ⟨f.conditions.getD [], f.lastUpdateTime.join⟩

/-- Reads a status. -/
def read : Json.Reader Status := declared.read

/-- A status as a value. -/
def toJson (s : Status) : Json :=
  .object (Json.present [
    ("conditions", some (.array (s.conditions.map Condition.toJson))),
    ("lastUpdateTime", s.lastUpdateTime.map .text)])

end Status

namespace Remediation

/-- The version of the interface that requests belong to. -/
def apiVersion : String := "fence-agents-remediation.medik8s.io/v1alpha1"

/-- The kind of object that requests are. -/
def kind : String := "FenceAgentsRemediation"

/-- The finalizer that defers a deletion until the remediation taint is gone (`FAR_FINALIZER`). -/
def finalizer : String := "fence-agents-remediation.medik8s.io/far-finalizer"

/-- The name of the request, which is the name of the node to be fenced. -/
def anyName (r : Remediation) : String := r.metadata.anyName

/-- The namespace of the request. -/
def namespaceName (r : Remediation) : String := r.metadata.namespaceName

/-- The key under which the request is stored. -/
def key (r : Remediation) : String × String := (r.namespaceName, r.anyName)

/-- Whether the request is marked deleted (`is_being_deleted`). -/
def isDeleted (r : Remediation) : Bool := r.metadata.isDeleted

/-- Whether the finalizer is on the request (`has_finalizer`). -/
def hasFinalizer (r : Remediation) : Bool := r.metadata.hasFinalizer finalizer

/-- The conditions of the request. -/
def conditions (r : Remediation) : List Condition :=
  match r.status with
  | some s => s.conditions
  | none => []

/-- The request with a finalizer at the end of its list; none if it is there already. -/
def addFinalizer? (r : Remediation) (f : String) : Option Remediation :=
  (r.metadata.addFinalizer? f).map fun m => { r with metadata := m }

/-- The request without a finalizer; none if it is not there. -/
def removeFinalizer? (r : Remediation) (f : String) : Option Remediation :=
  (r.metadata.removeFinalizer? f).map fun m => { r with metadata := m }

/-! ### Reading and writing -/

/-- What was found of a request so far. -/
structure Found where
  metadata : Option Metadata := none
  spec : Option Spec := none
  status : Option (Option Status) := none

/-- Requests as declared objects in which at most so many containers are nested. -/
def declared (room : Nat) : Json.Declared Found Remediation where
  fields := ["metadata", "spec", "status"]
  needed := 3
  start := {}
  put f name d :=
    match name with
    | "metadata" =>
      return { f with
        metadata := ← Json.Reader.once (Metadata.read (room - 1)) f.metadata d }
    | "spec" => return { f with spec := ← Json.Reader.once Spec.read f.spec d }
    | "status" =>
      return { f with status := ← Json.Reader.once (Json.Reader.optional Status.read) f.status d }
    | _ => do d.skip; return f
  finish f := do
    return {
      metadata := ← Json.Reader.required f.metadata
      spec := ← Json.Reader.required f.spec
      status := f.status.join }

/-- Reads a request in which at most so many containers are nested. -/
def readWithin (room : Nat) : Json.Reader Remediation := (declared room).read

/-- Reads a request that is the whole of a text. -/
def read : Json.Reader Remediation := readWithin Json.nesting

/-- A request as a value. -/
def toJson (r : Remediation) : Json :=
  .object (Json.present [
    ("apiVersion", some (.text apiVersion)),
    ("kind", some (.text kind)),
    ("metadata", some r.metadata.toJson),
    ("spec", some r.spec.toJson),
    ("status", r.status.map Status.toJson)])

end Remediation

end NodeFencing
