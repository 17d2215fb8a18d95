/-
A cluster in memory.

The cluster stores requests by namespace and name, nodes by name, and pods.  Every write
gives the object a version that no object had before, and replaces an object only if the
version that was read is still the stored one.  A request that is marked deleted is gone
once its last finalizer is.
-/
import NodeFencing.Error
import NodeFencing.Node
import NodeFencing.Pod
import NodeFencing.Remediation

namespace NodeFencing

/-- A cluster in memory (`FakeCluster`). -/
structure Cluster where
  remediations : Ordered (String × String) Remediation := .empty
  nodes : Ordered String Node := .empty
  pods : List Pod := []
  /-- The version that was given last. -/
  version : Nat := 0
  /-- How many writes there were. -/
  mutations : Nat := 0
deriving DecidableEq

namespace Cluster

instance : Inhabited Cluster := ⟨{}⟩

/-- A version as it is written. -/
def versionText (n : Nat) : String := Json.decimalText n

/-- The refusal of the cluster for a reason. -/
def refusal (code : Nat) (reason : String) : Error :=
  .cluster (.refused ⟨"Failure", "fake cluster: " ++ reason, reason, code⟩)

/-- The object is not there. -/
def notFound : Error := refusal Refusal.notFoundCode "NotFound"

/-- The object was changed in between. -/
def conflict : Error := refusal Refusal.conflictCode "Conflict"

/-- A metadata with the version. -/
def stamp (m : Metadata) (version : Nat) : Metadata :=
  { m with resourceVersion := some (versionText version) }

/-- The cluster before a write: the next version is given. -/
def bump (c : Cluster) : Cluster :=
  { c with version := c.version + 1, mutations := c.mutations + 1 }

/-! ### Reading -/

/-- The request of a name. -/
def remediation? (c : Cluster) (inNamespace name : String) : Option Remediation :=
  c.remediations.get? (inNamespace, name)

/-- The node of a name. -/
def node? (c : Cluster) (name : String) : Option Node := c.nodes.get? name

/-- The names of the nodes, in their order. -/
def nodeNames (c : Cluster) : List String := c.nodes.keys.mergeSort fun a b => decide (a ≤ b)

/-- The pods in a namespace that a selector picks. -/
def selectPods (c : Cluster) (inNamespace : String) (s : Selector) : List Pod :=
  c.pods.filter fun p => p.isSelected inNamespace s

/-- The nodes, by name. -/
def sortedNodes (c : Cluster) : List Node :=
  (c.nodes.entries.mergeSort fun a b => decide (a.1 ≤ b.1)).map Prod.snd

/-- The requests, by namespace and name. -/
def sortedRemediations (c : Cluster) : List Remediation :=
  (c.remediations.entries.mergeSort fun a b =>
    decide (a.1.1 < b.1.1) || (a.1.1 == b.1.1 && decide (a.1.2 ≤ b.1.2))).map Prod.snd

/-! ### Writes of the controller -/

/-- What is stored for a replaced request: status and deletion mark are not the writer's. -/
def successor (stored sent : Remediation) (version : Nat) : Remediation :=
  { sent with
    metadata := stamp { sent.metadata with
      deletionTimestamp := stored.metadata.deletionTimestamp } version
    status := stored.status }

/-- Whether a request is gone: it is marked deleted and nothing holds it. -/
def isReleased (r : Remediation) : Bool :=
  r.isDeleted && (r.metadata.finalizers.getD []).isEmpty

/-- Replaces a request if it is the one that was read. -/
def replaceRemediation (c : Cluster) (sent : Remediation) : Except Error Remediation × Cluster :=
  match c.remediations.get? sent.key with
  | none => (.error notFound, c)
  | some stored =>
    if stored.metadata.resourceVersion = sent.metadata.resourceVersion then
      let c := c.bump
      let r := successor stored sent c.version
      (.ok r, { c with
        remediations :=
          if isReleased r then c.remediations.erase sent.key
          else c.remediations.insert sent.key r })
    else (.error conflict, c)

/-- Writes the status of a request. -/
def patchStatus (c : Cluster) (inNamespace name : String) (s : Status) :
    Except Error Unit × Cluster :=
  match c.remediation? inNamespace name with
  | none => (.error notFound, c)
  | some r =>
    let c := c.bump
    (.ok (), { c with
      remediations := c.remediations.insert (inNamespace, name)
        { r with metadata := stamp r.metadata c.version, status := some s } })

/-- Replaces a node if it is the one that was read. -/
def replaceNode (c : Cluster) (sent : Node) : Except Error Node × Cluster :=
  match c.node? sent.anyName with
  | none => (.error notFound, c)
  | some stored =>
    if stored.metadata.resourceVersion = sent.metadata.resourceVersion then
      let c := c.bump
      let n := { sent with metadata := stamp sent.metadata c.version }
      (.ok n, { c with nodes := c.nodes.insert sent.anyName n })
    else (.error conflict, c)

/-! ### Edits by others -/

/-- What others do to the cluster. -/
inductive Edit where
  | addNode (n : Node)
  | addRemediation (r : Remediation)
  | removeNode (name : String)
  | removeRemediation (inNamespace name : String)
  | addPod (p : Pod)
  | clearPods
  | setTaints (name : String) (taints : Option (List Taint))
  | markDeleted (inNamespace name : String) (time : Instant)
  | setFinalizers (inNamespace name : String) (finalizers : Option (List String))
  | setSpec (inNamespace name : String) (spec : Spec)
deriving DecidableEq

/-- Changes a node, if it is there, and gives it the next version. -/
def changeNode (c : Cluster) (name : String) (f : Node → Node) : Cluster :=
  let c := c.bump
  match c.node? name with
  | none => c
  | some n =>
    let n := f n
    { c with nodes := c.nodes.insert name { n with metadata := stamp n.metadata c.version } }

/-- Changes a request, if it is there, and gives it the next version. -/
def changeRemediation (c : Cluster) (inNamespace name : String) (f : Remediation → Remediation) :
    Cluster :=
  let c := c.bump
  match c.remediation? inNamespace name with
  | none => c
  | some r =>
    let r := f r
    { c with
      remediations := c.remediations.insert (inNamespace, name)
        { r with metadata := stamp r.metadata c.version } }

/-- The cluster after an edit. -/
def edit (c : Cluster) : Edit → Cluster
  | .addNode n =>
    let version := c.version + 1
    { c with
      version := version
      nodes := c.nodes.insert n.anyName { n with metadata := stamp n.metadata version } }
  | .addRemediation r =>
    let version := c.version + 1
    { c with
      version := version
      remediations :=
        c.remediations.insert r.key { r with metadata := stamp r.metadata version } }
  | .removeNode name => { c with nodes := c.nodes.erase name }
  | .removeRemediation inNamespace name =>
    { c with remediations := c.remediations.erase (inNamespace, name) }
  | .addPod p => { c with pods := c.pods ++ [p] }
  | .clearPods => { c with pods := [] }
  | .setTaints name taints =>
    c.changeNode name fun n => { n with spec := some { n.spec.getD {} with taints := taints } }
  | .markDeleted inNamespace name time =>
    c.changeRemediation inNamespace name fun r =>
      { r with metadata := { r.metadata with deletionTimestamp := some time } }
  | .setFinalizers inNamespace name finalizers =>
    c.changeRemediation inNamespace name fun r =>
      { r with metadata := { r.metadata with finalizers := finalizers } }
  | .setSpec inNamespace name spec =>
    c.changeRemediation inNamespace name fun r =>
      { r with
        metadata := { r.metadata with generation := some (r.metadata.generation.getD 0 + 1) }
        spec := spec }

end Cluster

end NodeFencing
