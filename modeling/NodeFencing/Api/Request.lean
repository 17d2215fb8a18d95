/-
Requests to the server of a cluster: how each call is put.
-/
import NodeFencing.Api.Address
import NodeFencing.Program
import NodeFencing.Settings

namespace NodeFencing.Api

/-- A request to the server. -/
structure Request where
  method : String := "GET"
  address : Address
  accept : Option String := none
  contentType : Option String := none
  upgrade : Option String := none
  body : Option Json := none
deriving DecidableEq, Inhabited

/-- The name under which the controller writes (`FIELD_MANAGER`). -/
def fieldManager : String := "fence-agents-remediation"

/-- Who reports an event: the controller, and which instance of it. -/
structure Reporter where
  controller : String := fieldManager
  instanceName : Option String := none
deriving DecidableEq, Repr, Inhabited

namespace Request

/-- The type of a body in JSON. -/
def json : String := "application/json"

/-- The query of a write. -/
def writeQuery : Query := [("fieldManager", fieldManager)]

/-- Reads an object. -/
def get (c : Collection) (inNamespace : Option String) (name : String) :
    Except ClusterFault Request := do
  return { address := ← Address.make (← c.member inNamespace name) none }

/-- Replaces an object. -/
def replace (c : Collection) (inNamespace : Option String) (name : String) (body : Json) :
    Except ClusterFault Request := do
  return {
    method := "PUT"
    address := ← Address.make (← c.member inNamespace name) (some writeQuery)
    contentType := some json
    body := some body }

/-- Reads a request to fence (`get_remediation`). -/
def getRemediation (inNamespace name : String) : Except ClusterFault Request :=
  get .remediations (some inNamespace) name

/-- Replaces a request to fence (`replace_remediation`). -/
def replaceRemediation (r : Remediation) : Except ClusterFault Request :=
  replace .remediations (some r.namespaceName) r.anyName r.toJson

/-- Writes the status of a request to fence (`patch_remediation_status`). -/
def patchStatus (inNamespace name : String) (s : Status) : Except ClusterFault Request := do
  return {
    method := "PATCH"
    address := ← Address.make
      ((← Collection.remediations.member (some inNamespace) name) ++ "/status") (some writeQuery)
    accept := some json
    contentType := some "application/merge-patch+json"
    body := some (.object [("status", s.toJson)]) }

/-- Lists the metadata of nodes (`list_node_names`). -/
def listNodeNames : Except ClusterFault Request := do
  return {
    address := ← Address.make (Collection.nodes.path none) (some [])
    accept := some "application/json;as=PartialObjectMetadataList;g=meta.k8s.io;v=v1"
    contentType := some json }

/-- Reads a node (`get_node`). -/
def getNode (name : String) : Except ClusterFault Request := get .nodes none name

/-- Replaces a node (`replace_node`). -/
def replaceNode (n : Node) : Except ClusterFault Request :=
  replace .nodes none n.anyName n.toJson

/-- Lists the pods that a selector picks (`list_pods`). -/
def listPods (inNamespace selector : String) : Except ClusterFault Request := do
  return {
    address := ← Address.make (Collection.pods.path (some inNamespace))
      (some [("labelSelector", selector)]) }

/-- The query of a command: which streams are wanted, in which container, and the words. -/
def executeQuery (container : Option String) (command : List String) : Query :=
  [("stdout", "true"), ("stderr", "true")] ++
    (container.map fun c => ("container", c)).toList ++
    command.map fun word => ("command", word)

/-- Opens a session that runs a command in a pod (`Api::exec` with `attach_params`). -/
def execute (container : Option String) (pod : Pod) (command : List String) :
    Except ClusterFault Request := do
  return {
    address := ← Address.make
      ((← Collection.pods.member (some pod.metadata.namespaceName) pod.anyName) ++ "/exec")
      (some (executeQuery container command))
    upgrade := some "websocket" }

/-- The part of an event that says which object it is about. -/
def regarding (r : Remediation) : Json :=
  .object (Json.present [
    ("apiVersion", some (.text Remediation.apiVersion)),
    ("kind", some (.text Remediation.kind)),
    ("name", r.metadata.name.map .text),
    ("namespace", r.metadata.inNamespace.map .text),
    ("uid", r.metadata.uid.map .text)])

/-- An event at a time as a value; its name ends in a number that grows with time. -/
def eventBody (who : Reporter) (about : Remediation) (e : Event) (time : Instant) : Json :=
  let stem := about.metadata.name.getD who.controller
  let name := stem ++ "." ++ String.ofList (Hex.digits time.serial)
  .object [
    ("apiVersion", .text "events.k8s.io/v1"),
    ("kind", .text "Event"),
    ("action", .text e.action),
    ("eventTime", .text time.microText),
    ("metadata", .object (Json.present [
      ("name", some (.text name)),
      ("namespace", about.metadata.inNamespace.map .text)])),
    ("note", .text e.note),
    ("reason", .text e.reason),
    ("regarding", regarding about),
    ("reportingController", .text who.controller),
    ("reportingInstance", .text (who.instanceName.getD who.controller)),
    ("type", .text e.kind.name)]

/-- Publishes an event (`publish_event`). -/
def publishEvent (who : Reporter) (about : Remediation) (e : Event) (time : Instant) :
    Except ClusterFault Request := do
  return {
    method := "POST"
    address := ← Address.make (Collection.events.path (some about.namespaceName)) (some [])
    contentType := some json
    body := some (eventBody who about e time) }

end Request

end NodeFencing.Api
