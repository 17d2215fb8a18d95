/-
What every object of the cluster says of itself, and every list of them.

All of it is optional, and an absent list is not an empty one.  An object is addressed
by its namespace and its name; one whose name is still to be generated goes by the
stem of it.
-/
import NodeFencing.Instant
import NodeFencing.Labels
import NodeFencing.Json.Reader

namespace NodeFencing

/-! ### Leaves of objects -/

/-- Reads an instant. -/
def Instant.read : Json.Reader Instant := Json.Reader.filtered Json.Reader.text Instant.ofText?

/-- An instant as a value. -/
def Instant.toJson (t : Instant) : Json := .text t.text

/-- Reads labels; of several values under a name the last counts. -/
def Labels.read : Json.Reader Labels := fun d => do
  return Labels.ofList (← Json.Reader.map Json.Reader.text d).entries

/-- Labels as a value. -/
def Labels.toJson (l : Labels) : Json := .object (l.entries.map fun (n, v) => (n, .text v))

/-- Texts as a value. -/
def Json.texts (l : List String) : Json := .array (l.map Json.text)

/-! ### Owners and managers -/

/-- The object that an object belongs to (`OwnerReference`). -/
structure Owner where
  apiVersion : String := ""
  blocksDeletion : Option Bool := none
  isController : Option Bool := none
  kind : String := ""
  name : String := ""
  uid : String := ""
deriving DecidableEq, Inhabited

namespace Owner

/-- Reads a member of an owner. -/
def put (o : Owner) (name : String) (d : Json.Document) : Except Json.Fault Owner :=
  match name with
  | "apiVersion" => return { o with apiVersion := (← Json.Reader.last Json.Reader.text d).getD "" }
  | "blockOwnerDeletion" =>
    return { o with blocksDeletion := ← Json.Reader.last Json.Reader.bool d }
  | "controller" => return { o with isController := ← Json.Reader.last Json.Reader.bool d }
  | "kind" => return { o with kind := (← Json.Reader.last Json.Reader.text d).getD "" }
  | "name" => return { o with name := (← Json.Reader.last Json.Reader.text d).getD "" }
  | "uid" => return { o with uid := (← Json.Reader.last Json.Reader.text d).getD "" }
  | _ => do d.skip; return o

/-- Reads an owner. -/
def read : Json.Reader Owner := Json.Reader.plain put {}

/-- An owner as a value. -/
def toJson (o : Owner) : Json :=
  .object (Json.present [
    ("apiVersion", some (.text o.apiVersion)),
    ("blockOwnerDeletion", o.blocksDeletion.map .bool),
    ("controller", o.isController.map .bool),
    ("kind", some (.text o.kind)),
    ("name", some (.text o.name)),
    ("uid", some (.text o.uid))])

end Owner

/-- Which fields of an object somebody manages (`ManagedFieldsEntry`). -/
structure Management where
  apiVersion : Option String := none
  fieldsType : Option String := none
  fields : Option Json := none
  manager : Option String := none
  operation : Option String := none
  subresource : Option String := none
  time : Option Instant := none
deriving DecidableEq, Inhabited

namespace Management

/-- Reads a member of a management entry in which at most so many containers are nested. -/
def put (room : Nat) (m : Management) (name : String) (d : Json.Document) :
    Except Json.Fault Management :=
  match name with
  | "apiVersion" => return { m with apiVersion := ← Json.Reader.last Json.Reader.text d }
  | "fieldsType" => return { m with fieldsType := ← Json.Reader.last Json.Reader.text d }
  | "fieldsV1" => return { m with fields := ← Json.Reader.last (Json.ofDocument (room - 1)) d }
  | "manager" => return { m with manager := ← Json.Reader.last Json.Reader.text d }
  | "operation" => return { m with operation := ← Json.Reader.last Json.Reader.text d }
  | "subresource" => return { m with subresource := ← Json.Reader.last Json.Reader.text d }
  | "time" => return { m with time := ← Json.Reader.last Instant.read d }
  | _ => do d.skip; return m

/-- Reads a management entry in which at most so many containers are nested. -/
def read (room : Nat) : Json.Reader Management := Json.Reader.plain (put room) {}

/-- A management entry as a value. -/
def toJson (m : Management) : Json :=
  .object (Json.present [
    ("apiVersion", m.apiVersion.map .text),
    ("fieldsType", m.fieldsType.map .text),
    ("fieldsV1", m.fields),
    ("manager", m.manager.map .text),
    ("operation", m.operation.map .text),
    ("subresource", m.subresource.map .text),
    ("time", m.time.map Instant.toJson)])

end Management

/-! ### Lists -/

/-- Reads what a list says of itself: its version. -/
def readListVersion : Json.Reader (Option String) :=
  Json.Reader.plain (fun v name d =>
    match name with
    | "continue" => do let _ ← Json.Reader.last Json.Reader.text d; return v
    | "remainingItemCount" => do let _ ← Json.Reader.last Json.Reader.int64 d; return v
    | "resourceVersion" => Json.Reader.last Json.Reader.text d
    | "selfLink" => do let _ ← Json.Reader.last Json.Reader.text d; return v
    | _ => do d.skip; return v) none

/-! ### Metadata -/

/-- What an object says of itself (`ObjectMeta`). -/
structure Metadata where
  annotations : Option Labels := none
  creationTimestamp : Option Instant := none
  deletionGracePeriodSeconds : Option Int := none
  deletionTimestamp : Option Instant := none
  finalizers : Option (List String) := none
  generateName : Option String := none
  generation : Option Int := none
  labels : Option Labels := none
  managedFields : Option (List Management) := none
  name : Option String := none
  inNamespace : Option String := none
  owners : Option (List Owner) := none
  resourceVersion : Option String := none
  selfLink : Option String := none
  uid : Option String := none
deriving DecidableEq, Inhabited

namespace Metadata

/-- The name of the object, or the stem of a name to be generated, or nothing (`name_any`). -/
def anyName (m : Metadata) : String := (m.name.or m.generateName).getD ""

/-- The namespace that an object without one is found in. -/
def defaultNamespace : String := "default"

/-- The namespace of the object. -/
def namespaceName (m : Metadata) : String := m.inNamespace.getD defaultNamespace

/-- Whether the object is marked deleted. -/
def isDeleted (m : Metadata) : Bool := m.deletionTimestamp.isSome

/-- Whether a finalizer is on the object. -/
def hasFinalizer (m : Metadata) (finalizer : String) : Bool :=
  (m.finalizers.getD []).contains finalizer

/-- Reads a member of metadata in which at most so many containers are nested. -/
def put (room : Nat) (m : Metadata) (name : String) (d : Json.Document) :
    Except Json.Fault Metadata :=
  match name with
  | "annotations" => return { m with annotations := ← Json.Reader.last Labels.read d }
  | "creationTimestamp" => return { m with creationTimestamp := ← Json.Reader.last Instant.read d }
  | "deletionGracePeriodSeconds" =>
    return { m with deletionGracePeriodSeconds := ← Json.Reader.last Json.Reader.int64 d }
  | "deletionTimestamp" => return { m with deletionTimestamp := ← Json.Reader.last Instant.read d }
  | "finalizers" =>
    return { m with finalizers := ← Json.Reader.last (Json.Reader.list Json.Reader.text) d }
  | "generateName" => return { m with generateName := ← Json.Reader.last Json.Reader.text d }
  | "generation" => return { m with generation := ← Json.Reader.last Json.Reader.int64 d }
  | "labels" => return { m with labels := ← Json.Reader.last Labels.read d }
  | "managedFields" =>
    return { m with
      managedFields := ← Json.Reader.last (Json.Reader.list (Management.read (room - 2))) d }
  | "name" => return { m with name := ← Json.Reader.last Json.Reader.text d }
  | "namespace" => return { m with inNamespace := ← Json.Reader.last Json.Reader.text d }
  | "ownerReferences" =>
    return { m with owners := ← Json.Reader.last (Json.Reader.list Owner.read) d }
  | "resourceVersion" => return { m with resourceVersion := ← Json.Reader.last Json.Reader.text d }
  | "selfLink" => return { m with selfLink := ← Json.Reader.last Json.Reader.text d }
  | "uid" => return { m with uid := ← Json.Reader.last Json.Reader.text d }
  | _ => do d.skip; return m

/-- Reads metadata in which at most so many containers are nested. -/
def read (room : Nat) : Json.Reader Metadata := Json.Reader.plain (put room) {}

/-- Metadata as a value: the members that are there, in the order of their names. -/
def toJson (m : Metadata) : Json :=
  .object (Json.present [
    ("annotations", m.annotations.map Labels.toJson),
    ("creationTimestamp", m.creationTimestamp.map Instant.toJson),
    ("deletionGracePeriodSeconds", m.deletionGracePeriodSeconds.map .int),
    ("deletionTimestamp", m.deletionTimestamp.map Instant.toJson),
    ("finalizers", m.finalizers.map Json.texts),
    ("generateName", m.generateName.map .text),
    ("generation", m.generation.map .int),
    ("labels", m.labels.map Labels.toJson),
    ("managedFields", m.managedFields.map fun l => .array (l.map Management.toJson)),
    ("name", m.name.map .text),
    ("namespace", m.inNamespace.map .text),
    ("ownerReferences", m.owners.map fun l => .array (l.map Owner.toJson)),
    ("resourceVersion", m.resourceVersion.map .text),
    ("selfLink", m.selfLink.map .text),
    ("uid", m.uid.map .text)])

/-! ### Finalizers -/

/-- The metadata with a finalizer at the end of the list (`with_finalizer`); none if it is there
already. -/
def addFinalizer? (m : Metadata) (finalizer : String) : Option Metadata :=
  if m.hasFinalizer finalizer then none
  else some { m with finalizers := some (m.finalizers.getD [] ++ [finalizer]) }

/-- The metadata without a finalizer, wherever it stood (`without_finalizer`); none if it is not
there. -/
def removeFinalizer? (m : Metadata) (finalizer : String) : Option Metadata :=
  if m.hasFinalizer finalizer then
    some { m with finalizers := some ((m.finalizers.getD []).filter (· != finalizer)) }
  else none

end Metadata

end NodeFencing
