/-
The controller: which requests are reconciled, and when.

The controller lists the requests and then watches them.  A request is reconciled when
it is listed, whenever it is added or modified, and again after the time that its last
reconciliation asked for, whichever comes first.  What is watched while a reconciliation
runs waits until it is over.  A request that was deleted is not reconciled any more.
-/
import NodeFencing.Api.Client
import NodeFencing.Reconcile

namespace NodeFencing

/-- What is watched. -/
inductive Change where
  /-- A request was added or modified. -/
  | applied (r : Remediation)
  /-- A request was deleted. -/
  | deleted (r : Remediation)
  /-- Something that does not matter. -/
  | other
deriving DecidableEq, Inhabited

namespace Change

/-- What was found of a change so far. -/
structure Found where
  type : Option String := none
  object : Option (Except Json.Fault Remediation) := none

/-- Reads a member of a change. -/
def put (f : Found) (name : String) (d : Json.Document) : Except Json.Fault Found :=
  match name with
  | "type" => return { f with type := some (← Json.Reader.text d) }
  | "object" => return { f with object := some (Remediation.readWithin (Json.nesting - 1) d) }
  | _ => do d.skip; return f

/-- Reads a change. -/
def read : Json.Reader Change := fun d => do
  let f ← Json.Reader.plain put {} d
  let object ← Json.Reader.required f.object
  match f.type with
  | some "ADDED" | some "MODIFIED" => return .applied (← object)
  | some "DELETED" => return .deleted (← object)
  | _ => return .other

/-- The change that a line tells of. -/
def ofLine (line : String) : Change :=
  match Json.decode read line with
  | .ok c => c
  | .error _ => .other

end Change

/-- The controller at work (`run_controller`). -/
structure Controller where
  client : Api.Client
  /-- The requests that are known. -/
  store : Ordered (String × String) Remediation := .empty
  /-- When requests are to be reconciled, in milliseconds. -/
  due : Ordered (String × String) Nat := .empty
  /-- What will be watched, and at which millisecond. -/
  changes : List (Nat × Change) := []

namespace Controller

/-- The path of the requests that are watched (`scoped_api`). -/
def path (s : Settings) : String := Api.Collection.remediations.path s.watchNamespace

/-- Lists the requests. -/
def listRequest (s : Settings) : Except ClusterFault Api.Request := do
  return { address := ← Api.Address.make (path s) (some [("limit", "500")]) }

/-- Watches the requests from a version on. -/
def watchRequest (s : Settings) (version : String) : Except ClusterFault Api.Request := do
  return {
    address := ← Api.Address.make (path s)
      (some [("watch", "true"), ("timeoutSeconds", "290"), ("allowWatchBookmarks", "true"),
        ("resourceVersion", version)]) }

/-- Notes a request that is answered elsewhere. -/
def note (c : Api.Client) (r : Except ClusterFault Api.Request) : Api.Client :=
  match r with
  | .ok r => c.note r
  | .error _ => c

/-- Has a request reconciled at a time, or earlier if that is due already. -/
def schedule (c : Controller) (key : String × String) (time : Nat) : Controller :=
  { c with due := c.due.alter key fun old => min (old.getD time) time }

/-- The controller after a change at a time. -/
def apply (c : Controller) (time : Nat) : Change → Controller
  | .applied r => { c with store := c.store.insert r.key r }.schedule r.key time
  | .deleted r => { c with store := c.store.erase r.key }
  | .other => c

/-- The request that is due first, and when. -/
def earliest : List ((String × String) × Nat) → Option ((String × String) × Nat)
  | [] => none
  | e :: rest =>
    match earliest rest with
    | none => some e
    | some e' => some (if e'.2 < e.2 then e' else e)

/-- The controller at a time that is not before the time it is at. -/
def wait (c : Controller) (time : Nat) : Controller :=
  { c with client := { c.client with elapsed := max c.client.elapsed time } }

/-- Reconciles a request that is due; one that is not known any more is left alone. -/
def reconcile (c : Controller) (key : String × String) (time : Nat) : Controller :=
  let c := { c with due := c.due.erase key }.wait time
  match c.store.get? key with
  | none => c
  | some r =>
    let (action, client) := (Reconcile.settle c.client.settings r).run Api.Client.serve c.client
    let c := { c with client := client }
    match action with
    | .awaitChange => c
    | .requeue seconds => c.schedule key (client.elapsed + 1000 * seconds)

/-- What happens next before the end: a change, if it is not later than the reconciliation that
is due first, or that reconciliation. -/
def step? (c : Controller) (stop : Nat) : Option Controller :=
  let now := c.client.elapsed
  match c.changes, earliest c.due.entries with
  | [], none => none
  | (time, change) :: rest, none =>
    if max now time < stop then some ({ c with changes := rest }.wait time |>.apply time change)
    else none
  | [], some (key, time) => if max now time < stop then some (c.reconcile key time) else none
  | (changed, change) :: rest, some (key, time) =>
    if changed ≤ max now time then
      if max now changed < stop then
        some ({ c with changes := rest }.wait changed |>.apply changed change)
      else none
    else if max now time < stop then some (c.reconcile key time)
    else none

/-- Lets things happen until the end, at most so many of them. -/
def steps (stop : Nat) : Nat → Controller → Controller
  | 0, c => c
  | fuel + 1, c =>
    match c.step? stop with
    | some c => steps stop fuel c
    | none => c

/-- The changes with the milliseconds at which they come, from the pauses before them. -/
def timed : Nat → List (Nat × String) → List (Nat × Change)
  | _, [] => []
  | now, (pause, line) :: rest => (now + pause, .ofLine line) :: timed (now + pause) rest

/-- The controller when it has listed the requests and begins to watch them. -/
def start (client : Api.Client) (list : String) (lines : List (Nat × String)) : Controller :=
  let client := { client with
    health := client.health.map fun h => { h with ready := true } }
  let client := note client (listRequest client.settings)
  match Json.decode (Api.Reply.readList (Remediation.readWithin (Json.nesting - 2))) list with
  | .error _ => { client := client }
  | .ok (version, items) =>
    let client := note client (watchRequest client.settings (version.getD ""))
    let c : Controller := { client := client, changes := timed 0 lines }
    items.foldl (fun c r => c.apply client.elapsed (.applied r)) c

/-- A bound for the number of things that happen: every reconciliation that is not due to a
change comes at least a second after the one before. -/
def bound (c : Controller) (stop : Nat) : Nat :=
  (c.changes.length + c.due.size + 1) * (stop / 1000 + 3)

/-- Runs the controller for some milliseconds. -/
def run (client : Api.Client) (list : String) (lines : List (Nat × String)) (stop : Nat) :
    Controller :=
  let c := start { client with deadline := some stop } list lines
  steps stop (c.bound stop) c

end Controller

end NodeFencing
