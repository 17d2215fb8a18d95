/-
A client of the server of a cluster: calls become requests, replies become answers.

The client sends one request for a call and takes one reply for it; a call that cannot
be put as a request sends none.  Every request is noted with the time at which it was
sent.  Time goes by only in sessions.
-/
import NodeFencing.Api.Reply
import NodeFencing.Health

namespace NodeFencing.Api

/-- A client and what it is connected to (`KubeClusterClient` and `PodExecutor`). -/
structure Client where
  settings : Settings := {}
  /-- Whether of the streams of a session the error stream is heard to its end first. -/
  stderrFirst : Bool := false
  reporter : Reporter := {}
  /-- What the server will reply. -/
  replies : List Reply := []
  /-- What was sent, and at which millisecond, latest first. -/
  sent : List (Nat × Request) := []
  /-- The milliseconds that went by. -/
  elapsed : Nat := 0
  /-- The millisecond from which on nothing happens any more, if there is one. -/
  deadline : Option Nat := none
  /-- The time. -/
  now : Instant
  health : Option Health := none

namespace Client

/-- The fault of a server that has nothing left to reply. -/
def exhausted : ClusterFault := .transport "no answer scripted"

/-- Notes a request. -/
def note (c : Client) (r : Request) : Client := { c with sent := (c.elapsed, r) :: c.sent }

/-- Whether the deadline has come. -/
def isOver (c : Client) : Bool := c.deadline.any (· ≤ c.elapsed)

/-- Sends a request and takes the reply. -/
def send (c : Client) (request : Except ClusterFault Request) :
    Except ClusterFault Reply × Client :=
  match request with
  | .error f => (.error f, c)
  | .ok r =>
    if c.isOver then (.error exhausted, c)
    else
      let c := c.note r
      match c.replies with
      | [] => (.error exhausted, c)
      | reply :: rest => (.ok reply, { c with replies := rest })

/-- Asks for a value. -/
def ask {α : Type} (c : Client) (request : Except ClusterFault Request) (read : Json.Reader α) :
    Except Error α × Client :=
  let (reply, c) := c.send request
  ((reply.bind (Reply.value read)).mapError .cluster, c)

/-- A refusal that says that an object is not there is an answer too. -/
def absentOk {α : Type} (answer : Except Error α) : Except Error (Option α) :=
  match answer with
  | .ok a => .ok (some a)
  | .error e => if e.refusal?.any (fun r => r.reason == "NotFound") then .ok none else .error e

/-- Asks for a value and keeps a part of it. -/
def askFor {α β : Type} (c : Client) (request : Except ClusterFault Request)
    (read : Json.Reader α) (f : α → β) : Except Error β × Client :=
  let (answer, c) := c.ask request read
  (answer.map f, c)

/-- Asks for an object that may be absent. -/
def find {α : Type} (c : Client) (request : Except ClusterFault Request) (read : Json.Reader α) :
    Except Error (Option α) × Client :=
  let (answer, c) := c.ask request read
  (absentOk answer, c)

/-- Runs a command in a session (`PodExecutor::execute`). -/
def execute (c : Client) (pod : Pod) (command : List String) : Except Error Output × Client :=
  let (reply, c) := c.send (Request.execute c.settings.agentContainer pod command)
  match reply.bind Reply.frames with
  | .error f => (.error (.cluster f), c)
  | .ok frames =>
    let t := Session.transcript frames
    let timeout := c.settings.fenceAgentTimeout
    let result := t.result c.stderrFirst timeout
    (result.mapError .execution, { c with elapsed := c.elapsed + t.elapsed timeout })

/-- Publishes an event (`publish_event`); whether that works does not matter. -/
def publish (c : Client) (about : Remediation) (e : Event) : Client :=
  (c.send (Request.publishEvent c.reporter about e c.now)).2

/-- The client after an observation. -/
def observe (c : Client) (o : Observation) : Client :=
  if c.isOver then c else { c with health := c.health.map fun h => h.observe o 0.0 c.now }

/-- The answer to a call, and the client after it (`ClusterClient` and `FenceAgentExecutor`). -/
def serve : (c : Call) → Client → c.Answer × Client
  | .getRemediation inNamespace name, c =>
    c.find (Request.getRemediation inNamespace name) Remediation.read
  | .replaceRemediation r, c => c.ask (Request.replaceRemediation r) Remediation.read
  | .patchStatus inNamespace name s, c =>
    c.askFor (Request.patchStatus inNamespace name s) Remediation.read fun _ => ()
  | .listNodeNames, c =>
    c.askFor Request.listNodeNames (Reply.readList Reply.readMetadata) fun l =>
      l.2.map Metadata.anyName
  | .getNode name, c => c.find (Request.getNode name) Node.read
  | .replaceNode n, c => c.ask (Request.replaceNode n) Node.read
  | .listPods inNamespace selector, c =>
    c.askFor (Request.listPods inNamespace selector) (Reply.readList (Pod.read (Json.nesting - 2)))
      Prod.snd
  | .publishEvent about e, c => ((), c.publish about e)
  | .execute pod command, c => c.execute pod command
  | .readClock, c => (c.now, c)
  | .observe o, c => ((), c.observe o)

end Client

end NodeFencing.Api
