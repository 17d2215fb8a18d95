/-
The world that a pass runs in: a cluster, a fence agent, a clock, and the health of the
controller.

`World.serve` answers calls.  The agent gives its answers in turn and reboots when it has
none left; the clock stands still.
-/
import NodeFencing.Cluster
import NodeFencing.Health
import NodeFencing.Reconcile

namespace NodeFencing

/-- The world that a pass runs in (`FakeCluster` and `ScriptedExecutor`). -/
structure World where
  cluster : Cluster := {}
  /-- What the agent will answer. -/
  answers : List (Except Error Output) := []
  /-- The time. -/
  now : Instant
  /-- The health of the controller, if it is kept. -/
  health : Option Health := some {}

namespace World

/-- The world with a cluster after a write. -/
def written {α : Type} (w : World) (r : α × Cluster) : α × World :=
  (r.1, { w with cluster := r.2 })

/-- The next answer of the agent. -/
def execute (w : World) : Except Error Output × World :=
  match w.answers with
  | [] => (.ok ⟨Output.rebooted, ""⟩, w)
  | answer :: rest => (answer, { w with answers := rest })

/-- The world after an observation. -/
def observe (w : World) (o : Observation) : World :=
  { w with health := w.health.map fun h => h.observe o 0.0 w.now }

/-- The answer to a call, and the world after it. -/
def serve : (c : Call) → World → c.Answer × World
  | .getRemediation inNamespace name, w => (.ok (w.cluster.remediation? inNamespace name), w)
  | .replaceRemediation r, w => w.written (w.cluster.replaceRemediation r)
  | .patchStatus inNamespace name s, w => w.written (w.cluster.patchStatus inNamespace name s)
  | .listNodeNames, w => (.ok w.cluster.nodeNames, w)
  | .getNode name, w => (.ok (w.cluster.node? name), w)
  | .replaceNode n, w => w.written (w.cluster.replaceNode n)
  | .listPods inNamespace selector, w =>
    (.ok (w.cluster.selectPods inNamespace (.ofText selector)), w)
  | .publishEvent _ _, w => ((), w)
  | .execute _ _, w => w.execute
  | .readClock, w => (w.now, w)
  | .observe o, w => ((), w.observe o)

end World

end NodeFencing
