/-
Rehearsals: a world in which calls can be made to fail, and others act in between.

For every method a rehearsal holds what others do at the start of its next calls, one
step a call, and how its next calls fail.  Whatever is asked of the world is noted with
its answer.
-/
import NodeFencing.World

namespace NodeFencing

/-- The calls that can be interfered with. -/
inductive Method where
  | getRemediation
  | replaceRemediation
  | patchStatus
  | listNodeNames
  | getNode
  | replaceNode
  | listPods
  | execute
deriving DecidableEq, Repr, Inhabited

/-- The method of a call, if it can be interfered with. -/
def Call.method? : Call → Option Method
  | .getRemediation _ _ => some .getRemediation
  | .replaceRemediation _ => some .replaceRemediation
  | .patchStatus _ _ _ => some .patchStatus
  | .listNodeNames => some .listNodeNames
  | .getNode _ => some .getNode
  | .replaceNode _ => some .replaceNode
  | .listPods _ _ => some .listPods
  | .execute _ _ => some .execute
  | .publishEvent _ _ | .readClock | .observe _ => none

/-- A call that fails, if it can. -/
def Call.failed? : (c : Call) → Error → Option c.Answer
  | .getRemediation _ _, e => some (.error e)
  | .replaceRemediation _, e => some (.error e)
  | .patchStatus _ _ _, e => some (.error e)
  | .listNodeNames, e => some (.error e)
  | .getNode _, e => some (.error e)
  | .replaceNode _, e => some (.error e)
  | .listPods _ _, e => some (.error e)
  | .execute _ _, e => some (.error e)
  | .publishEvent _ _, _ | .readClock, _ | .observe _, _ => none

namespace Rehearsal

/-- What can be set up. -/
inductive Step where
  /-- Others act. -/
  | edit (e : Cluster.Edit)
  /-- The next calls of a method fail, or do not. -/
  | fail (m : Method) (errors : List (Option Error))
  /-- At the start of each of the next calls of a method something is set up. -/
  | before (m : Method) (steps : List Step)
  /-- The agent will answer. -/
  | respond (answer : Except Error Output)
  | nothing

end Rehearsal

/-- A world in which calls can be made to fail, and others act in between. -/
structure Rehearsal where
  world : World
  failures : Ordered Method (List (Option Error)) := .empty
  upcoming : Ordered Method (List Rehearsal.Step) := .empty
  /-- What was asked and answered, latest first. -/
  log : List ((c : Call) × c.Answer) := []

namespace Rehearsal

/-- Sets something up. -/
def step (r : Rehearsal) : Step → Rehearsal
  | .edit e => { r with world := { r.world with cluster := r.world.cluster.edit e } }
  | .fail m errors =>
    { r with failures := r.failures.alter m fun l => l.getD [] ++ errors }
  | .before m steps =>
    { r with upcoming := r.upcoming.alter m fun l => l.getD [] ++ steps }
  | .respond answer =>
    { r with world := { r.world with answers := r.world.answers ++ [answer] } }
  | .nothing => r

/-- Takes the first of what a method has in store. -/
def takeFirst {α : Type} (m : Method) (stores : Ordered Method (List α)) :
    Option α × Ordered Method (List α) :=
  match stores.get? m with
  | some (a :: rest) => (some a, stores.insert m rest)
  | _ => (none, stores)

/-- What comes before a call of a method: others act, and the call may fail. -/
def interfere (r : Rehearsal) (m : Method) : Option Error × Rehearsal :=
  let (step?, upcoming) := takeFirst m r.upcoming
  let r := { r with upcoming := upcoming }
  let r := match step? with
    | some s => r.step s
    | none => r
  let (failure, failures) := takeFirst m r.failures
  (failure.join, { r with failures := failures })

/-- Answers a call and notes it. -/
def serve (c : Call) (r : Rehearsal) : c.Answer × Rehearsal :=
  let (failure, r) := match c.method? with
    | some m => r.interfere m
    | none => (none, r)
  let (answer, world) := match failure.bind c.failed? with
    | some answer => (answer, r.world)
    | none => r.world.serve c
  (answer, { r with world := world, log := ⟨c, answer⟩ :: r.log })

/-- Runs a program with a fresh log. -/
def run {α : Type} (p : Program α) (r : Rehearsal) : α × Rehearsal :=
  p.run serve { r with log := [] }

end Rehearsal

end NodeFencing
