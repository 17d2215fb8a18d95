/-
Programs: what a pass asks of the world, call by call.

A program is done, or makes a call and goes on with the answer.  It says nothing of how
calls are answered: `run` lets a state answer them, and other runs may interleave two
programs or let calls fail.  Every call has its own type of answer, so a program cannot
meet an answer that it did not ask for.
-/
import NodeFencing.Event
import NodeFencing.Node
import NodeFencing.Output
import NodeFencing.Pod
import NodeFencing.Remediation

namespace NodeFencing

/-- How a run of the agent ended (`ExecutionOutcome`). -/
inductive ExecutionOutcome where
  | success
  | failure
  | unexpectedResponse
deriving DecidableEq, Repr, Inhabited

/-- What the metrics are told. -/
inductive Observation where
  /-- The agent was run. -/
  | execution (o : ExecutionOutcome)
  /-- A pass ended well. -/
  | reconciled (inNamespace name : String)
  /-- A pass failed. -/
  | failed (inNamespace name : String)
deriving DecidableEq, Repr, Inhabited

/-- What can be asked of the world (`ClusterClient` and `FenceAgentExecutor`, the clock and the
metrics). -/
inductive Call where
  /-- The request of a name. -/
  | getRemediation (inNamespace name : String)
  /-- Put a request in the place of the one that was read. -/
  | replaceRemediation (r : Remediation)
  /-- Write the status of a request. -/
  | patchStatus (inNamespace name : String) (s : Status)
  /-- The names of all nodes. -/
  | listNodeNames
  /-- The node of a name. -/
  | getNode (name : String)
  /-- Put a node in the place of the one that was read. -/
  | replaceNode (n : Node)
  /-- The pods that a selector picks. -/
  | listPods (inNamespace selector : String)
  /-- Tell of a request. -/
  | publishEvent (about : Remediation) (e : Event)
  /-- Run a command in a pod. -/
  | execute (pod : Pod) (command : List String)
  /-- The time. -/
  | readClock
  /-- Tell the metrics. -/
  | observe (o : Observation)

/-- What a call is answered with. -/
abbrev Call.Answer : Call → Type
  | .getRemediation _ _ => Except Error (Option Remediation)
  | .replaceRemediation _ => Except Error Remediation
  | .patchStatus _ _ _ => Except Error Unit
  | .listNodeNames => Except Error (List String)
  | .getNode _ => Except Error (Option Node)
  | .replaceNode _ => Except Error Node
  | .listPods _ _ => Except Error (List Pod)
  | .publishEvent _ _ => Unit
  | .execute _ _ => Except Error Output
  | .readClock => Instant
  | .observe _ => Unit

/-- A program: done, or a call and how to go on. -/
inductive Program (α : Type) : Type where
  | done (a : α)
  | call (c : Call) (next : c.Answer → Program α)

namespace Program

variable {α β σ : Type}

/-- Goes on with what a program is done with. -/
def bind : Program α → (α → Program β) → Program β
  | .done a, k => k a
  | .call c next, k => .call c fun answer => (next answer).bind k

/-- Changes what a program is done with. -/
def map (f : α → β) (p : Program α) : Program β := p.bind fun a => .done (f a)

/-- Runs a program on a state that answers calls. -/
def run (serve : (c : Call) → σ → c.Answer × σ) : Program α → σ → α × σ
  | .done a, s => (a, s)
  | .call c next, s =>
    let (answer, s) := serve c s
    run serve (next answer) s

@[simp] theorem bind_done (a : α) (k : α → Program β) : (done a).bind k = k a := rfl

@[simp] theorem bind_call (c : Call) (next : c.Answer → Program α) (k : α → Program β) :
    (call c next).bind k = call c fun answer => (next answer).bind k := rfl

/-- Running two programs in a row is running their composition. -/
theorem run_bind (serve : (c : Call) → σ → c.Answer × σ) (p : Program α) (k : α → Program β)
    (s : σ) : (p.bind k).run serve s = (k (p.run serve s).1).run serve (p.run serve s).2 := by
  induction p generalizing s with
  | done a => rfl
  | call c next ih => exact ih (serve c s).1 (serve c s).2

theorem bind_assoc {γ : Type} (p : Program α) (k : α → Program β) (l : β → Program γ) :
    (p.bind k).bind l = p.bind fun a => (k a).bind l := by
  induction p with
  | done a => rfl
  | call c next ih => simp only [bind_call, ih]

end Program

end NodeFencing
