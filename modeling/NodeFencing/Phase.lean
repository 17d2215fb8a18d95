/-
The phases of a pass.

A pass over a request goes from phase to phase by a fixed table and ends in one of two
terminal phases.  A tracker keeps the path that was taken and refuses every step that
the table does not have.
-/

namespace NodeFencing

/-- The phases of a pass (`ReconcilePhase`). -/
inductive Phase where
  /-- The request is read. -/
  | fetching
  /-- The name of the request is looked up among the nodes. -/
  | nodeValidating
  /-- The finalizer is put on, or a deletion is cleaned up after. -/
  | lifecycleHandling
  /-- The taint of the node is looked at and put on. -/
  | tainting
  /-- The command is put together. -/
  | parameterBuilding
  /-- The fence agent runs. -/
  | executing
  /-- The answer of the fence agent is looked at. -/
  | responseValidating
  /-- The pass ended well. -/
  | done
  /-- The pass failed. -/
  | failed
deriving DecidableEq, Repr, Inhabited

namespace Phase

/-- The phases, in the order in which a pass can meet them. -/
def all : List Phase :=
  [.fetching, .nodeValidating, .lifecycleHandling, .tainting, .parameterBuilding, .executing,
    .responseValidating, .done, .failed]

/-- The name of a phase. -/
def name : Phase → String
  | .fetching => "Fetching"
  | .nodeValidating => "NodeValidating"
  | .lifecycleHandling => "LifecycleHandling"
  | .tainting => "Tainting"
  | .parameterBuilding => "ParameterBuilding"
  | .executing => "Executing"
  | .responseValidating => "ResponseValidating"
  | .done => "Done"
  | .failed => "Error"

/-- The phase of a name. -/
def ofName? (s : String) : Option Phase := all.find? (fun p => p.name == s)

/-- Whether a pass ends in the phase (`is_terminal`). -/
def isTerminal : Phase → Bool
  | .done | .failed => true
  | _ => false

/-- The phases that may follow, apart from failure (`TRANSITIONS`). -/
def next : Phase → List Phase
  | .fetching => [.done, .nodeValidating]
  | .nodeValidating => [.done, .lifecycleHandling]
  | .lifecycleHandling => [.done, .tainting]
  | .tainting => [.done, .parameterBuilding]
  | .parameterBuilding => [.executing]
  | .executing => [.responseValidating]
  | .responseValidating => [.done]
  | .done | .failed => []

/-- Whether one phase may follow another (`can_transition`): by the table, or by failing before the
end. -/
def allows (source target : Phase) : Bool :=
  !source.isTerminal && (target == .failed || source.next.contains target)

end Phase

/-- The path of a pass (`PhaseTracker`): where it is, and where it was before, from the start. -/
structure Tracker where
  earlier : List Phase
  current : Phase
deriving DecidableEq, Repr, Inhabited

namespace Tracker

/-- The path of a pass that begins. -/
def start : Tracker := ⟨[], .fetching⟩

/-- The phases on the path (`visited`). -/
def visited (t : Tracker) : List Phase := t.earlier ++ [t.current]

/-- The path with one more phase on it. -/
def push (t : Tracker) (p : Phase) : Tracker := ⟨t.visited, p⟩

/-- The path after a step, if the table has it (`advance`). -/
def advance? (t : Tracker) (p : Phase) : Option Tracker :=
  if t.current.allows p then some (t.push p) else none

/-- The path after a failure (`fail`); a path that ended stays as it is. -/
def fail (t : Tracker) : Tracker := if t.current.isTerminal then t else t.push .failed

/-- What a path can be asked for. -/
inductive Move where
  /-- To go on into a phase. -/
  | advance (target : Phase)
  /-- To fail where it is. -/
  | fail
deriving DecidableEq, Repr, Inhabited

/-- What a path answers. -/
inductive Reply where
  /-- The step was taken. -/
  | taken
  /-- The table does not have the step. -/
  | rejected (source target : Phase)
  /-- The phase in which the path was when it failed. -/
  | failedIn (p : Phase)
deriving DecidableEq, Repr, Inhabited

/-- The answer of a path, and the path after it. -/
def move (t : Tracker) : Move → Reply × Tracker
  | .advance target =>
    match t.advance? target with
    | some next => (.taken, next)
    | none => (.rejected t.current target, t)
  | .fail => (.failedIn t.current, t.fail)

/-- The path after one move after the other. -/
def follow (t : Tracker) (moves : List Move) : Tracker := moves.foldl (fun t m => (t.move m).2) t

@[simp] theorem visited_push (t : Tracker) (p : Phase) :
    (t.push p).visited = t.visited ++ [p] := rfl

end Tracker

end NodeFencing
