/-
The conditions of a request.

A condition says whether one aspect of a request holds, why, and since when.  A request
has at most one condition of a kind that this library sets: setting a condition takes
the place of the first one of its type, and keeps the time since when if the status is
what it was.
-/
import NodeFencing.Json.Reader

namespace NodeFencing

/-- The aspects of a request that conditions are set for (`ConditionType`). -/
inductive Aspect where
  /-- The node is tainted and remediation is underway. -/
  | processing
  /-- The fence agent ran and its answer had the shape of a success. -/
  | agentSucceeded
  /-- Remediation finished. -/
  | succeeded
deriving DecidableEq, Repr, Inhabited

/-- The type of the conditions for an aspect. -/
def Aspect.name : Aspect → String
  | .processing => "Processing"
  | .agentSucceeded => "FenceAgentActionSucceeded"
  | .succeeded => "Succeeded"

/-- Every aspect has a type of its own. -/
theorem Aspect.name_inj {a b : Aspect} (h : a.name = b.name) : a = b := by
  revert h
  cases a <;> cases b <;> decide

/-- What is said of one aspect of a request, and since when (`Condition`). -/
structure Condition where
  type : String
  status : String
  reason : String
  message : String
  lastTransitionTime : String
  observedGeneration : Option Int
deriving DecidableEq, Inhabited

namespace Condition

/-- The status of an aspect that holds or does not. -/
def statusOf (holds : Bool) : String := if holds then "True" else "False"

/-- What is said of an aspect at a time (`Condition::new`). -/
def make (aspect : Aspect) (holds : Bool) (reason message time : String)
    (generation : Option Int) : Condition where
  type := aspect.name
  status := statusOf holds
  reason := reason
  message := message
  lastTransitionTime := time
  observedGeneration := generation

/-! ### Setting -/

/-- The condition that takes the place of an old one: an unchanged status keeps its time. -/
def succeeding (c old : Condition) : Condition :=
  if old.status = c.status then { c with lastTransitionTime := old.lastTransitionTime } else c

/-- Sets a condition in the place of the first of its type, or at the end
(`ConditionBuilder::set`). -/
def set (c : Condition) : List Condition → List Condition
  | [] => [c]
  | old :: rest => if old.type = c.type then c.succeeding old :: rest else old :: set c rest

/-- The first condition for an aspect. -/
def find? (aspect : Aspect) (cs : List Condition) : Option Condition :=
  cs.find? (fun c => c.type == aspect.name)

/-- Whether an aspect is said to hold (`is_condition_true`). -/
def holds (aspect : Aspect) (cs : List Condition) : Bool :=
  match find? aspect cs with
  | some c => c.status == "True"
  | none => false

/-- The reason that is given for an aspect (`get_condition_reason`). -/
def reason? (aspect : Aspect) (cs : List Condition) : Option String :=
  (find? aspect cs).map Condition.reason

@[simp] theorem type_succeeding (c old : Condition) : (c.succeeding old).type = c.type := by
  unfold succeeding
  split <;> rfl

/-- The types after setting: those that were there, and the new one if it was not. -/
theorem map_type_set (c : Condition) (cs : List Condition) :
    (set c cs).map Condition.type =
      if c.type ∈ cs.map Condition.type then cs.map Condition.type
      else cs.map Condition.type ++ [c.type] := by
  induction cs with
  | nil => simp [set]
  | cons old rest ih =>
    by_cases h : old.type = c.type
    · simp [set, h]
    · have hne : ¬ c.type = old.type := fun e => h e.symm
      simp only [set, if_neg h, List.map_cons, ih, List.mem_cons, hne, false_or]
      split <;> simp

/-- Of a type that is set, what was set is found, in the place of the one that was found before
if there was one; what is found of other types is not touched. -/
theorem find?_type_set (type : String) (c : Condition) (cs : List Condition) :
    (set c cs).find? (·.type == type) =
      if c.type = type then some (((cs.find? (·.type == type)).map c.succeeding).getD c)
      else cs.find? (·.type == type) := by
  induction cs with
  | nil => by_cases h : c.type = type <;> simp [set, h]
  | cons old rest ih =>
    by_cases hold : old.type = c.type
    · rw [set, if_pos hold]
      by_cases h : c.type = type
      · simp [h, hold]
      · simp [h, hold]
    · rw [set, if_neg hold]
      by_cases h : old.type = type
      · have hne : ¬ c.type = type := fun e => hold (h.trans e.symm)
        simp [h, hne]
      · have hskip : ∀ l : List Condition,
            (old :: l).find? (·.type == type) = l.find? (·.type == type) := fun l =>
          List.find?_cons_of_neg (by simpa using h)
        rw [hskip, hskip, ih]

/-- What was set is found: in the place of the one that was found before, if there was one. -/
theorem find?_set_self {aspect : Aspect} {c : Condition} (hc : c.type = aspect.name)
    (cs : List Condition) :
    find? aspect (set c cs) = some (((find? aspect cs).map c.succeeding).getD c) :=
  (find?_type_set aspect.name c cs).trans (if_pos hc)

/-- What is found for one aspect is not touched by setting another. -/
theorem find?_set_of_ne {aspect : Aspect} {c : Condition} (hc : c.type ≠ aspect.name)
    (cs : List Condition) : find? aspect (set c cs) = find? aspect cs :=
  (find?_type_set aspect.name c cs).trans (if_neg hc)

/-! ### Reading and writing -/

/-- What was found of a condition so far. -/
structure Found where
  type : Option String := none
  status : Option String := none
  reason : Option String := none
  message : Option String := none
  lastTransitionTime : Option String := none
  observedGeneration : Option (Option Int) := none

/-- Conditions as declared objects. -/
def declared : Json.Declared Found Condition where
  fields := ["type", "status", "reason", "message", "lastTransitionTime", "observedGeneration"]
  needed := 6
  start := {}
  put f name d :=
    match name with
    | "type" => return { f with type := ← Json.Reader.once Json.Reader.text f.type d }
    | "status" => return { f with status := ← Json.Reader.once Json.Reader.text f.status d }
    | "reason" => return { f with reason := ← Json.Reader.once Json.Reader.text f.reason d }
    | "message" => return { f with message := ← Json.Reader.once Json.Reader.text f.message d }
    | "lastTransitionTime" =>
      return { f with
        lastTransitionTime := ← Json.Reader.once Json.Reader.text f.lastTransitionTime d }
    | "observedGeneration" =>
      return { f with
        observedGeneration :=
          ← Json.Reader.once (Json.Reader.optional Json.Reader.int64) f.observedGeneration d }
    | _ => do d.skip; return f
  finish f := do
    return {
      type := ← Json.Reader.required f.type
      status := ← Json.Reader.required f.status
      reason := ← Json.Reader.required f.reason
      message := ← Json.Reader.required f.message
      lastTransitionTime := ← Json.Reader.required f.lastTransitionTime
      observedGeneration := f.observedGeneration.join }

/-- Reads a condition. -/
def read : Json.Reader Condition := declared.read

/-- A condition as a value. -/
def toJson (c : Condition) : Json :=
  .object (Json.present [
    ("type", some (.text c.type)),
    ("status", some (.text c.status)),
    ("reason", some (.text c.reason)),
    ("message", some (.text c.message)),
    ("lastTransitionTime", some (.text c.lastTransitionTime)),
    ("observedGeneration", c.observedGeneration.map .int)])

end Condition

end NodeFencing
