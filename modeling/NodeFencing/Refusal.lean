/-
Refusals: what the cluster answers when it does not do what it was asked to.
-/
import NodeFencing.Json.Reader
import NodeFencing.Text.Quoted

namespace NodeFencing

/-- The answer of a cluster that does not do what it was asked to (`ErrorResponse`). -/
structure Refusal where
  status : String
  message : String
  reason : String
  code : Nat
deriving DecidableEq, Inhabited

namespace Refusal

/-- The code of a refusal because the object is not there. -/
def notFoundCode : Nat := 404

/-- The code of a refusal because the object was changed in between. -/
def conflictCode : Nat := 409

/-- A refusal with all its parts, texts between quotes. -/
def details (r : Refusal) : String :=
  "ErrorResponse \x7b status: " ++ Text.quote r.status ++ ", message: " ++ Text.quote r.message ++
    ", reason: " ++ Text.quote r.reason ++ ", code: " ++ Json.decimalText r.code ++ " \x7d"

/-- The wording of a refusal. -/
def text (r : Refusal) : String :=
  "ApiError: " ++ r.message ++ ": " ++ r.reason ++ " (" ++ r.details ++ ")"

/-- What was found of a refusal so far. -/
structure Found where
  status : Option String := none
  message : Option String := none
  reason : Option String := none
  code : Option Int := none

/-- Refusals as declared objects. -/
def declared : Json.Declared Found Refusal where
  fields := ["status", "message", "reason", "code"]
  needed := 4
  start := {}
  put f name d :=
    match name with
    | "status" => return { f with status := ← Json.Reader.once Json.Reader.text f.status d }
    | "message" => return { f with message := ← Json.Reader.once Json.Reader.text f.message d }
    | "reason" => return { f with reason := ← Json.Reader.once Json.Reader.text f.reason d }
    | "code" => return { f with code := ← Json.Reader.once (Json.Reader.whole 0 65535) f.code d }
    | _ => do d.skip; return f
  finish f := do
    return {
      status := ← Json.Reader.required f.status
      message := f.message.getD ""
      reason := f.reason.getD ""
      code := (← Json.Reader.required f.code).toNat }

/-- Reads a refusal. -/
def read : Json.Reader Refusal := declared.read

end Refusal

end NodeFencing
