/-
What a fence agent printed, and whether it has the shape of a success.
-/
import NodeFencing.Error

namespace NodeFencing

/-- What a command printed (`ExecOutput`). -/
structure Output where
  stdout : String
  stderr : String
deriving DecidableEq, Inhabited

namespace Output

/-- What an agent prints after a reboot that went well (`SUCCESS_FA_RESPONSE`). -/
def rebooted : String := "Success: Rebooted"

/-- Whether something was printed, and nothing of it on the error stream. -/
def isSuccess (o : Output) : Bool := o.stderr == "" && o.stdout != ""

/-- The text of a success (`validate_response`). -/
def validate (o : Output) : Except Error String :=
  if o.isSuccess then .ok o.stdout else .error (.unexpectedResponse o.stdout o.stderr)

end Output

end NodeFencing
