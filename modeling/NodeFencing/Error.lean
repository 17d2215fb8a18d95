/-
What can go wrong in a pass.

Every error is a cause; its wording, its class and what is done about it are functions
of the cause.  `Error.classify` says what an error is about and `Error.isRetryable`
says whether trying again soon may help; they are separate tables and need not agree.
-/
import NodeFencing.Phase
import NodeFencing.Refusal
import NodeFencing.Text.Utf8

namespace NodeFencing

/-- Why the cluster did not answer a call as wanted. -/
inductive ClusterFault where
  /-- The cluster refused. -/
  | refused (r : Refusal)
  /-- The request or its answer was lost on the way. -/
  | transport (message : String)
  /-- The connection that the answer was to come over does not work. -/
  | connection (message : String)
  /-- A stream of answers broke off. -/
  | stream (message : String)
  /-- A line of a stream is longer than allowed. -/
  | lineTooLong
  /-- The answer is not what was asked for. -/
  | unreadable (f : Json.Fault)
  /-- An object without a name cannot be asked for. -/
  | nameless
  /-- A name has a character that no address can have. -/
  | unaddressable
  /-- An address has more bytes than one can have. -/
  | addressTooLong
  /-- The answer to a request for a session is a plain one. -/
  | notUpgraded (statusLine : String)
  /-- The client itself could not go on, by its own account. -/
  | client (message : String)
deriving DecidableEq, Inhabited

/-- The wording of a fault of the cluster. -/
def ClusterFault.text : ClusterFault → String
  | .refused r => r.text
  | .transport m => "ServiceError: " ++ m
  | .connection m => "HyperError: " ++ m
  | .stream m => "Error reading events stream: " ++ m
  | .lineTooLong => "Error finding newline character"
  | .unreadable f => "Error deserializing response: " ++ f.message
  | .nameless =>
    "Failed to build request: failed to validate request: A non-empty name is required"
  | .unaddressable => "Failed to build request: failed to build request: invalid uri character"
  | .addressTooLong => "Failed to build request: failed to build request: uri too long"
  | .notUpgraded line =>
    "failed to upgrade to a WebSocket connection: failed to switch protocol: " ++ line
  | .client m => m

/-- Why a session with a pod went wrong. -/
inductive SessionFault where
  /-- The connection was lost without a close. -/
  | connectionLost
  /-- The status that ends the session is none. -/
  | unreadableStatus (f : Json.Fault)
deriving DecidableEq, Inhabited

/-- The wording of a fault of a session. -/
def SessionFault.text : SessionFault → String
  | .connectionLost =>
    "failed to receive a WebSocket message: WebSocket protocol error: " ++
      "Connection reset without closing handshake"
  | .unreadableStatus f => "failed to deserialize status object: " ++ f.message

/-- Why running a command gave no output. -/
inductive ExecutionFault where
  /-- The command was still running when its time was up. -/
  | timedOut (seconds : Nat)
  /-- The output is not text. -/
  | notText (f : Utf8.Fault)
  /-- The command said that it failed. -/
  | exited (message stderr : String)
  /-- The session went wrong. -/
  | session (f : SessionFault)
  /-- Somebody else's account of what went wrong. -/
  | reported (message : String)
deriving DecidableEq, Inhabited

/-- The wording of a failure to run a command. -/
def ExecutionFault.text : ExecutionFault → String
  | .timedOut seconds => "command did not finish within " ++ Json.decimalText seconds ++ "s"
  | .notText f => "failed to read command output: " ++ f.message
  | .exited message stderr =>
    "command exited with failure: " ++ message ++ " (stderr: " ++ stderr ++ ")"
  | .session f => "exec session failed: " ++ f.text
  | .reported m => m

/-- What can go wrong in a pass (`Error`). -/
inductive Error where
  /-- The cluster did not answer as wanted. -/
  | cluster (f : ClusterFault)
  /-- The request lacks one kind of parameters. -/
  | missingParameters
  /-- A node parameter has no value for the node. -/
  | missingNodeParameter (parameter node : String)
  /-- There is no pod to run the agent in. -/
  | agentPodNotFound (inNamespace selector : String)
  /-- The agent could not be run. -/
  | execution (f : ExecutionFault)
  /-- The agent ran and its answer has not the shape of a success. -/
  | unexpectedResponse (stdout stderr : String)
  /-- The pass took a step that the phases do not have. -/
  | invalidTransition (source target : Phase)
  /-- The settings do not fit together. -/
  | settings (message : String)
deriving DecidableEq, Inhabited

/-- What an error is about (`ErrorClass`). -/
inductive ErrorClass where
  /-- The request or the node is gone. -/
  | notFound
  /-- Something has to be written differently. -/
  | validation
  /-- Something around the program does not work. -/
  | transientInfra
  /-- The agent answered something else. -/
  | unexpectedResponse
deriving DecidableEq, Repr, Inhabited

namespace Error

/-- The wording of an error (`Display`). -/
def message : Error → String
  | .cluster f => "Kubernetes API error: " ++ f.text
  | .missingParameters =>
    "nodeParameters or sharedParameters or both are missing, and they cannot be empty"
  | .missingNodeParameter parameter node =>
    "node parameter " ++ parameter ++ " has no value for node " ++ node
  | .agentPodNotFound inNamespace selector =>
    "no fence agent pod found in namespace " ++ inNamespace ++ " with selector " ++ selector
  | .execution f => "fence agent execution failed: " ++ f.text
  | .unexpectedResponse stdout stderr =>
    "unknown fence agent response - expecting non-empty stdout and empty stderr, " ++
      "but received stdout `" ++ stdout ++ "` and stderr `" ++ stderr ++ "`"
  | .invalidTransition source target =>
    "invalid reconcile transition from " ++ source.name ++ " to " ++ target.name
  | .settings m => "Invalid configuration: " ++ m

/-- The refusal that the error is, if it is one. -/
def refusal? : Error → Option Refusal
  | .cluster (.refused r) => some r
  | _ => none

/-- Whether the cluster refused with a code. -/
def hasCode (e : Error) (code : Nat) : Bool := e.refusal?.any (·.code == code)

/-- Whether an object is not there (`is_not_found`). -/
def isNotFound (e : Error) : Bool := e.hasCode Refusal.notFoundCode

/-- Whether an object was changed in between (`is_conflict`). -/
def isConflict (e : Error) : Bool := e.hasCode Refusal.conflictCode

/-- What an error is about (`classify`). -/
def classify : Error → ErrorClass
  | .cluster (.refused r) =>
    if r.code = 404 then .notFound
    else if r.code = 400 ∨ r.code = 422 then .validation
    else .transientInfra
  | .cluster _ | .agentPodNotFound _ _ | .execution _ => .transientInfra
  | .missingParameters | .missingNodeParameter _ _ | .invalidTransition _ _ | .settings _ =>
    .validation
  | .unexpectedResponse _ _ => .unexpectedResponse

/-- Whether trying again soon may help (`is_retryable`). -/
def isRetryable : Error → Bool
  | .cluster (.refused r) => 500 ≤ r.code || r.code == 429 || r.code == 409
  | .cluster (.transport _) | .cluster (.connection _) | .agentPodNotFound _ _ | .execution _ =>
    true
  | _ => false

/-- The seconds after which to try again (`requeue_after`). -/
def requeueSeconds (e : Error) : Nat :=
  if e.isConflict then 1 else if e.isRetryable then 10 else 300

end Error

end NodeFencing
