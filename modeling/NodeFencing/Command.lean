/-
The command that a request stands for.

The command is the agent followed by its parameters: first the shared ones, then those
of the node, each kind in the order of the request.  Both kinds have to be given, an
empty one being enough, and every flag that has values node by node needs one for the
node.
-/
import NodeFencing.Error
import NodeFencing.Remediation

namespace NodeFencing.Command

/-- A parameter as the agent gets it (`format_param`): a flag without a value stands alone. -/
def argument (flag value : String) : String := if value = "" then flag else flag ++ "=" ++ value

/-- The shared parameters, in order. -/
def sharedArguments (shared : SharedParameters) : List String :=
  shared.entries.map fun e => argument e.1 e.2

/-- The parameters of a node, in order, or the first flag that has no value for it. -/
def nodeArguments (byNode : NodeParameters) (node : String) : Except Error (List String) :=
  byNode.entries.mapM fun e =>
    match e.2.get? node with
    | some value => .ok (argument e.1 value)
    | none => .error (.missingNodeParameter e.1 node)

/-- The parameters of the agent for a node (`build_fence_agent_params`). -/
def parameters (shared : Option SharedParameters) (byNode : Option NodeParameters)
    (node : String) : Except Error (List String) :=
  match shared, byNode with
  | some shared, some byNode => (sharedArguments shared ++ ·) <$> nodeArguments byNode node
  | _, _ => .error .missingParameters

/-- The command of a spec for a node (`build_fence_agent_command`). -/
def ofSpec (s : Spec) (node : String) : Except Error (List String) :=
  (s.agent :: ·) <$> parameters s.sharedParameters s.nodeParameters node

end NodeFencing.Command
