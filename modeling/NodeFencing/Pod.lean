/-
Pods of the cluster, and the selectors that pick them by a label.
-/
import NodeFencing.Metadata

namespace NodeFencing

/-- A running unit of work (`Pod`); of it only the metadata matters here. -/
structure Pod where
  metadata : Metadata := {}
deriving DecidableEq, Inhabited

/-- A label and the value that it has to have. -/
structure Selector where
  label : String
  value : String
deriving DecidableEq, Inhabited

/-- The selector that a text names: what stands before and after its first equals sign. -/
def Selector.ofText (s : String) : Selector :=
  let cs := s.toList
  ⟨String.ofList (cs.takeWhile (· != '=')), String.ofList ((cs.dropWhile (· != '=')).drop 1)⟩

namespace Pod

/-- The name of the pod. -/
def anyName (p : Pod) : String := p.metadata.anyName

/-- Whether the pod is in exactly that namespace and carries the label of the selector. -/
def isSelected (p : Pod) (namespaceName : String) (s : Selector) : Bool :=
  p.metadata.inNamespace == some namespaceName &&
    (p.metadata.labels.getD .empty).get? s.label == some s.value

/-- Reads a member of a pod in which at most so many containers are nested. -/
def put (room : Nat) (p : Pod) (name : String) (d : Json.Document) : Except Json.Fault Pod :=
  match name with
  | "apiVersion" => do Json.Reader.exactly "v1" d; return p
  | "kind" => do Json.Reader.exactly "Pod" d; return p
  | "metadata" =>
    return { p with metadata := (← Json.Reader.last (Metadata.read (room - 1)) d).getD {} }
  | "spec" | "status" => do Json.Reader.anyObject d; return p
  | _ => do d.skip; return p

/-- Reads a pod in which at most so many containers are nested. -/
def read (room : Nat) : Json.Reader Pod := Json.Reader.plain (put room) {}

end Pod

end NodeFencing
