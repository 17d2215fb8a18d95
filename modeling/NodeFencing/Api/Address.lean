/-
Addresses of the objects of a cluster.

Objects live in collections, which may be those of a namespace or of the whole cluster.
An address is a path and perhaps a query.  Names go into a path as they are, so one with
a question mark or a hash cuts the path short, and one with a character that no path may
have makes no address at all.  Nor is there an address beyond a number of bytes.
-/
import NodeFencing.Error
import NodeFencing.Remediation
import NodeFencing.Text.Form

namespace NodeFencing.Api

/-- Where something is asked for. -/
structure Address where
  path : String
  query : Option String := none
deriving DecidableEq, Repr, Inhabited

namespace Address

/-- Whether a character may stand in a path. -/
def isPathChar (c : Char) : Bool :=
  let n := c.toNat
  n == 0x21 || (0x24 ≤ n && n ≤ 0x3B) || n == 0x3D || (0x40 ≤ n && n ≤ 0x5F) ||
    (0x61 ≤ n && n ≤ 0x7A) || n == 0x7C || n == 0x7E || n == 0x22 || n == 0x7B || n == 0x7D ||
    0x7F ≤ n

/-- Whether a character may stand in a query. -/
def isQueryChar (c : Char) : Bool :=
  let n := c.toNat
  n == 0x21 || (0x24 ≤ n && n ≤ 0x3B) || n == 0x3D || 0x3F ≤ n

/-- The address that characters are: a path, a query after a question mark, and nothing that
stands after a hash. -/
def ofChars? (cs : List Char) : Option Address :=
  let cs := cs.takeWhile (· != '#')
  let path := cs.takeWhile (· != '?')
  if path.all isPathChar then
    match cs.dropWhile (· != '?') with
    | [] => some ⟨String.ofList path, none⟩
    | _ :: query =>
      if query.all isQueryChar then some ⟨String.ofList path, some (String.ofList query)⟩
      else none
  else none

/-- The bytes that an address has at most. -/
def maxBytes : Nat := 65534

/-- The characters of a path, and perhaps of a query after it. -/
def chars (path : String) (query : Option Query) : List Char :=
  match query with
  | none => path.toList
  | some q => path.toList ++ '?' :: q.chars

/-- The address of a path, and perhaps a query. -/
def make (path : String) (query : Option Query) : Except ClusterFault Address :=
  let cs := chars path query
  if maxBytes < (Utf8.encode cs).length then .error .addressTooLong
  else
    match ofChars? cs with
    | some a => .ok a
    | none => .error .unaddressable

end Address

/-! ### Collections -/

/-- The kinds of object that are asked for. -/
inductive Collection where
  | remediations
  | nodes
  | pods
  | events
deriving DecidableEq, Repr, Inhabited

namespace Collection

/-- The version of the interface that a kind of object belongs to. -/
def version : Collection → String
  | .remediations => "/apis/" ++ Remediation.apiVersion
  | .nodes | .pods => "/api/v1"
  | .events => "/apis/events.k8s.io/v1"

/-- The name of a kind of object in a path. -/
def plural : Collection → String
  | .remediations => "fenceagentsremediations"
  | .nodes => "nodes"
  | .pods => "pods"
  | .events => "events"

/-- The path of a collection, of a namespace or of the whole cluster. -/
def path (c : Collection) (inNamespace : Option String) : String :=
  match inNamespace with
  | some n => c.version ++ "/namespaces/" ++ n ++ "/" ++ c.plural
  | none => c.version ++ "/" ++ c.plural

/-- The path of an object of a collection, which needs a name. -/
def member (c : Collection) (inNamespace : Option String) (name : String) :
    Except ClusterFault String :=
  if name = "" then .error .nameless else .ok (c.path inNamespace ++ "/" ++ name)

end Collection

end NodeFencing.Api
