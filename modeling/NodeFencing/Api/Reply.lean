/-
Replies of the server of a cluster: what they say.

A reply with a code from 400 to 599 is a refusal.  If its text does not say so itself, a
refusal is made up that quotes it.
-/
import NodeFencing.Api.Request
import NodeFencing.Session

namespace NodeFencing.Api

/-- What comes back for a request. -/
inductive Reply where
  /-- A code and a text. -/
  | plain (code : Nat) (text : String)
  /-- Nothing: the request was lost. -/
  | lost (message : String)
  /-- A session. -/
  | session (frames : List Frame)
deriving DecidableEq, Repr

namespace Reply

/-- The phrases that go with codes. -/
def phrases : List (Nat × String) := [
  (100, "Continue"), (101, "Switching Protocols"), (102, "Processing"), (200, "OK"),
  (201, "Created"), (202, "Accepted"), (203, "Non Authoritative Information"),
  (204, "No Content"), (205, "Reset Content"), (206, "Partial Content"), (207, "Multi-Status"),
  (208, "Already Reported"), (226, "IM Used"), (300, "Multiple Choices"),
  (301, "Moved Permanently"), (302, "Found"), (303, "See Other"), (304, "Not Modified"),
  (305, "Use Proxy"), (307, "Temporary Redirect"), (308, "Permanent Redirect"),
  (400, "Bad Request"), (401, "Unauthorized"), (402, "Payment Required"), (403, "Forbidden"),
  (404, "Not Found"), (405, "Method Not Allowed"), (406, "Not Acceptable"),
  (407, "Proxy Authentication Required"), (408, "Request Timeout"), (409, "Conflict"),
  (410, "Gone"), (411, "Length Required"), (412, "Precondition Failed"),
  (413, "Payload Too Large"), (414, "URI Too Long"), (415, "Unsupported Media Type"),
  (416, "Range Not Satisfiable"), (417, "Expectation Failed"), (418, "I'm a teapot"),
  (421, "Misdirected Request"), (422, "Unprocessable Entity"), (423, "Locked"),
  (424, "Failed Dependency"), (425, "Too Early"), (426, "Upgrade Required"),
  (428, "Precondition Required"), (429, "Too Many Requests"),
  (431, "Request Header Fields Too Large"), (451, "Unavailable For Legal Reasons"),
  (500, "Internal Server Error"), (501, "Not Implemented"), (502, "Bad Gateway"),
  (503, "Service Unavailable"), (504, "Gateway Timeout"), (505, "HTTP Version Not Supported"),
  (506, "Variant Also Negotiates"), (507, "Insufficient Storage"), (508, "Loop Detected"),
  (510, "Not Extended"), (511, "Network Authentication Required")]

/-- A code with its phrase. -/
def statusLine (code : Nat) : String :=
  Json.decimalText code ++ " " ++ (Ordered.lookup code phrases).getD "<unknown status code>"

/-- The refusal that a text says, or one that quotes it (`handle_api_errors`). -/
def refusal (code : Nat) (text : String) : Refusal :=
  match Json.decode Refusal.read text with
  | .ok r => r
  | .error _ => ⟨statusLine code, Text.quote text, "Failed to parse error data", code⟩

/-- The text of a reply to a plain request. -/
def text : Reply → Except ClusterFault String
  | .lost message => .error (.transport message)
  | .session _ => .ok ""
  | .plain code text =>
    if 400 ≤ code ∧ code ≤ 599 then .error (.refused (refusal code text)) else .ok text

/-- The value that a reply holds. -/
def value {α : Type} (read : Json.Reader α) (r : Reply) : Except ClusterFault α := do
  (Json.decode read (← r.text)).mapError .unreadable

/-- The session that a reply opens. -/
def frames : Reply → Except ClusterFault (List Frame)
  | .lost message => .error (.transport message)
  | .plain code _ => .error (.notUpgraded (statusLine code))
  | .session frames => .ok frames

/-! ### Lists -/

/-- What was found of a list so far. -/
structure Found (α : Type) where
  version : Option (Option String) := none
  items : Option (List α) := none

/-- Reads a member of a list. -/
def putList {α : Type} (read : Json.Reader α) (f : Found α) (name : String)
    (d : Json.Document) : Except Json.Fault (Found α) :=
  match name with
  | "metadata" => return { f with version := ← Json.Reader.once readListVersion f.version d }
  | "items" =>
    return { f with
      items := ← Json.Reader.once
        (fun d => return (← Json.Reader.optional (Json.Reader.list read) d).getD []) f.items d }
  | _ => do d.skip; return f

/-- Reads a list: its version and its items, which it has to have. -/
def readList {α : Type} (read : Json.Reader α) : Json.Reader (Option String × List α) := fun d => do
  let f ← Json.Reader.plain (putList read) {} d
  return (f.version.join, ← Json.Reader.required f.items)

/-- Reads the metadata of an object of any kind in a list. -/
def readMetadata : Json.Reader Metadata := fun d => do
  let m ← Json.Reader.plain (fun (m : Option Metadata) name d =>
    match name with
    | "metadata" => Json.Reader.once (Metadata.read (Json.nesting - 3)) m d
    | _ => do d.skip; return m) none d
  return m.getD {}

end Reply

end NodeFencing.Api
