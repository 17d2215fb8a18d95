/-
Sessions with a pod: running a command there and reading what it prints.

A session is a run of frames.  Some carry bytes of one of the two output streams; one
carries a status and ends the session; and time goes by between them.  What a session
gives depends on the bytes of each stream, on the status and on how the session ended,
not on how the bytes were cut into frames.
-/
import NodeFencing.Metadata
import NodeFencing.Output
import NodeFencing.Text.Blank
import NodeFencing.Text.Utf8

namespace NodeFencing

/-- One step of a session. -/
inductive Frame where
  | stdout (bytes : List UInt8)
  | stderr (bytes : List UInt8)
  /-- The status of the command, as a text; an empty one is none. -/
  | status (text : String)
  /-- Nothing for some milliseconds. -/
  | pause (milliseconds : Nat)
  /-- Nothing for ever. -/
  | hang
  /-- The connection is lost. -/
  | drop
deriving DecidableEq, Repr

namespace Session

/-- What is noted of a command that ran to its end (`SUCCESS_COMMAND_LOG`). -/
def completed : String := "command completed successfully"

/-- How a session ended. -/
inductive Close where
  /-- With the status of the command. -/
  | status (text : String)
  /-- With a close, without a status. -/
  | clean
  /-- Because the connection was lost. -/
  | dropped
  /-- Not at all. -/
  | never
deriving DecidableEq, Repr, Inhabited

/-- What came out of a session: the bytes of the streams, the time it took, and its end. -/
structure Transcript where
  stdout : List UInt8
  stderr : List UInt8
  milliseconds : Nat
  close : Close
deriving DecidableEq, Repr, Inhabited

/-- What comes out of a run of frames. -/
def transcript : List Frame → Transcript
  | [] => ⟨[], [], 0, .clean⟩
  | .stdout bytes :: rest =>
    let t := transcript rest
    { t with stdout := bytes ++ t.stdout }
  | .stderr bytes :: rest =>
    let t := transcript rest
    { t with stderr := bytes ++ t.stderr }
  | .status text :: rest =>
    if text = "" then transcript rest else ⟨[], [], 0, .status text⟩
  | .pause n :: rest =>
    let t := transcript rest
    { t with milliseconds := n + t.milliseconds }
  | .hang :: _ => ⟨[], [], 0, .never⟩
  | .drop :: _ => ⟨[], [], 0, .dropped⟩

/-! ### The status of a command -/

/-- What a command says of itself at its end (`Status`). -/
structure CommandStatus where
  status : Option String := none
  message : Option String := none
deriving DecidableEq, Repr, Inhabited

namespace CommandStatus

/-- Reads one of the causes of a failure, of which nothing is kept. -/
def readCause : Json.Reader Unit :=
  Json.Reader.plain (fun _ name d =>
    match name with
    | "field" | "message" | "reason" => do let _ ← Json.Reader.last Json.Reader.text d
    | _ => d.skip) ()

/-- Reads the details of a failure, of which nothing is kept. -/
def readDetails : Json.Reader Unit :=
  Json.Reader.plain (fun _ name d =>
    match name with
    | "causes" => do let _ ← Json.Reader.last (Json.Reader.list readCause) d
    | "group" | "kind" | "name" | "uid" => do let _ ← Json.Reader.last Json.Reader.text d
    | "retryAfterSeconds" => do let _ ← Json.Reader.last Json.Reader.int32 d
    | _ => d.skip) ()

/-- Reads a member of a status. -/
def put (s : CommandStatus) (name : String) (d : Json.Document) :
    Except Json.Fault CommandStatus :=
  match name with
  | "apiVersion" => do Json.Reader.exactly "v1" d; return s
  | "kind" => do Json.Reader.exactly "Status" d; return s
  | "code" => do let _ ← Json.Reader.last Json.Reader.int32 d; return s
  | "details" => do let _ ← Json.Reader.last readDetails d; return s
  | "metadata" => do let _ ← Json.Reader.last readListVersion d; return s
  | "reason" => do let _ ← Json.Reader.last Json.Reader.text d; return s
  | "message" => return { s with message := ← Json.Reader.last Json.Reader.text d }
  | "status" => return { s with status := ← Json.Reader.last Json.Reader.text d }
  | _ => do d.skip; return s

/-- Reads a status. -/
def read : Json.Reader CommandStatus := Json.Reader.plain put {}

end CommandStatus

/-! ### The result -/

/-- What the end of a session makes of the output. -/
def conclude (o : Output) : Close → Except ExecutionFault Output
  | .status text =>
    match Json.decode CommandStatus.read text with
    | .error f => .error (.session (.unreadableStatus f))
    | .ok s =>
      if s.status = some "Failure" then
        .error (.exited (s.message.getD "") (Text.trim o.stderr))
      else .ok o
  | .clean => .ok o
  | .dropped | .never => .error (.session .connectionLost)

/-- The texts of the two streams (`read_stream`).  Where neither is text, the fault is that of the
one which is heard to its end first. -/
def Transcript.texts (t : Transcript) (stderrFirst : Bool) : Except Utf8.Fault Output :=
  match Utf8.decode t.stdout, Utf8.decode t.stderr with
  | .ok stdout, .ok stderr => .ok ⟨stdout, stderr⟩
  | .ok _, .error f => .error f
  | .error f, .ok _ => .error f
  | .error f, .error g => .error (if stderrFirst then g else f)

/-- The output of a session that came to an end (`PodExecutor::run`). -/
def Transcript.output (t : Transcript) (stderrFirst : Bool) : Except ExecutionFault Output := do
  conclude (← (t.texts stderrFirst).mapError .notText) t.close

/-- Whether a session is still on when its time is up. -/
def Transcript.isLate (t : Transcript) (timeout : Nat) : Bool :=
  t.close == .never || timeout ≤ t.milliseconds

/-- The output of a session that may take some milliseconds (`PodExecutor::execute`). -/
def Transcript.result (t : Transcript) (stderrFirst : Bool) (timeout : Nat) :
    Except ExecutionFault Output :=
  if t.isLate timeout then .error (.timedOut (timeout / 1000)) else t.output stderrFirst

/-- The time after which a session is over or given up. -/
def Transcript.elapsed (t : Transcript) (timeout : Nat) : Nat :=
  if t.isLate timeout then timeout else t.milliseconds

end Session

end NodeFencing
