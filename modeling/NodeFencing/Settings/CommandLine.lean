/-
Settings from the command line and the environment.

Every setting has a flag and a variable.  A flag that is given decides; else a variable
that is set; else the default.  The words of a command line are read from left to right
into the texts that flags were given.  A flag whose value stands in the next word stays
open until the next flag, and is only then looked at; so of two mistakes the one that
is met first in this sense is reported.
-/
import NodeFencing.Settings
import NodeFencing.Ordered

namespace NodeFencing.CommandLine

/-- The name and version of the program. -/
def banner : String := "fence-agents-remediation 0.1.0\n"

/-- The flags of the program (`Args`). -/
inductive Flag where
  | watchNamespace
  | agentPodNamespace
  | agentPodSelector
  | agentContainer
  | fenceAgentTimeoutSecs
  | healthPort
  | leaderElect
  | leaseName
deriving DecidableEq, Repr, Inhabited

namespace Flag

/-- The flags in order. -/
def all : List Flag :=
  [.watchNamespace, .agentPodNamespace, .agentPodSelector, .agentContainer,
    .fenceAgentTimeoutSecs, .healthPort, .leaderElect, .leaseName]

/-- The name of a flag, without the dashes. -/
def name : Flag → String
  | .watchNamespace => "watch-namespace"
  | .agentPodNamespace => "agent-pod-namespace"
  | .agentPodSelector => "agent-pod-selector"
  | .agentContainer => "agent-container"
  | .fenceAgentTimeoutSecs => "fence-agent-timeout-secs"
  | .healthPort => "health-port"
  | .leaderElect => "leader-elect"
  | .leaseName => "lease-name"

/-- The variable that stands in for a flag. -/
def environmentName : Flag → String
  | .watchNamespace => "WATCH_NAMESPACE"
  | .agentPodNamespace => "DEPLOYMENT_NAMESPACE"
  | .agentPodSelector => "AGENT_POD_SELECTOR"
  | .agentContainer => "AGENT_CONTAINER"
  | .fenceAgentTimeoutSecs => "FENCE_AGENT_TIMEOUT_SECONDS"
  | .healthPort => "HEALTH_PORT"
  | .leaderElect => "LEADER_ELECT"
  | .leaseName => "LEASE_NAME"

/-- The flag of a name. -/
def ofName? (name : String) : Option Flag := all.find? (fun f => f.name == name)

/-- Whether a flag is followed by a value. -/
def takesValue (f : Flag) : Bool := f != .leaderElect

end Flag

/-- Why a command line gives no settings. -/
inductive Usage where
  /-- A word that is no flag and no value. -/
  | unknownArgument
  /-- A value that is missing, or a truth value that is none. -/
  | invalidValue
  /-- A number that is none, or out of range. -/
  | valueValidation
  /-- A value for a flag that takes none. -/
  | tooManyValues
  /-- A flag that is given twice. -/
  | argumentConflict
  /-- Help is wanted. -/
  | displayHelp
  /-- The version is wanted. -/
  | displayVersion
deriving DecidableEq, Repr, Inhabited

/-- The wording of a command line that gives no settings. -/
def Usage.message : Usage → String
  | .unknownArgument => "error: unexpected argument"
  | .invalidValue => "error: invalid or missing value"
  | .valueValidation => "error: invalid number"
  | .tooManyValues => "error: unexpected value"
  | .argumentConflict => "error: a flag is given twice"
  | .displayHelp =>
    "Usage: fence-agents-remediation [OPTIONS]\n\nOptions:" ++
      String.join (Flag.all.map fun f =>
        "\n  --" ++ f.name ++ (if f.takesValue then " <VALUE>" else "") ++
          " [env: " ++ f.environmentName ++ "]")
  | .displayVersion => banner

/-- Whether a command line gives no settings because it asks for something else. -/
def Usage.isQuestion : Usage → Bool
  | .displayHelp | .displayVersion => true
  | _ => false

/-! ### Values -/

/-- The number that decimal digits stand for, if there is at least one and nothing else. -/
def natural? (cs : List Char) : Option Nat :=
  if !cs.isEmpty && cs.all Char.isDigit then
    some (cs.foldl (fun n c => n * 10 + (c.toNat - 0x30)) 0)
  else none

/-- The number without sign that a text stands for; a plus may stand before it. -/
def unsigned? (cs : List Char) : Option Nat :=
  match cs with
  | '+' :: rest => natural? rest
  | cs => natural? cs

/-- The number that a text stands for; a plus or a minus may stand before it. -/
def integer? (cs : List Char) : Option Int :=
  match cs with
  | '-' :: rest => (fun n : Nat => -(n : Int)) <$> natural? rest
  | cs => (fun n : Nat => (n : Int)) <$> unsigned? cs

/-- The seconds that a text stands for. -/
def seconds? (s : String) : Option Nat :=
  (unsigned? s.toList).filter (fun n => n < 18446744073709551616)

/-- The port that a text stands for. -/
def port? (s : String) : Option Nat :=
  ((integer? s.toList).filter (fun n => 0 ≤ n && n ≤ 65535)).map Int.toNat

/-- The truth value that a text stands for. -/
def truth? (s : String) : Option Bool :=
  if s = "true" then some true else if s = "false" then some false else none

/-- Checks the text that a flag or its variable was given. -/
def Flag.check (f : Flag) (value : String) : Except Usage Unit :=
  match f with
  | .fenceAgentTimeoutSecs => if (seconds? value).isSome then .ok () else .error .valueValidation
  | .healthPort => if (port? value).isSome then .ok () else .error .valueValidation
  | .leaderElect => if (truth? value).isSome then .ok () else .error .invalidValue
  | _ => .ok ()

/-! ### Words -/

/-- The texts that flags were given. -/
abbrev Given := Ordered Flag String

/-- What was read so far: the flags that are settled, and the one that is still open. -/
structure State where
  given : Given := .empty
  pending : Option (Flag × Option String) := none

/-- Settles a flag. -/
def settle (given : Given) (f : Flag) (value? : Option String) : Except Usage Given :=
  match value? with
  | none => .error .invalidValue
  | some value =>
    if given.contains f then .error .argumentConflict
    else do
      f.check value
      return given.insert f value

/-- Settles the flag that is still open. -/
def State.settled (s : State) : Except Usage Given :=
  match s.pending with
  | none => .ok s.given
  | some (f, value?) => settle s.given f value?

/-- What one word is. -/
inductive Word where
  /-- Two dashes: only values follow. -/
  | divider
  /-- A long flag, and the value that is attached to it. -/
  | long (name : String) (value? : Option String)
  /-- A short flag. -/
  | short (letter : Char)
  /-- A value. -/
  | value (text : String)
deriving DecidableEq, Repr

/-- Tells what a word is. -/
def Word.ofText (s : String) : Word :=
  match s.toList with
  | ['-', '-'] => .divider
  | '-' :: '-' :: cs =>
    let name := String.ofList (cs.takeWhile (· != '='))
    match cs.dropWhile (· != '=') with
    | [] => .long name none
    | _ :: text => .long name (some (String.ofList text))
  | '-' :: c :: _ => .short c
  | cs => .value (String.ofList cs)

/-- Asks for help or for the version, after the open flag is settled. -/
def State.ask (s : State) (u : Usage) : Except Usage State := do
  let _ ← s.settled
  .error u

/-- Reads a long flag. -/
def State.long (s : State) (name : String) (value? : Option String) : Except Usage State :=
  if name = "help" ∨ name = "version" then
    if value?.isSome then .error .tooManyValues
    else s.ask (if name = "help" then .displayHelp else .displayVersion)
  else
    match Flag.ofName? name with
    | none => .error .unknownArgument
    | some f =>
      if f.takesValue then do
        let given ← s.settled
        match value? with
        | none => return ⟨given, some (f, none)⟩
        | some value => return ⟨← settle given f (some value), none⟩
      else if value?.isSome then .error .tooManyValues
      else do
        let given ← s.settled
        return ⟨← settle given f (some "true"), none⟩

/-- Reads one word. -/
def State.word (s : State) : Word → Except Usage State
  | .divider => .ok s
  | .long name value? => s.long name value?
  | .short 'h' => s.ask .displayHelp
  | .short 'V' => s.ask .displayVersion
  | .short _ => .error .unknownArgument
  | .value text =>
    match s.pending with
    | some (f, none) => .ok { s with pending := some (f, some text) }
    | _ => .error .unknownArgument

/-- Reads the words of a command line. -/
def State.words (s : State) : List Word → Except Usage State
  | [] => .ok s
  | .divider :: rest => if rest.isEmpty then .ok s else .error .unknownArgument
  | w :: rest => do words (← s.word w) rest

/-- The texts that the flags of a command line were given. -/
def given (arguments : List String) : Except Usage Given := do
  let s ← State.words {} (arguments.map Word.ofText)
  s.settled

/-! ### Settings -/

/-- The variables that are set, by name. -/
abbrev Environment := Ordered String String

/-- The text for a setting: of its flag, or else of its variable. -/
def chosen (given : Given) (environment : Environment) (f : Flag) : Option String :=
  (given.get? f).or (environment.get? f.environmentName)

/-- Checks the variable that stands in for a flag, if it does. -/
def checkVariable (given : Given) (environment : Environment) (f : Flag) : Except Usage Unit :=
  if given.contains f then .ok ()
  else
    match environment.get? f.environmentName with
    | some value => f.check value
    | none => .ok ()

/-- The settings that flags, variables and defaults give together. -/
def settings (given : Given) (environment : Environment) : Settings :=
  let text := chosen given environment
  let defaults : Settings := {}
  { watchNamespace := (text .watchNamespace).filter (fun s => s != "")
    agentPodNamespace := (text .agentPodNamespace).getD defaults.agentPodNamespace
    agentPodSelector := (text .agentPodSelector).getD defaults.agentPodSelector
    agentContainer := (text .agentContainer).filter (fun s => s != "")
    fenceAgentTimeout :=
      (((text .fenceAgentTimeoutSecs).bind seconds?).map (· * 1000)).getD
        defaults.fenceAgentTimeout
    healthPort := ((text .healthPort).bind port?).getD defaults.healthPort
    leaderElect := ((text .leaderElect).bind truth?).getD defaults.leaderElect
    leaseName := (text .leaseName).getD defaults.leaseName }

/-- Why the program does not start. -/
inductive Rejection where
  | usage (u : Usage)
  | error (e : Error)

/-- The checked settings of a command line and an environment (`TryFrom<Args>`). -/
def parse (arguments : List String) (environment : Environment) : Except Rejection Settings := do
  let given ← (given arguments).mapError .usage
  (Flag.all.forM (checkVariable given environment)).mapError .usage
  let s := settings given environment
  s.validate.mapError .error
  return s

end NodeFencing.CommandLine
