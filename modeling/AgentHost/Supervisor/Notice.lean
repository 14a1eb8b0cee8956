import AgentHost.Json.Record

namespace AgentHost

inductive ProcessFault where
  | spawn (cause : String)
  | missingPipe (pipe : String)
  | inputClosed
  | write (cause : String)
deriving Repr, DecidableEq

def ProcessFault.message : ProcessFault → String
  | .spawn cause => "failed to spawn agent process: " ++ cause
  | .missingPipe pipe => "failed to capture agent " ++ pipe
  | .inputClosed => "agent stdin not available"
  | .write cause => "failed to write to agent stdin: " ++ cause

inductive Lifecycle where
  | starting
  | idle
  | busy
  | dead
deriving Repr, DecidableEq

namespace Lifecycle

def name : Lifecycle → String
  | .starting => "starting"
  | .idle => "idle"
  | .busy => "busy"
  | .dead => "dead"

def ofName? : String → Option Lifecycle
  | "starting" => some .starting
  | "idle" => some .idle
  | "busy" => some .busy
  | "dead" => some .dead
  | _ => none

def isAlive : Lifecycle → Bool
  | .idle | .busy => true
  | .starting | .dead => false

def toJson (state : Lifecycle) : Json := .string state.name

def ofJson? (value : Json) : Option Lifecycle := (value.caseName? Json.isNull).bind ofName?

end Lifecycle

inductive Cause where
  | hang
  | idleTimeout
  | writeFailed (error : String)
  | killed
  | dropped
deriving Repr, DecidableEq

namespace Cause

def turnError : Cause → String
  | .hang => "hang detected"
  | .idleTimeout => "idle timeout"
  | .writeFailed error => "failed to write turn input: " ++ error
  | .killed | .dropped => "terminated"

def text : Cause → String
  | .hang => "hang"
  | .idleTimeout => "idle timeout"
  | .writeFailed _ => "stdin write failure"
  | .killed => "kill requested"
  | .dropped => "supervisor dropped"

end Cause

inductive Urgency where
  | graceful
  | forced
deriving Repr, DecidableEq

def Urgency.text : Urgency → String
  | .graceful => "Graceful"
  | .forced => "Force"

inductive ExitStatus where
  | code (code : Nat)
  | signal
  | unknown (error : String)
deriving Repr, DecidableEq

inductive Notice where
  | spawnedTwice (state : Lifecycle)
  | spawned (pid : Option Nat) (model directory : String)
  | launchFailed (fault : ProcessFault)
  | hung (timeout : Nat) (pid : Option Nat) (duringTurn : Bool)
  | idled (timeout : Nat) (pid : Option Nat)
  | terminating (cause : Cause) (urgency : Urgency) (pid : Option Nat) (state : Lifecycle)
  | writeAborted (error : String)
  | readFailed (error : String)
  | turnFailed (message : String)
  | exited (status : ExitStatus) (pid : Option Nat)
  | exitedDuringTurn
deriving Repr, DecidableEq

namespace Notice

inductive Level where
  | info
  | warn
deriving Repr, DecidableEq

def Level.text : Level → String
  | .info => "INFO"
  | .warn => "WARN"

def level : Notice → Level
  | .spawned _ _ _ | .idled _ _ | .terminating _ _ _ _ | .turnFailed _ => .info
  | .exited (.unknown _) _ => .warn
  | .exited _ _ => .info
  | _ => .warn

def optional (value : Option String) : String :=
  match value with
  | some text => "Some(" ++ text ++ ")"
  | none => "None"

def pidText (pid : Option Nat) : String := optional (pid.map toString)

def turnName : String := "TURN"

def secondsText (ms : Nat) : String :=
  let thousandths := (toString (1000 + ms % 1000)).toList.drop 1
  match (thousandths.reverse.dropWhile (· == '0')).reverse with
  | [] => toString (ms / 1000) ++ "s"
  | digits => toString (ms / 1000) ++ "." ++ String.ofList digits ++ "s"

def spanText (ms : Nat) : String :=
  if ms = 0 then "0ns" else if ms < 1000 then toString ms ++ "ms" else secondsText ms

def statusText : ExitStatus → String
  | .code code => "exit code " ++ toString code
  | .signal => "terminated by signal"
  | .unknown error => error

def text : Notice → String
  | .spawnedTwice state => "spawn called twice: state=" ++ state.name
  | .spawned pid model directory =>
    "Agent process spawned: pid=" ++ pidText pid ++ ", model=" ++ model ++ ", cwd=" ++ directory
  | .launchFailed fault => "Agent launch failed: " ++ fault.message
  | .hung timeout pid duringTurn =>
    "No agent output for " ++ spanText timeout ++ ", assuming hang: pid=" ++ pidText pid
      ++ ", turn=" ++ optional (if duringTurn then some ("\"" ++ turnName ++ "\"") else none)
  | .idled timeout pid =>
    "Agent idle for " ++ spanText timeout ++ ", shutting down: pid=" ++ pidText pid
  | .terminating cause urgency pid state =>
    "Terminating agent: reason=" ++ cause.text ++ ", signal=" ++ urgency.text
      ++ ", pid=" ++ pidText pid ++ ", state=" ++ state.name
  | .writeAborted error =>
    "Turn " ++ turnName ++ " aborted: " ++ (ProcessFault.write error).message
  | .readFailed error => "Error reading agent stdout: " ++ error
  | .turnFailed message => "Agent reported a failed turn: turn=" ++ turnName ++ ", " ++ message
  | .exited (.unknown error) pid =>
    "Failed to wait for agent process: pid=" ++ pidText pid ++ ", " ++ error
  | .exited status pid =>
    "Agent process exited (" ++ statusText status ++ "): pid=" ++ pidText pid
  | .exitedDuringTurn => "Agent exited mid-turn: turn=" ++ turnName

def line (notice : Notice) : String := notice.level.text ++ " " ++ notice.text

end Notice

end AgentHost
