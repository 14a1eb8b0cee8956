import AgentHost.Decoder.StreamJson
import AgentHost.Launch
import AgentHost.Prompt
import AgentHost.Supervisor.Notice
import AgentHost.Text.LineBuffer
import AgentHost.Timer
import AgentHost.Turn

namespace AgentHost

structure Write where
  call : Nat
  rest : List UInt8
deriving Repr, DecidableEq

/-- The watch on the process: there is none before the launch; then it waits for the exit, and after
    that for the end of the output until a deadline. -/
inductive Observer where
  | absent
  | watching
  | draining (status : ExitStatus) (deadline : Nat)
  | finished
deriving Repr, DecidableEq

inductive KillKind where
  | interrupt
  | force
deriving Repr, DecidableEq

structure KillRequest where
  kind : KillKind
  time : Nat
deriving Repr, DecidableEq

/-- Supervises one agent process over many turns. Calls for a turn are numbered from zero, and
    each has a stream of events. -/
structure Supervisor where
  settings : AgentSettings
  decoder : Decoder
  state : Lifecycle := .starting
  pid : Option Nat := none
  /-- Whether the handle of the input is here. A write in progress holds it. -/
  inputHeld : Bool := false
  writing : Option Write := none
  written : List UInt8 := []
  calls : Nat := 0
  /-- The current turn and its call. -/
  turn : Option (Nat × Turn) := none
  /-- The events of all other calls. -/
  ended : List (Nat × List Event) := []
  outputOpen : Bool := false
  logOpen : Bool := false
  lines : Text.LineBuffer := {}
  logBuffer : Text.LineBuffer := {}
  hang : Timer := {}
  idle : Timer := {}
  observer : Observer := .absent
  requests : List KillRequest := []
  /-- How many of the requests have been acted on, in their order. -/
  obeyed : Nat := 0
  killDue : Option Nat := none
  /-- The process has been reaped, or there will be none. -/
  exited : Bool := false
  hook : Bool := true
  cleanups : Nat := 0
  notices : List Notice := []

namespace Supervisor

def drainTime : Nat := 1000

def ofSettings (settings : AgentSettings) : Supervisor :=
  { settings, decoder := .streamJson settings.includePartialMessages }

def note (s : Supervisor) (notice : Notice) : Supervisor :=
  { s with notices := s.notices ++ [notice] }

def events (s : Supervisor) (call : Nat) : List Event :=
  match s.turn with
  | some (current, turn) => if current = call then turn.sent else (s.ended.lookup call).getD []
  | none => (s.ended.lookup call).getD []

def isLaunched (s : Supervisor) : Bool := s.observer != .absent

def hasExited (s : Supervisor) : Bool := s.pid.isNone || s.exited

def inputOpen (s : Supervisor) : Bool := s.inputHeld || s.writing.isSome

def armHang (s : Supervisor) (now : Nat) : Supervisor :=
  { s with hang := s.hang.arm now s.settings.hangTimeoutMs }

def armIdle (s : Supervisor) (now : Nat) : Supervisor :=
  { s with idle := s.idle.arm now s.settings.idleTimeoutMs }

def changeTurn (s : Supervisor) (change : Turn → Turn) : Supervisor :=
  { s with turn := s.turn.map fun (call, turn) => (call, change turn) }

/-- Ends the current turn with `last`. A turn that `last` leaves unfinished is abandoned. -/
def closeTurn (s : Supervisor) (last : Turn → Turn) : Supervisor :=
  match s.turn with
  | none => s
  | some (call, turn) =>
    { s with turn := none, ended := s.ended ++ [(call, (last turn).abandon.sent)] }

end Supervisor

end AgentHost
