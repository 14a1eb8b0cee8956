import AgentHost.Supervisor.Step

namespace AgentHost.Rehearsal

inductive PipeEvent where
  | chunk (bytes : List UInt8)
  | failed (error : String)
  | closed

inductive InputMode where
  | accept
  | pieces (size : Nat)
  | blocked
  | refuse (error : String)
  | refuseFlush (error : String)

/-- A scripted agent process. Steps that come before the launch are applied at the launch. -/
structure Child where
  /-- The process id it gets, or why it cannot be started. -/
  outcome : Except ProcessFault Nat
  launched : Bool := false
  output : List PipeEvent := []
  log : List PipeEvent := []
  exit : Option ExitStatus := none
  mode : InputMode := .accept

namespace Child

def readOutput (s : Supervisor) (now : Nat) : PipeEvent → Supervisor
  | .chunk bytes => s.readOutput now bytes
  | .failed error => (s.failOutput now error).finishDraining now
  | .closed => (s.closeOutput now).finishDraining now

def readLog (s : Supervisor) (now : Nat) : PipeEvent → Supervisor
  | .chunk bytes => s.readLog now bytes
  | .failed _ | .closed => s.closeLog now

def stalled : String := "write zero"

def takeInput (mode : InputMode) (s : Supervisor) (now : Nat) : Supervisor :=
  match s.writing with
  | none => s
  | some write =>
    let all := s.acceptInput write.rest.length
    match mode with
    | .accept => all.finishWrite
    | .pieces 0 => s.failWrite now stalled
    | .pieces _ => all.finishWrite
    | .blocked => s
    | .refuse error => s.failWrite now error
    | .refuseFlush error => all.failWrite now error

def launch (child : Child) (s : Supervisor) (now : Nat) : Supervisor :=
  let s := child.output.foldl (fun s event => readOutput s now event) s
  let s := child.log.foldl (fun s event => readLog s now event) s
  match child.exit with
  | some status => (s.processExits now status).finishDraining now
  | none => s

end Child

end AgentHost.Rehearsal
