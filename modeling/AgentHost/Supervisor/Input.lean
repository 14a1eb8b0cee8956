import AgentHost.Supervisor.Ending

namespace AgentHost.Supervisor

def spawn (s : Supervisor) (now : Nat) (outcome : Except ProcessFault Nat) : Bool × Supervisor :=
  if s.state != .starting then (false, s.note (.spawnedTwice s.state))
  else
    match outcome with
    | .error fault => (false, { s.note (.launchFailed fault) with state := .dead, exited := true })
    | .ok pid =>
      let running := { s with
        pid := some pid
        inputHeld := true
        state := .idle
        outputOpen := true
        logOpen := true
        observer := .watching }
      let notice := .spawned (some pid) s.settings.model s.settings.workingDir
      (true, (running.armIdle now).note notice)

def reject (s : Supervisor) (message : String) : Supervisor :=
  { s with
    calls := s.calls + 1
    ended := s.ended ++ [(s.calls, TurnStream.rejection message)] }

/-- A call for a turn. Only an idle supervisor that holds the input accepts it, and starts writing
    its line. -/
def sendTurn (s : Supervisor) (now : Nat) (prompt : Prompt) : Supervisor :=
  match s.state with
  | .busy => s.reject "engine is busy"
  | .starting | .dead => s.reject "engine is not running"
  | .idle =>
    if s.inputHeld then
      { s with
        calls := s.calls + 1
        inputHeld := false
        writing := some ⟨s.calls, Text.Utf8.encode prompt.line⟩
        idle := s.idle.cancel
        state := .busy
        turn := some (s.calls, .start s.settings.maxImagesPerTurn) }.armHang now
    else s.reject ProcessFault.inputClosed.message

def acceptInput (s : Supervisor) (count : Nat) : Supervisor :=
  match s.writing with
  | none => s
  | some write =>
    { s with
      written := s.written ++ write.rest.take count
      writing := some { write with rest := write.rest.drop count } }

def finishWrite (s : Supervisor) : Supervisor :=
  match s.writing with
  | some ⟨_, []⟩ => { s with writing := none, inputHeld := s.state != .dead }
  | _ => s

def failWrite (s : Supervisor) (now : Nat) (error : String) : Supervisor :=
  match s.writing with
  | none => s
  | some _ =>
    let noted := { s with writing := none }.note (.writeAborted error)
    (noted.terminate now (.writeFailed error) .forced).2

end AgentHost.Supervisor
