import AgentHost.Supervisor.Basic

namespace AgentHost.Supervisor

def request (s : Supervisor) (now : Nat) (kind : KillKind) : Supervisor :=
  { s with requests := s.requests ++ [⟨kind, now⟩] }

/-- Takes up the next kill request, as long as the process has not been reaped. -/
def obey (s : Supervisor) : Supervisor :=
  match s.observer, s.requests[s.obeyed]? with
  | .watching, some _ => { s with obeyed := s.obeyed + 1 }
  | _, _ => s

/-- The part that all ways to end the process share: the timers are cancelled, the input is closed,
    and the current turn fails. -/
def shutDown (s : Supervisor) (message : String) : Supervisor :=
  { s with
    state := .dead
    hang := s.hang.cancel
    idle := s.idle.cancel
    inputHeld := false }.closeTurn (·.fail message)

def askToEnd (s : Supervisor) (now : Nat) (urgency : Urgency) : Supervisor :=
  if s.isLaunched then
    match urgency with
    | .forced => s.request now .force
    | .graceful =>
      { s.request now .interrupt with killDue := some (now + s.settings.killGraceMs) }
  else { s with exited := true }

def terminate (s : Supervisor) (now : Nat) (cause : Cause) (urgency : Urgency) :
    Bool × Supervisor :=
  if s.state = .dead then (false, s)
  else
    let noted := s.note (.terminating cause urgency s.pid s.state)
    (true, (noted.shutDown cause.turnError).askToEnd now urgency)

def kill (s : Supervisor) (now : Nat) : Bool × Supervisor := s.terminate now .killed .graceful

def forceKill (s : Supervisor) (now : Nat) : Bool × Supervisor := s.terminate now .killed .forced

def drop (s : Supervisor) (now : Nat) : Supervisor := (s.terminate now .dropped .forced).2

def onKillDue (s : Supervisor) (now : Nat) : Supervisor :=
  match s.killDue with
  | some due => if due ≤ now then { s with killDue := none }.request now .force else s
  | none => s

def onHang (s : Supervisor) (now generation : Nat) : Supervisor :=
  let (taken, hang) := s.hang.take generation
  let s := { s with hang }
  if taken && s.state == .busy then
    ((s.note (.hung s.settings.hangTimeoutMs s.pid s.turn.isSome)).terminate now .hang .forced).2
  else s

def onIdle (s : Supervisor) (now generation : Nat) : Supervisor :=
  let (taken, idle) := s.idle.take generation
  let s := { s with idle }
  if taken && s.state == .idle then
    ((s.note (.idled s.settings.idleTimeoutMs s.pid)).terminate now .idleTimeout .graceful).2
  else s

def ringHang (s : Supervisor) (now : Nat) (alarm : Alarm) : Supervisor :=
  { s with hang := s.hang.rang alarm }.onHang now alarm.generation

def ringIdle (s : Supervisor) (now : Nat) (alarm : Alarm) : Supervisor :=
  { s with idle := s.idle.rang alarm }.onIdle now alarm.generation

def onExit (s : Supervisor) (status : ExitStatus) : Supervisor :=
  let noted := s.note (.exited status s.pid)
  let noted := if s.turn.isSome then noted.note .exitedDuringTurn else noted
  { noted.shutDown "process exited unexpectedly" with
    observer := .finished
    exited := true
    hook := false
    cleanups := s.cleanups + if s.hook then 1 else 0 }

def processExits (s : Supervisor) (now : Nat) (status : ExitStatus) : Supervisor :=
  if s.observer == .watching then { s with observer := .draining status (now + drainTime) } else s

/-- The exit is handled once the output has ended or the deadline has passed. -/
def finishDraining (s : Supervisor) (now : Nat) : Supervisor :=
  match s.observer with
  | .draining status deadline => if !s.outputOpen || deadline ≤ now then s.onExit status else s
  | _ => s

end AgentHost.Supervisor
