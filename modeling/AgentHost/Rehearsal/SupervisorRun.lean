import AgentHost.Rehearsal.Child
import AgentHost.Rehearsal.Consumer

namespace AgentHost.Rehearsal

open Display (Scheduler)

inductive SupervisorStep where
  | spawn
  | sendTurn (prompt : Prompt) (display : Option DisplaySettings)
  | kill
  | forceKill
  | drop
  | dropStream (call : Nat)
  | output (event : PipeEvent)
  | log (event : PipeEvent)
  | inputMode (mode : InputMode)
  | exit (status : ExitStatus)
  | advance (time : Nat)

inductive Returned where
  | nothing
  | verdict (b : Bool)
  | call (n : Nat)
deriving Repr, DecidableEq

structure SupervisorRun where
  now : Nat := 0
  supervisor : Supervisor
  child : Child
  owned : Bool := true
  consumers : List Consumer := []

structure SupervisorReport where
  returned : Returned
  launch : Option Launch
  news : List Consumer
  input : List UInt8
  signals : List KillKind
  notices : List Notice

namespace SupervisorRun

def served (supervisor : Supervisor) : Supervisor :=
  Nat.repeat Supervisor.obey (supervisor.requests.length - supervisor.obeyed) supervisor

def flow (run : SupervisorRun) : SupervisorRun :=
  let supervisor := served (Child.takeInput run.child.mode run.supervisor run.now)
  { run with
    supervisor
    consumers := run.consumers.map fun c => c.take run.now (supervisor.events c.call) }

def act (run : SupervisorRun) (change : Supervisor → Supervisor) : SupervisorRun :=
  { run with supervisor := served (change run.supervisor) }

/-- Alarms of the supervisor that are due now go off before the process does anything. -/
def ringAtOnce (run : SupervisorRun) : SupervisorRun :=
  let hung := match run.supervisor.hang.next? run.now with
    | some alarm => run.act (·.ringHang run.now alarm)
    | none => run
  match hung.supervisor.idle.next? run.now with
  | some alarm => hung.act (·.ringIdle run.now alarm)
  | none => hung

def judge (run : SupervisorRun) (outcome : Bool × Supervisor) : Returned × SupervisorRun :=
  (.verdict outcome.1, { run with supervisor := served outcome.2 })

def spawn (run : SupervisorRun) : Returned × SupervisorRun :=
  let (runs, supervisor) := run.supervisor.spawn run.now run.child.outcome
  let tried := { run with supervisor }
  if runs then
    let begun := tried.ringAtOnce
    (.verdict true, { begun with
      supervisor := run.child.launch begun.supervisor run.now
      child := { run.child with launched := true, output := [], log := [] } })
  else (.verdict false, tried)

def sendTurn (run : SupervisorRun) (prompt : Prompt) (display : Option DisplaySettings) :
    Returned × SupervisorRun :=
  let call := run.supervisor.calls
  let consumer : Consumer := { call, display := display.map fun settings => { settings } }
  let called := { run.act (·.sendTurn run.now prompt) with
    consumers := run.consumers ++ [consumer] }
  (.call call, called.ringAtOnce)

def own (run : SupervisorRun) (step : SupervisorStep) : Returned × SupervisorRun :=
  if run.owned then
    match step with
    | .spawn => run.spawn
    | .sendTurn prompt display => run.sendTurn prompt display
    | .kill => run.judge (run.supervisor.kill run.now)
    | .forceKill => run.judge (run.supervisor.forceKill run.now)
    | .drop => (.nothing, { run.act (·.drop run.now) with owned := false })
    | _ => (.nothing, run)
  else (.nothing, run)

def output (run : SupervisorRun) (event : PipeEvent) : SupervisorRun :=
  if run.child.launched then run.act fun s => Child.readOutput s run.now event
  else { run with child := { run.child with output := run.child.output ++ [event] } }

def log (run : SupervisorRun) (event : PipeEvent) : SupervisorRun :=
  if run.child.launched then run.act fun s => Child.readLog s run.now event
  else { run with child := { run.child with log := run.child.log ++ [event] } }

def exit (run : SupervisorRun) (status : ExitStatus) : SupervisorRun :=
  if run.child.exit.isSome then run
  else
    let ended := { run with child := { run.child with exit := some status } }
    if run.child.launched then
      ended.act fun s => (s.processExits run.now status).finishDraining run.now
    else ended

def apply (run : SupervisorRun) : SupervisorStep → Returned × SupervisorRun
  | .dropStream call =>
    (.nothing, { run with consumers := run.consumers.filter (·.call != call) })
  | .output event => (.nothing, run.output event)
  | .log event => (.nothing, run.log event)
  | .inputMode mode => (.nothing, { run with child := { run.child with mode } })
  | .exit status => (.nothing, run.exit status)
  | .advance _ => (.nothing, run)
  | step => run.own step

inductive Due where
  | hang (alarm : Alarm)
  | idle (alarm : Alarm)
  | kill (time : Nat)
  | drain (time : Nat)
  | display (call time : Nat)
deriving Repr, DecidableEq

def Due.time : Due → Nat
  | .hang alarm | .idle alarm => alarm.due
  | .kill time | .drain time | .display _ time => time

def dues (run : SupervisorRun) (limit : Nat) : List Due :=
  let s := run.supervisor
  let drain := match s.observer with
    | .draining _ deadline => [Due.drain deadline]
    | _ => []
  let displays := run.consumers.filterMap fun c => (c.due? limit).map (Due.display c.call)
  let all := (s.hang.next? limit).toList.map Due.hang ++ (s.idle.next? limit).toList.map Due.idle
    ++ s.killDue.toList.map Due.kill ++ drain ++ displays
  all.filter (·.time ≤ limit)

def earliest (dues : List Due) : Option Due :=
  dues.foldl (fun best due =>
    match best with
    | none => some due
    | some first => if due.time < first.time then some due else some first) none

def happen (run : SupervisorRun) (due : Due) : SupervisorRun :=
  let run := { run with now := due.time }
  match due with
  | .hang alarm => run.act (·.ringHang run.now alarm)
  | .idle alarm => run.act (·.ringIdle run.now alarm)
  | .kill _ => run.act (·.onKillDue run.now)
  | .drain _ => run.act (·.finishDraining run.now)
  | .display call _ =>
    { run with consumers := run.consumers.map fun c => if c.call = call then c.ring run.now else c }

def settle : Nat → Nat → SupervisorRun → SupervisorRun
  | 0, _, run => run
  | fuel + 1, limit, run =>
    match earliest (run.dues limit) with
    | none => run
    | some due => settle fuel limit (run.happen due).flow

/-- A bound on what can come due in one step: each timer goes off at most once, and each display at
    most twice. -/
def dueBound (run : SupervisorRun) : Nat := 8 + 2 * run.consumers.length

def report (before after : SupervisorRun) (step : SupervisorStep) (returned : Returned) :
    SupervisorReport :=
  let launches : Bool := match step with
    | .spawn => before.owned && before.supervisor.state == .starting
    | _ => false
  { returned
    launch := if launches then some (.ofSettings before.supervisor.settings) else none
    news := after.consumers.filter (·.hasNews)
    input := after.supervisor.written.drop before.supervisor.written.length
    signals := ((after.supervisor.requests.take after.supervisor.obeyed).drop
      before.supervisor.obeyed).map (·.kind)
    notices := after.supervisor.notices.drop before.supervisor.notices.length }

def step (run : SupervisorRun) (action : SupervisorStep) : SupervisorReport × SupervisorRun :=
  let limit := match action with
    | .advance time => run.now + time
    | _ => run.now
  let (returned, acted) := run.apply action
  let flowed := acted.flow
  let next := { settle flowed.dueBound limit flowed with now := limit }
  (report run next action returned,
    { next with consumers := next.consumers.map (·.cleared) })

end SupervisorRun

end AgentHost.Rehearsal
