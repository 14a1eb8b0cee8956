import AgentHost.Timer

namespace AgentHost.Rehearsal

inductive TimerStep where
  | arm (delay : Nat)
  | cancel
  | isCurrent (generation : Nat)
  | take (generation : Nat)
  | advance (time : Nat)
  | drop
deriving Repr, DecidableEq

inductive TimerAnswer where
  | nothing
  | generation (n : Nat)
  | verdict (b : Bool)
deriving Repr, DecidableEq

structure TimerRun where
  now : Nat := 0
  timer : Timer := {}
  alive : Bool := true
deriving Repr, DecidableEq

namespace TimerRun

def act (now : Nat) (timer : Timer) : TimerStep → TimerAnswer × Timer
  | .arm delay =>
    let armed := timer.arm now delay
    (.generation armed.generation, armed)
  | .cancel | .drop => (.nothing, timer.cancel)
  | .isCurrent generation => (.verdict (timer.isCurrent generation), timer)
  | .take generation =>
    let (taken, next) := timer.take generation
    (.verdict taken, next)
  | .advance _ => (.nothing, timer)

def apply (run : TimerRun) (step : TimerStep) : TimerAnswer × TimerRun :=
  match step with
  | .advance time => (.nothing, { run with now := run.now + time })
  | _ =>
    if run.alive then
      let (answer, timer) := act run.now run.timer step
      (answer, { run with timer, alive := step != .drop })
    else (.nothing, run)

def ringing : Nat → Nat → Timer → List Nat × Timer
  | 0, _, timer => ([], timer)
  | fuel + 1, limit, timer =>
    match timer.next? limit with
    | none => ([], timer)
    | some alarm =>
      let (more, last) := ringing fuel limit (timer.rang alarm)
      (alarm.generation :: more, last)

def step (run : TimerRun) (action : TimerStep) : (TimerAnswer × List Nat) × TimerRun :=
  let (answer, acted) := run.apply action
  let (fired, timer) := ringing acted.timer.alarms.length acted.now acted.timer
  ((answer, fired), { acted with timer })

end TimerRun

end AgentHost.Rehearsal
