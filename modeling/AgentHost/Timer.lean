namespace AgentHost

structure Alarm where
  generation : Nat
  due : Nat
deriving Repr, DecidableEq

/-- A timer that can be armed again and again. Only its latest arming counts, until that is
    cancelled or taken; alarms of earlier armings go off to no effect. -/
structure Timer where
  generation : Nat := 0
  held : Bool := false
  alarms : List Alarm := []
deriving Repr, DecidableEq

namespace Timer

def cancel (timer : Timer) : Timer :=
  if timer.held then
    { timer with
      held := false
      alarms := timer.alarms.filter (·.generation != timer.generation) }
  else timer

def arm (timer : Timer) (now delay : Nat) : Timer :=
  { generation := timer.generation + 1
    held := true
    alarms := timer.cancel.alarms ++ [⟨timer.generation + 1, now + delay⟩] }

def isCurrent (timer : Timer) (generation : Nat) : Bool :=
  timer.held && timer.generation == generation

def take (timer : Timer) (generation : Nat) : Bool × Timer :=
  if timer.isCurrent generation then (true, { timer with held := false }) else (false, timer)

def current? (timer : Timer) : Option Alarm :=
  if timer.held then timer.alarms.find? (·.generation == timer.generation) else none

def next? (timer : Timer) (limit : Nat) : Option Alarm :=
  (timer.alarms.filter (·.due ≤ limit)).foldl (fun best alarm =>
    match best with
    | none => some alarm
    | some first => if alarm.due < first.due then some alarm else some first) none

def rang (timer : Timer) (alarm : Alarm) : Timer :=
  { timer with alarms := timer.alarms.erase alarm }

end Timer

end AgentHost
