import AgentHost.Display.Scheduler

namespace AgentHost.Rehearsal

open Display (Scheduler Action)

inductive SchedulerStep where
  | event (event : Event)
  | drive (events : List Event)
  | dispose
  | drop
  | advance (time : Nat)

structure SchedulerRun where
  now : Nat := 0
  scheduler : Option Scheduler := some {}
  reported : Nat := 0

namespace SchedulerRun

def start (settings : DisplaySettings) (label : Option (String → Json → String)) : SchedulerRun :=
  { scheduler := some { settings, label := label.getD Display.activityLabel } }

def apply (run : SchedulerRun) : SchedulerStep → SchedulerRun
  | .event event => { run with scheduler := run.scheduler.map (·.handle run.now event) }
  | .drive events => { run with scheduler := run.scheduler.map (·.drive run.now events) }
  | .dispose => { run with scheduler := run.scheduler.map (·.dispose) }
  | .drop => { run with scheduler := none }
  | .advance time => { run with now := run.now + time }

def step (run : SchedulerRun) (action : SchedulerStep) :
    (Option Display.Phase × List Action) × SchedulerRun :=
  let acted := run.apply action
  match acted.scheduler with
  | none => ((none, []), acted)
  | some scheduler =>
    let settled := scheduler.ringNext acted.now
    let next := { acted with scheduler := some settled, reported := settled.shown.length }
    ((some settled.phase, settled.shown.drop run.reported), next)

end SchedulerRun

end AgentHost.Rehearsal
