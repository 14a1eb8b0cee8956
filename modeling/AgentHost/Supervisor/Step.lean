import AgentHost.Supervisor.Input
import AgentHost.Supervisor.Output

namespace AgentHost.Supervisor

inductive Step where
  | spawn (outcome : Except ProcessFault Nat)
  | sendTurn (prompt : Prompt)
  | kill
  | forceKill
  | drop
  | acceptInput (count : Nat)
  | finishWrite
  | failWrite (error : String)
  | readOutput (chunk : List UInt8)
  | closeOutput
  | failOutput (error : String)
  | readLog (chunk : List UInt8)
  | closeLog
  | hangRings (generation : Nat)
  | idleRings (generation : Nat)
  | killDue
  | obey
  | processExits (status : ExitStatus)
  | finishDraining

def step (s : Supervisor) (now : Nat) : Step → Supervisor
  | .spawn outcome => (s.spawn now outcome).2
  | .sendTurn prompt => s.sendTurn now prompt
  | .kill => (s.kill now).2
  | .forceKill => (s.forceKill now).2
  | .drop => s.drop now
  | .acceptInput count => s.acceptInput count
  | .finishWrite => s.finishWrite
  | .failWrite error => s.failWrite now error
  | .readOutput chunk => s.readOutput now chunk
  | .closeOutput => s.closeOutput now
  | .failOutput error => s.failOutput now error
  | .readLog chunk => s.readLog now chunk
  | .closeLog => s.closeLog now
  | .hangRings generation => s.onHang now generation
  | .idleRings generation => s.onIdle now generation
  | .killDue => s.onKillDue now
  | .obey => s.obey
  | .processExits status => s.processExits now status
  | .finishDraining => s.finishDraining now

def after (s : Supervisor) (steps : List (Nat × Step)) : Supervisor :=
  steps.foldl (fun s (now, action) => s.step now action) s

end AgentHost.Supervisor
