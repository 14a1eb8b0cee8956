import AgentHost.Turn

namespace AgentHost.Rehearsal

inductive TurnStep where
  | pushText (text : String)
  | flushText
  | startTool (tool : ToolUse)
  | endTool (id : String)
  | pushImage (image : Image)
  | emit (event : Event)
  | finish
  | fail (message : String)
  | drop
  | dropStream

structure TurnReport where
  events : List Event
  ended : Bool
  merged : Option String

structure TurnRun where
  turn : Turn
  alive : Bool := true
  stream : Option TurnStream := some {}

namespace TurnRun

def start (maxImages : Nat) : TurnRun := { turn := .start maxImages }

def act (turn : Turn) : TurnStep → Turn
  | .pushText text => turn.pushText text
  | .flushText => turn.flushText
  | .startTool tool => turn.startTool tool
  | .endTool id => turn.endTool id
  | .pushImage image => turn.pushImage image
  | .emit event => turn.emit event
  | .finish => turn.finish
  | .fail message => turn.fail message
  | .drop => turn.abandon
  | .dropStream => turn

def apply (run : TurnRun) (step : TurnStep) : TurnRun :=
  let stream := match step with
    | .dropStream => none
    | _ => run.stream
  let alive := match step with
    | .drop => false
    | _ => run.alive
  { turn := if run.alive then act run.turn step else run.turn, alive, stream }

def step (run : TurnRun) (step : TurnStep) : TurnReport × TurnRun :=
  let next := run.apply step
  let merged := if next.alive then some next.turn.merged else none
  match next.stream with
  | none => (⟨[], false, merged⟩, next)
  | some stream =>
    let (events, after) := stream.deliver next.turn.sent
    (⟨events, after.ended && !stream.ended, merged⟩, { next with stream := some after })

end TurnRun

end AgentHost.Rehearsal
