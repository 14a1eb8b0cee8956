import AgentHost.Display.Scheduler
import AgentHost.Turn

namespace AgentHost.Rehearsal

open Display (Scheduler Action)

structure Consumer where
  call : Nat
  stream : TurnStream := {}
  display : Option Scheduler := none
  events : List Event := []
  actions : List Action := []
  ended : Bool := false

namespace Consumer

def gather (consumer : Consumer) (before after : Scheduler) : Consumer :=
  { consumer with
    display := some after
    actions := consumer.actions ++ after.shown.drop before.shown.length }

def take (consumer : Consumer) (now : Nat) (sent : List Event) : Consumer :=
  let (events, stream) := consumer.stream.deliver sent
  let closes := stream.ended && !consumer.stream.ended
  let next := { consumer with
    stream
    events := consumer.events ++ events
    ended := consumer.ended || closes }
  match consumer.display with
  | none => next
  | some display =>
    let driven := display.drive now events
    next.gather display (if closes then driven.dispose else driven)

def due? (consumer : Consumer) (limit : Nat) : Option Nat :=
  (consumer.display.bind (·.flush.next? limit)).map (·.due)

def ring (consumer : Consumer) (now : Nat) : Consumer :=
  match consumer.display with
  | none => consumer
  | some display => consumer.gather display (display.ringNext now)

def hasNews (consumer : Consumer) : Bool :=
  consumer.ended ||
    if consumer.display.isSome then !consumer.actions.isEmpty else !consumer.events.isEmpty

def cleared (consumer : Consumer) : Consumer :=
  { consumer with events := [], actions := [], ended := false }

end Consumer

end AgentHost.Rehearsal
