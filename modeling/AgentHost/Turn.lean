import AgentHost.Event
import AgentHost.Text.Markup

namespace AgentHost

/-- A turn in progress. `sent` are its events so far, for its one consumer. -/
structure Turn where
  sent : List Event := []
  /-- All streamed text, hidden spans included. -/
  merged : String := ""
  markup : Text.Markup := {}
  openTools : List String := []
  images : ImageFilter
  finished : Bool := false

namespace Turn

def start (maxImages : Nat) : Turn := { images := { cap := maxImages } }

def emit (turn : Turn) (event : Event) : Turn :=
  if turn.finished then turn else { turn with sent := turn.sent ++ [event] }

def emitText (turn : Turn) (text : String) : Turn :=
  if text.isEmpty then turn else turn.emit (.textDelta text)

def pushText (turn : Turn) (text : String) : Turn :=
  let (shown, markup) := turn.markup.push text
  { turn with merged := turn.merged ++ text, markup }.emitText shown

def flushText (turn : Turn) : Turn :=
  let (shown, markup) := turn.markup.finish
  { turn with markup }.emitText shown

def startTool (turn : Turn) (tool : ToolUse) : Turn :=
  if turn.openTools.contains tool.id then turn
  else { turn with openTools := tool.id :: turn.openTools }.emit (.toolStart tool.name tool.input)

def endTool (turn : Turn) (id : String) : Turn :=
  if turn.openTools.contains id then
    { turn with openTools := turn.openTools.erase id }.emit .toolEnd
  else turn

def pushImage (turn : Turn) (image : Image) : Turn :=
  let (passes, images) := turn.images.offer image
  let next := { turn with images }
  if passes then next.emit (.imageData image) else next

def finish (turn : Turn) : Turn := { turn.emit .done with finished := true }

def fail (turn : Turn) (message : String) : Turn :=
  if turn.finished then turn else (turn.emit (.error message)).finish

def abandon (turn : Turn) : Turn := turn.fail "turn abandoned"

end Turn

structure TurnStream where
  taken : Nat := 0
  ended : Bool := false
deriving Repr, DecidableEq

inductive Poll where
  | event (event : Event)
  | ended
  /-- Everything sent so far has been delivered. -/
  | pending

namespace TurnStream

/-- Takes the next event. The stream ends after the event that closes the turn, or when nothing is
    left and the sender is gone. -/
def poll (stream : TurnStream) (sent : List Event) (sending : Bool) : Poll × TurnStream :=
  if stream.ended then (.ended, stream)
  else
    match sent[stream.taken]? with
    | some event => (.event event, ⟨stream.taken + 1, event.isDone⟩)
    | none => if sending then (.pending, stream) else (.ended, { stream with ended := true })

def untilDone : List Event → List Event × Bool
  | [] => ([], false)
  | event :: rest =>
    if event.isDone then ([event], true)
    else
      let (events, closed) := untilDone rest
      (event :: events, closed)

def deliver (stream : TurnStream) (sent : List Event) : List Event × TurnStream :=
  if stream.ended then ([], stream)
  else
    let (events, closed) := untilDone (sent.drop stream.taken)
    (events, ⟨stream.taken + events.length, closed⟩)

def rejection (message : String) : List Event := [.error message, .done]

end TurnStream

end AgentHost
