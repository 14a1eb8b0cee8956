import AgentHost.Display.Action
import AgentHost.Display.Activity
import AgentHost.Event
import AgentHost.Settings.Basic
import AgentHost.Timer

namespace AgentHost.Display

inductive Phase where
  | idle
  | bufferingText
  | toolActive
  | streamingFinal
deriving Repr, DecidableEq

namespace Phase

def name : Phase → String
  | .idle => "idle"
  | .bufferingText => "buffering_text"
  | .toolActive => "tool_active"
  | .streamingFinal => "streaming_final"

def ofName? : String → Option Phase
  | "idle" => some .idle
  | "buffering_text" => some .bufferingText
  | "tool_active" => some .toolActive
  | "streaming_final" => some .streamingFinal
  | _ => none

def toJson (phase : Phase) : Json := .string phase.name

def ofJson? (value : Json) : Option Phase := (value.caseName? Json.isNull).bind ofName?

end Phase

/-- Smooths the events of one turn for display: text is buffered at first, dropped for a label while
    a tool runs, and streamed once the flush timer has gone off. -/
structure Scheduler where
  settings : DisplaySettings := {}
  label : String → Json → String := activityLabel
  phase : Phase := .idle
  buffer : String := ""
  flush : Timer := {}
  disposed : Bool := false
  shown : List Action := []

namespace Scheduler

def present (s : Scheduler) (action : Action) : Scheduler := { s with shown := s.shown ++ [action] }

def onText (s : Scheduler) (now : Nat) (text : String) : Scheduler :=
  match s.phase with
  | .idle =>
    { s with
      buffer := s.buffer ++ text
      phase := .bufferingText
      flush := s.flush.arm now s.settings.flushDelayMs }
  | .bufferingText | .toolActive => { s with buffer := s.buffer ++ text }
  | .streamingFinal => s.present (.streamText text)

def discard (s : Scheduler) (phase : Phase) : Scheduler :=
  { s with flush := s.flush.cancel, buffer := "", phase }

def onToolEnd (s : Scheduler) (now : Nat) : Scheduler :=
  if s.phase = .toolActive then
    { s with
      buffer := ""
      phase := .bufferingText
      flush := s.flush.arm now s.settings.postToolDelayMs }
  else s

def react (s : Scheduler) (now : Nat) : Event → Scheduler
  | .textDelta text => s.onText now text
  | .textFinal text => (s.discard .streamingFinal).present (.setFinal text)
  | .toolStart name input => (s.discard .toolActive).present (.showActivity (s.label name input))
  | .toolEnd => s.onToolEnd now
  | .error _ | .done => { s with flush := s.flush.cancel }
  | .imageData _ | .logLine _ _ => s

def handle (s : Scheduler) (now : Nat) (event : Event) : Scheduler :=
  if s.disposed then s else s.react now event

def drive (s : Scheduler) (now : Nat) (events : List Event) : Scheduler :=
  match events with
  | [] => s
  | event :: rest =>
    if event.isDone then s.handle now event else drive (s.handle now event) now rest

def release (s : Scheduler) : Scheduler :=
  let next := { s with phase := .streamingFinal, buffer := "" }
  if s.buffer.isEmpty then next else next.present (.streamText s.buffer)

def onFlush (s : Scheduler) (generation : Nat) : Scheduler :=
  if s.disposed then s
  else
    let (taken, flush) := s.flush.take generation
    let next := { s with flush }
    if taken && s.phase = .bufferingText then next.release else next

def dispose (s : Scheduler) : Scheduler := { s with disposed := true, flush := s.flush.cancel }

def ringNext (s : Scheduler) (limit : Nat) : Scheduler :=
  match s.flush.next? limit with
  | none => s
  | some alarm => { s with flush := s.flush.rang alarm }.onFlush alarm.generation

inductive Step where
  | handle (event : Event)
  | flushRings (generation : Nat)
  | dispose

def step (s : Scheduler) : Nat × Step → Scheduler
  | (now, .handle event) => s.handle now event
  | (_, .flushRings generation) => s.onFlush generation
  | (_, .dispose) => s.dispose

def after (s : Scheduler) (steps : List (Nat × Step)) : Scheduler := steps.foldl step s

end Scheduler

end AgentHost.Display
