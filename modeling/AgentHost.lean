import AgentHost.Decimal.Shortest
import AgentHost.Decoder.StreamJson
import AgentHost.Digest.Sha256
import AgentHost.Display.Activity
import AgentHost.Display.Scheduler
import AgentHost.Event
import AgentHost.Json.Printer
import AgentHost.Json.Quoted
import AgentHost.Json.Reader
import AgentHost.Json.Sequence
import AgentHost.KeyedQueue
import AgentHost.Launch
import AgentHost.Prompt
import AgentHost.Proofs.Decoder.PartsByKind
import AgentHost.Proofs.Decoder.WireBlocks
import AgentHost.Proofs.Display.Armings
import AgentHost.Proofs.Display.BufferingPeriods
import AgentHost.Proofs.Display.HeldText
import AgentHost.Proofs.Display.ToolSilence
import AgentHost.Proofs.Display.TurnDisplay
import AgentHost.Proofs.ImageKeys
import AgentHost.Proofs.ImageSelection
import AgentHost.Proofs.Json.QuotedText
import AgentHost.Proofs.Json.ReadBack
import AgentHost.Proofs.KeyedQueue.Alone
import AgentHost.Proofs.KeyedQueue.Entries
import AgentHost.Proofs.KeyedQueue.Line
import AgentHost.Proofs.KeyedQueue.Steps
import AgentHost.Proofs.KeyedQueue.Turns
import AgentHost.Proofs.LaunchArguments
import AgentHost.Proofs.PartialSettings
import AgentHost.Proofs.PromptLine
import AgentHost.Proofs.Supervisor.Acceptance
import AgentHost.Proofs.Supervisor.Answers
import AgentHost.Proofs.Supervisor.Armings
import AgentHost.Proofs.Supervisor.Coherence
import AgentHost.Proofs.Supervisor.Errors
import AgentHost.Proofs.Supervisor.ExitWait
import AgentHost.Proofs.Supervisor.FinalText
import AgentHost.Proofs.Supervisor.HangDeadline
import AgentHost.Proofs.Supervisor.IgnoredSteps
import AgentHost.Proofs.Supervisor.InputLines
import AgentHost.Proofs.Supervisor.Lifecycle
import AgentHost.Proofs.Supervisor.Move
import AgentHost.Proofs.Supervisor.OutputLines
import AgentHost.Proofs.Supervisor.ProcessSide
import AgentHost.Proofs.Supervisor.ReadCuts
import AgentHost.Proofs.Supervisor.Register
import AgentHost.Proofs.Supervisor.Shutdown
import AgentHost.Proofs.Supervisor.StepCases
import AgentHost.Proofs.Supervisor.Streams
import AgentHost.Proofs.Supervisor.TurnBounds
import AgentHost.Proofs.Supervisor.TurnEnds
import AgentHost.Proofs.Supervisor.TurnImages
import AgentHost.Proofs.Supervisor.TurnRecords
import AgentHost.Proofs.Supervisor.Twin
import AgentHost.Proofs.Text.LineCuts
import AgentHost.Proofs.Text.LinePieces
import AgentHost.Proofs.Text.MarkerRemoval
import AgentHost.Proofs.Text.MarkupCuts
import AgentHost.Proofs.Text.TrimmedText
import AgentHost.Proofs.Text.Utf8Laws
import AgentHost.Proofs.Text.VisibleText
import AgentHost.Proofs.TextAndTools
import AgentHost.Proofs.ToolPairs
import AgentHost.Proofs.Transition
import AgentHost.Proofs.TurnByKind
import AgentHost.Proofs.TurnDelivery
import AgentHost.Proofs.TurnResult
import AgentHost.Rehearsal.QueueRun
import AgentHost.Rehearsal.SchedulerRun
import AgentHost.Rehearsal.SupervisorRun
import AgentHost.Rehearsal.TimerRun
import AgentHost.Rehearsal.TurnRun
import AgentHost.Settings.File
import AgentHost.Supervisor.Step
import AgentHost.Text.Base64
import AgentHost.Text.Blank
import AgentHost.Text.Hex
import AgentHost.Text.LineBuffer
import AgentHost.Text.Markup
import AgentHost.Turn
