import AgentHost.Json.Codec
import AgentHost.Text.Path

namespace AgentHost

/-- How the agent is launched and supervised; times are in milliseconds. -/
structure AgentSettings where
  executable : String := "claude"
  /-- Arguments before all others, such as a script for an interpreter. -/
  executableArgs : List String := []
  model : String := "sonnet"
  fallbackModel : Option String := none
  maxBudgetUsd : Option Binary64 := none
  appendSystemPrompt : Option String := none
  permissionMode : Option String := none
  /-- `none` leaves the agent's own choice; an empty list disables all tools. -/
  allowedTools : Option (List String) := none
  addDirs : List String := []
  workingDir : String := "."
  includePartialMessages : Bool := false
  extraArgs : List String := []
  /-- A turn without output for this long has hung. -/
  hangTimeoutMs : Nat := 300000
  /-- An agent without a turn for this long is shut down. -/
  idleTimeoutMs : Nat := 1800000
  /-- Time from the interrupt to the unconditional kill. -/
  killGraceMs : Nat := 5000
  maxImagesPerTurn : Nat := 8
deriving DecidableEq

namespace AgentSettings

open Json (Codec)

def fields : List (Json.Field AgentSettings) := [
  .of "executable" .string (·.executable) fun v s => { s with executable := v },
  .of "executableArgs" (.list .string) (·.executableArgs) fun v s => { s with executableArgs := v },
  .of "model" .string (·.model) fun v s => { s with model := v },
  .of "fallbackModel" (.option .string) (·.fallbackModel) fun v s => { s with fallbackModel := v },
  .of "maxBudgetUsd" (.option .real) (·.maxBudgetUsd) fun v s => { s with maxBudgetUsd := v },
  .of "appendSystemPrompt" (.option .string) (·.appendSystemPrompt)
    fun v s => { s with appendSystemPrompt := v },
  .of "permissionMode" (.option .string) (·.permissionMode)
    fun v s => { s with permissionMode := v },
  .of "allowedTools" (.option (.list .string)) (·.allowedTools)
    fun v s => { s with allowedTools := v },
  .of "addDirs" (.list .string) (·.addDirs) fun v s => { s with addDirs := v },
  .of "workingDir" .string (·.workingDir) fun v s => { s with workingDir := v },
  .of "includePartialMessages" .bool (·.includePartialMessages)
    fun v s => { s with includePartialMessages := v },
  .of "extraArgs" (.list .string) (·.extraArgs) fun v s => { s with extraArgs := v },
  .of "hangTimeoutMs" .word (·.hangTimeoutMs) fun v s => { s with hangTimeoutMs := v },
  .of "idleTimeoutMs" .word (·.idleTimeoutMs) fun v s => { s with idleTimeoutMs := v },
  .of "killGraceMs" .word (·.killGraceMs) fun v s => { s with killGraceMs := v },
  .of "maxImagesPerTurn" .word (·.maxImagesPerTurn) fun v s => { s with maxImagesPerTurn := v }]

def codec : Codec AgentSettings := .record fields {}

/-- Equality with the defaults, where the working directories are compared as paths. -/
def isDefault (s : AgentSettings) : Bool :=
  let plain : AgentSettings := {}
  Text.Path.same s.workingDir plain.workingDir
    && decide ({ s with workingDir := plain.workingDir } = plain)

end AgentSettings

structure DisplaySettings where
  /-- Before the first text of a turn is shown. -/
  flushDelayMs : Nat := 2000
  /-- After a tool has ended. -/
  postToolDelayMs : Nat := 500
deriving Repr, DecidableEq

namespace DisplaySettings

open Json (Codec)

def fields : List (Json.Field DisplaySettings) := [
  .of "flushDelayMs" .word (·.flushDelayMs) fun v s => { s with flushDelayMs := v },
  .of "postToolDelayMs" .word (·.postToolDelayMs) fun v s => { s with postToolDelayMs := v }]

def codec : Codec DisplaySettings := .record fields {}

end DisplaySettings

structure Settings where
  agent : AgentSettings := {}
  display : DisplaySettings := {}
deriving DecidableEq

namespace Settings

open Json (Codec)

def fields : List (Json.Field Settings) := [
  .of "supervisor" AgentSettings.codec (·.agent) fun v s => { s with agent := v },
  .of "scheduler" DisplaySettings.codec (·.display) fun v s => { s with display := v }]

def codec : Codec Settings := .record fields {}

def parse (text : String) : Except Json.Fault Settings := Json.whole codec.read text.toList

def isDefault (s : Settings) : Bool := s.agent.isDefault && decide (s.display = {})

end Settings

end AgentHost
