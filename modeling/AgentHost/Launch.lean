import AgentHost.Decimal.Shortest
import AgentHost.Settings.Basic

namespace AgentHost

structure Launch where
  program : String
  arguments : List String
  directory : String
  environment : List (String × Option String)
deriving Repr, DecidableEq

namespace Launch

def protocolFlags : List String :=
  ["-p", "--input-format", "stream-json", "--output-format", "stream-json", "--verbose"]

def flagged (flag : String) : Option String → List String
  | none => []
  | some value => [flag, value]

def toolFlags : Option (List String) → List String
  | none => []
  | some [] => ["--tools", ""]
  | some tools => ["--allowedTools", ",".intercalate tools]

def argumentsFor (settings : AgentSettings) : List String :=
  settings.executableArgs ++ protocolFlags ++ ["--model", settings.model]
    ++ flagged "--fallback-model" settings.fallbackModel
    ++ flagged "--max-budget-usd" (settings.maxBudgetUsd.map Decimal.amount)
    ++ flagged "--append-system-prompt" settings.appendSystemPrompt
    ++ flagged "--permission-mode" settings.permissionMode
    ++ (if settings.includePartialMessages then ["--include-partial-messages"] else [])
    ++ toolFlags settings.allowedTools
    ++ settings.addDirs.flatMap (fun dir => ["--add-dir", dir])
    ++ settings.extraArgs

def plainEnvironment : List (String × Option String) :=
  [("NO_COLOR", some "1"), ("FORCE_COLOR", some "0"), ("TERM", some "dumb"), ("CLAUDECODE", none)]

def ofSettings (settings : AgentSettings) : Launch :=
  ⟨settings.executable, argumentsFor settings, settings.workingDir, plainEnvironment⟩

end Launch

end AgentHost
