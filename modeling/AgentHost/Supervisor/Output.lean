import AgentHost.Supervisor.Ending

namespace AgentHost.Supervisor

def addPart (turn : Turn) : RecordPart → Turn
  | .text text => turn.pushText text
  | .toolUse tool => turn.startTool tool
  | .toolResult id => turn.endTool id
  | .image image => turn.pushImage image

/-- The first of these that is not blank: the text of the result, the text of its blocks, the
    streamed text. -/
def finalText (decoder : Decoder) (record : Json) (merged : String) : String :=
  let own := (decoder.resultText record).or ((decoder.resultContent record).bind (·.text))
  let chosen := match own.filter fun text => !Text.allBlank text with
    | some text => text
    | none => Text.trim merged
  Text.trim (decoder.stripMarkup chosen)

/-- Sends what a result adds to its turn: text that was held back, the result's images, and its
    error or its text. -/
def concludeWith (decoder : Decoder) (record : Json) (turn : Turn) : Turn :=
  let images := ((decoder.resultContent record).map (·.images)).getD []
  let turn := images.foldl Turn.pushImage turn.flushText
  match decoder.resultError record with
  | some message => turn.emit (.error message)
  | none =>
    let text := finalText decoder record turn.merged
    if text.isEmpty then turn else turn.emit (.textFinal text)

def completeTurn (s : Supervisor) (now : Nat) (record : Json) : Supervisor :=
  if s.turn.isNone then s
  else
    let noted := match s.decoder.resultError record with
      | some message => s.note (.turnFailed message)
      | none => s
    let closed := noted.closeTurn fun turn => (concludeWith s.decoder record turn).finish
    let calm := { closed with hang := closed.hang.cancel }
    if calm.state = .busy then { calm with state := .idle }.armIdle now else calm

def handleLine (s : Supervisor) (now : Nat) (line : String) : Supervisor :=
  if Text.allBlank line then s
  else
    match s.decoder.parseLine line with
    | none => s
    | some record =>
      if recordType? record = some resultType then s.completeTurn now record
      else s.changeTurn fun turn => (s.decoder.parts record).foldl addPart turn

def handleLines (s : Supervisor) (now : Nat) (lines : List String) : Supervisor :=
  lines.foldl (fun s line => s.handleLine now line) s

def heard (s : Supervisor) (now : Nat) : Supervisor :=
  if s.state = .busy then s.armHang now else s

def readOutput (s : Supervisor) (now : Nat) (chunk : List UInt8) : Supervisor :=
  if s.outputOpen && !chunk.isEmpty then
    let s := s.heard now
    let (complete, lines) := s.lines.push chunk
    { s with lines }.handleLines now complete
  else s

def closeOutput (s : Supervisor) (now : Nat) : Supervisor :=
  if s.outputOpen then
    let (rest, lines) := s.lines.takeRemainder
    { s with lines, outputOpen := false }.handleLines now rest.toList
  else s

def failOutput (s : Supervisor) (now : Nat) (error : String) : Supervisor :=
  if s.outputOpen then (s.note (.readFailed error)).closeOutput now else s

def logLine (s : Supervisor) (line : String) : Supervisor :=
  if Text.allBlank line then s
  else s.changeTurn (·.emit (.logLine .stderr (Text.trimEnd line)))

def logLines (s : Supervisor) (now : Nat) (lines : List String) : Supervisor :=
  lines.foldl logLine (s.heard now)

def readLog (s : Supervisor) (now : Nat) (chunk : List UInt8) : Supervisor :=
  if s.logOpen && !chunk.isEmpty then
    let (complete, logBuffer) := s.logBuffer.push chunk
    { s with logBuffer }.logLines now complete
  else s

/-- The end of the log. It restarts the hang timer just as a chunk of the log does. -/
def closeLog (s : Supervisor) (now : Nat) : Supervisor :=
  if s.logOpen then
    let (rest, logBuffer) := s.logBuffer.takeRemainder
    { s with logBuffer, logOpen := false }.logLines now rest.toList
  else s

end AgentHost.Supervisor
