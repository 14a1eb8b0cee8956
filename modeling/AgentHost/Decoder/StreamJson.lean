import AgentHost.Block
import AgentHost.Decoder.Basic
import AgentHost.Json.Reader
import AgentHost.Text.Blank
import AgentHost.Text.Markup

namespace AgentHost.Decoder.StreamJson

def ignoredTypes : List String := ["system", "keep_alive", "control_request", "control_response"]

def parseLine (line : String) : Option Json := do
  let trimmed := Text.trim line
  guard (!trimmed.isEmpty)
  let record ← Json.parse? trimmed
  let type ← recordType? record
  guard (!ignoredTypes.contains type)
  return record

def messageBlocks (record : Json) : List Block :=
  match (record.member? "message").bind (·.member? "content") with
  | some content => Block.list content
  | none => []

def textOf : Block → Option String
  | .text body => some body
  | _ => none

def deltaText (record : Json) : Option String := do
  let event ← record.member? "event"
  guard (recordType? event = some "content_block_delta")
  let delta ← event.member? "delta"
  guard (recordType? delta = some "text_delta")
  (← delta.member? "text").string?

def joinedText (blocks : List Block) : String := String.join (blocks.filterMap textOf)

/-- The live text of a record. It comes from stream events if the agent sends partial messages, and
    from the assistant's messages otherwise. -/
def text (partialMessages : Bool) (record : Json) : Option String := do
  let text ←
    match ← recordType? record, partialMessages with
    | "stream_event", true => deltaText record
    | "assistant", false => some (joinedText (messageBlocks record))
    | _, _ => none
  if text.isEmpty then none else some text

def isResult (record : Json) : Bool := recordType? record == some resultType

def resultText (record : Json) : Option String :=
  if isResult record then
    ((record.member? "result").bind Json.string?).filter fun text => !Text.allBlank text
  else none

def imageOf : Block → Option Image
  | .image source => source.image?
  | _ => none

def inlineImages (blocks : List Block) : List Image := blocks.filterMap imageOf

def resultContent (record : Json) : Option ResultContent := do
  guard (isResult record)
  let payload ← record.member? "result"
  let _ ← payload.array?
  let blocks := Block.list payload
  let text := joinedText blocks
  return {
    text := if Text.allBlank text then none else some text
    images := inlineImages blocks }

def blockImages : Block → List Image
  | .image source => source.image?.toList
  | .toolResult _ content _ => inlineImages (Block.list content)
  | _ => []

def images (record : Json) : List Image :=
  if recordType? record = some "assistant" ∨ recordType? record = some "user" then
    (messageBlocks record).flatMap blockImages
  else []

def toolUseOf : Block → Option ToolUse
  | .toolUse id name input => some ⟨id, name, input⟩
  | _ => none

def toolUses (record : Json) : List ToolUse :=
  if recordType? record = some "assistant" then (messageBlocks record).filterMap toolUseOf else []

def toolResultOf : Block → Option String
  | .toolResult id _ _ => some id
  | _ => none

def toolResults (record : Json) : List String :=
  if recordType? record = some "user" then (messageBlocks record).filterMap toolResultOf else []

def resultError (record : Json) : Option String := do
  guard (isResult record)
  guard ((record.member? "is_error").bind Json.bool? = some true)
  return (resultText record).getD
    ("agent reported " ++ ((record.member? "subtype").bind Json.string?).getD "error")

def blockParts (partialMessages assistant : Bool) : Block → List RecordPart
  | .text body => if assistant && !partialMessages && !body.isEmpty then [.text body] else []
  | .toolUse id name input => if assistant then [.toolUse ⟨id, name, input⟩] else []
  | .toolResult id content isError =>
    (if assistant then [] else [.toolResult id])
      ++ (blockImages (.toolResult id content isError)).map .image
  | .image source => source.image?.toList.map .image
  | .unknown => []

def joinTexts : List RecordPart → List RecordPart
  | [] => []
  | .text head :: rest =>
    match joinTexts rest with
    | .text next :: more => .text (head ++ next) :: more
    | parts => .text head :: parts
  | part :: rest => part :: joinTexts rest

def parts (partialMessages : Bool) (record : Json) : List RecordPart :=
  match recordType? record with
  | some "assistant" =>
    joinTexts ((messageBlocks record).flatMap (blockParts partialMessages true))
  | some "user" => joinTexts ((messageBlocks record).flatMap (blockParts partialMessages false))
  | _ => (text partialMessages record).toList.map .text

end AgentHost.Decoder.StreamJson

namespace AgentHost.Decoder

def streamJson (partialMessages : Bool) : Decoder where
  parseLine := StreamJson.parseLine
  text := StreamJson.text partialMessages
  resultText := StreamJson.resultText
  resultContent := StreamJson.resultContent
  images := StreamJson.images
  stripMarkup := Text.Markup.strip
  toolUses := StreamJson.toolUses
  toolResults := StreamJson.toolResults
  resultError := StreamJson.resultError
  parts := StreamJson.parts partialMessages

end AgentHost.Decoder
