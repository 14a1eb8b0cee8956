import AgentHost.Event

namespace AgentHost

structure ResultContent where
  text : Option String := none
  images : List Image := []
deriving Repr, DecidableEq

inductive RecordPart where
  | text (text : String)
  | toolUse (tool : ToolUse)
  | toolResult (id : String)
  | image (image : Image)

structure Decoder where
  /-- The record on a line, if it is one that matters. -/
  parseLine : String → Option Json
  text : Json → Option String
  /-- The final text of a result record whose payload is a string. -/
  resultText : Json → Option String
  resultContent : Json → Option ResultContent
  images : Json → List Image
  stripMarkup : String → String
  toolUses : Json → List ToolUse
  toolResults : Json → List String
  /-- The error of a result record that reports a failed turn. -/
  resultError : Json → Option String
  /-- All that a record in the middle of a turn carries, in the order to show it. -/
  parts : Json → List RecordPart

namespace Decoder

def partsByKind (decoder : Decoder) (record : Json) : List RecordPart :=
  (decoder.text record).toList.map .text ++ (decoder.toolUses record).map .toolUse
    ++ (decoder.toolResults record).map .toolResult ++ (decoder.images record).map .image

def grouped (decoder : Decoder) : Decoder := { decoder with parts := decoder.partsByKind }

def withoutTools (decoder : Decoder) : Decoder :=
  grouped { decoder with
    toolUses := fun _ => []
    toolResults := fun _ => []
    resultError := fun _ => none }

end Decoder

def recordType? (record : Json) : Option String := (record.member? "type").bind Json.string?

def resultType : String := "result"

end AgentHost
