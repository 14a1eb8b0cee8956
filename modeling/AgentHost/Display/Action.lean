import AgentHost.Json.Record

namespace AgentHost.Display

inductive Action where
  | showActivity (label : String)
  | streamText (text : String)
  | setFinal (text : String)
deriving Repr, DecidableEq

namespace Action

def toJson : Action → Json
  | .showActivity label => .object [("type", .string "show_activity"), ("label", .string label)]
  | .streamText text => .object [("type", .string "stream_text"), ("text", .string text)]
  | .setFinal text => .object [("type", .string "set_final"), ("text", .string text)]

def ofJson? (value : Json) : Option Action := do
  let (tag, record) ← value.tagged?
  guard (record.isRecord 1)
  match tag with
  | "show_activity" => return .showActivity (← record.text? 0 "label")
  | "stream_text" => return .streamText (← record.text? 0 "text")
  | "set_final" => return .setFinal (← record.text? 0 "text")
  | _ => none

end Action

end AgentHost.Display
