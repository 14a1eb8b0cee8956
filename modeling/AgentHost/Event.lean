import AgentHost.Image

namespace AgentHost

structure ToolUse where
  id : String
  name : String
  input : Json

namespace ToolUse

def toJson (tool : ToolUse) : Json :=
  .object [("id", .string tool.id), ("name", .string tool.name), ("input", tool.input)]

def ofJson? (record : Json) : Option ToolUse := do
  guard (record.isRecord 3)
  return ⟨← record.text? 0 "id", ← record.text? 1 "name", ← record.field? 2 "input"⟩

end ToolUse

inductive LogStream where
  | stdout
  | stderr
deriving Repr, DecidableEq

namespace LogStream

def name : LogStream → String
  | .stdout => "stdout"
  | .stderr => "stderr"

def ofName? : String → Option LogStream
  | "stdout" => some .stdout
  | "stderr" => some .stderr
  | _ => none

def toJson (stream : LogStream) : Json := .string stream.name

def ofJson? (value : Json) : Option LogStream := (value.caseName? Json.isNull).bind ofName?

end LogStream

inductive Event where
  | textDelta (text : String)
  | textFinal (text : String)
  | toolStart (name : String) (input : Json)
  | toolEnd
  | imageData (image : Image)
  | logLine (stream : LogStream) (line : String)
  | error (message : String)
  | done

namespace Event

def isDone : Event → Bool
  | .done => true
  | _ => false

def tag : Event → String
  | .textDelta _ => "text_delta"
  | .textFinal _ => "text_final"
  | .toolStart _ _ => "tool_start"
  | .toolEnd => "tool_end"
  | .imageData _ => "image_data"
  | .logLine _ _ => "log_line"
  | .error _ => "error"
  | .done => "done"

def fields : Event → Members
  | .textDelta text | .textFinal text => [("text", .string text)]
  | .toolStart name input => [("name", .string name), ("input", input)]
  | .imageData image => [("image", image.toJson)]
  | .logLine stream line => [("stream", stream.toJson), ("line", .string line)]
  | .error message => [("message", .string message)]
  | .toolEnd | .done => []

def toJson (event : Event) : Json := .object (("type", .string event.tag) :: event.fields)

def ofFields? (tag : String) (record : Json) : Option Event :=
  match tag with
  | "text_delta" => do
    guard (record.isRecord 1)
    return .textDelta (← record.text? 0 "text")
  | "text_final" => do
    guard (record.isRecord 1)
    return .textFinal (← record.text? 0 "text")
  | "tool_start" => do
    guard (record.isRecord 2)
    return .toolStart (← record.text? 0 "name") (← record.field? 1 "input")
  | "tool_end" => do
    guard (record.isRecord 0)
    return .toolEnd
  | "image_data" => do
    guard (record.isRecord 1)
    return .imageData (← Image.ofJson? (← record.field? 0 "image"))
  | "log_line" => do
    guard (record.isRecord 2)
    let name ← (← record.field? 0 "stream").caseName? Json.isVoid
    return .logLine (← LogStream.ofName? name) (← record.text? 1 "line")
  | "error" => do
    guard (record.isRecord 1)
    return .error (← record.text? 0 "message")
  | "done" => do
    guard (record.isRecord 0)
    return .done
  | _ => none

def ofJson? (value : Json) : Option Event := do
  let (tag, record) ← value.tagged?
  ofFields? tag record

end Event

end AgentHost
