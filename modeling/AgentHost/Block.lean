import AgentHost.Image

namespace AgentHost

/-- The source of an image block. Only the kind `base64` carries the image itself. -/
structure ImageSource where
  kind : String
  mediaType : String := ""
  data : String := ""
deriving Repr, DecidableEq

namespace ImageSource

def inlineKind : String := "base64"

def ofImage (image : Image) : ImageSource := ⟨inlineKind, image.mediaType, image.data⟩

def image? (source : ImageSource) : Option Image :=
  if source.kind = inlineKind then some ⟨source.mediaType, source.data⟩ else none

def toJson (source : ImageSource) : Json :=
  .object [("type", .string source.kind), ("media_type", .string source.mediaType),
    ("data", .string source.data)]

def ofJson? (record : Json) : Option ImageSource := do
  guard (record.isRecord 3)
  return {
    kind := ← record.text? 0 "type"
    mediaType := ← record.optional? 1 "media_type" "" Json.string?
    data := ← record.optional? 2 "data" "" Json.string? }

end ImageSource

/-- A block of message content; `unknown` stands for every other type. -/
inductive Block where
  | text (body : String)
  | toolUse (id name : String) (input : Json)
  | toolResult (toolUseId : String) (content : Json) (isError : Bool)
  | image (source : ImageSource)
  | unknown

namespace Block

def tag : Block → String
  | .text _ => "text"
  | .toolUse _ _ _ => "tool_use"
  | .toolResult _ _ _ => "tool_result"
  | .image _ => "image"
  | .unknown => "unknown"

def fields : Block → Members
  | .text body => [("text", .string body)]
  | .toolUse id name input => [("id", .string id), ("name", .string name), ("input", input)]
  | .toolResult id content isError =>
    [("tool_use_id", .string id), ("content", content), ("is_error", .bool isError)]
  | .image source => [("source", source.toJson)]
  | .unknown => []

def toJson (block : Block) : Json := .object (("type", .string block.tag) :: block.fields)

def ofFields? (tag : String) (record : Json) : Option Block :=
  match tag with
  | "text" => do
    guard (record.isRecord 1)
    return .text (← record.text? 0 "text")
  | "tool_use" => do
    guard (record.isRecord 3)
    return .toolUse (← record.text? 0 "id") (← record.text? 1 "name")
      (← record.optional? 2 "input" .null some)
  | "tool_result" => do
    guard (record.isRecord 3)
    return .toolResult (← record.text? 0 "tool_use_id") (← record.optional? 1 "content" .null some)
      (← record.optional? 2 "is_error" false Json.bool?)
  | "image" => do
    guard (record.isRecord 1)
    return .image (← ImageSource.ofJson? (← record.field? 0 "source"))
  | _ => do
    guard (record.isRecord 0)
    return .unknown

def ofJson? (value : Json) : Option Block := do
  let (tag, record) ← value.tagged?
  ofFields? tag record

def list (value : Json) : List Block := (value.array?.getD []).filterMap ofJson?

end Block

end AgentHost
