import AgentHost.Block
import AgentHost.Json.Printer

namespace AgentHost

structure Prompt where
  text : String
  images : List Image := []
deriving Repr, DecidableEq

namespace Prompt

/-- The bare text if there are no images, otherwise a text block followed by the image blocks. -/
def content (prompt : Prompt) : Json :=
  if prompt.images.isEmpty then .string prompt.text
  else .array ((Block.text prompt.text).toJson
    :: prompt.images.map fun image => (Block.image (ImageSource.ofImage image)).toJson)

def record (prompt : Prompt) : Json :=
  .object [("type", .string "user"),
    ("message", .object [("role", .string "user"), ("content", prompt.content)])]

def line (prompt : Prompt) : String := prompt.record.render ++ "\n"

end Prompt

end AgentHost
