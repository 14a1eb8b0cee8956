import AgentHost.Digest.Sha256
import AgentHost.Json.Record
import AgentHost.Text.Base64
import AgentHost.Text.Hex
import AgentHost.Text.Utf8

namespace AgentHost

structure Image where
  mediaType : String
  data : String
deriving Repr, DecidableEq

namespace Image

def ofBytes (mediaType : String) (bytes : List UInt8) : Image := ⟨mediaType, Text.Base64.encode bytes⟩

/-- Media type and data, with a zero byte between them. -/
def keyBytes (image : Image) : List UInt8 :=
  Text.Utf8.encode image.mediaType ++ 0 :: Text.Utf8.encode image.data

def key (image : Image) : String := Text.Hex.ofBytes (Digest.Sha256.digest image.keyBytes)

def toJson (image : Image) : Json :=
  .object [("media_type", .string image.mediaType), ("data", .string image.data)]

def ofJson? (record : Json) : Option Image := do
  guard (record.isRecord 2)
  return ⟨← record.text? 0 "media_type", ← record.text? 1 "data"⟩

end Image

structure ImageFilter where
  cap : Nat
  seen : List String := []
deriving Repr, DecidableEq

namespace ImageFilter

def admits (filter : ImageFilter) (image : Image) : Bool :=
  filter.seen.length < filter.cap && !filter.seen.contains image.key

def offer (filter : ImageFilter) (image : Image) : Bool × ImageFilter :=
  if filter.admits image then (true, { filter with seen := image.key :: filter.seen })
  else (false, filter)

def offerAll (filter : ImageFilter) : List Image → List Bool
  | [] => []
  | image :: rest =>
    let (verdict, next) := filter.offer image
    verdict :: offerAll next rest

end ImageFilter

end AgentHost
