import AgentHost.Text.Utf8

namespace AgentHost.Text

def isLineEnd (b : UInt8) : Bool := b == 10 || b == 13

def cutLines : List UInt8 → List (List UInt8) × List UInt8
  | [] => ([], [])
  | b :: rest =>
    let (lines, tail) := cutLines rest
    if isLineEnd b then ([] :: lines, tail)
    else match lines with
      | [] => ([], b :: tail)
      | line :: more => ((b :: line) :: more, tail)

/-- The bytes of an unfinished line. Both LF and CR end a line. -/
structure LineBuffer where
  pending : List UInt8 := []
deriving Repr, DecidableEq

namespace LineBuffer

def push (buffer : LineBuffer) (chunk : List UInt8) : List String × LineBuffer :=
  let (lines, tail) := cutLines (buffer.pending ++ chunk)
  (lines.map Utf8.decodeLossy, ⟨tail⟩)

def takeRemainder (buffer : LineBuffer) : Option String × LineBuffer :=
  if buffer.pending.isEmpty then (none, buffer)
  else (some (Utf8.decodeLossy buffer.pending), ⟨[]⟩)

end LineBuffer

end AgentHost.Text
