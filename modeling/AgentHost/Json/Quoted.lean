import AgentHost.Json.Basic
import AgentHost.Text.Hex

namespace AgentHost.Json

def isControl (c : Char) : Bool := c.toNat < 0x20

def unescaped? : Char → Option Char
  | '"' => some '"'
  | '\\' => some '\\'
  | '/' => some '/'
  | 'b' => some '\x08'
  | 'f' => some '\x0c'
  | 'n' => some '\n'
  | 'r' => some '\r'
  | 't' => some '\t'
  | _ => none

/-- Four hexadecimal digits. The text counts as ended if fewer than four bytes are left. -/
def readUnit (text : List Char) : Except Fault (Nat × List Char) :=
  match text with
  | p :: q :: r :: s :: rest =>
    match Text.Hex.value? p, Text.Hex.value? q, Text.Hex.value? r, Text.Hex.value? s with
    | some a, some b, some c, some d => .ok (((a * 16 + b) * 16 + c) * 16 + d, rest)
    | _, _, _, _ => .error .malformed
  | _ =>
    let left := text.foldl (fun size c => size + c.utf8Size) 0
    .error (if left < 4 then .ended else .malformed)

def isLeading (unit : Nat) : Bool := 0xD800 ≤ unit && unit ≤ 0xDBFF

def isTrailing (unit : Nat) : Bool := 0xDC00 ≤ unit && unit ≤ 0xDFFF

def readTrailing : List Char → Except Fault (Nat × List Char)
  | [] => .error .ended
  | ['\\'] => .error .ended
  | '\\' :: 'u' :: rest => do
    let (unit, rest) ← readUnit rest
    if isTrailing unit then return (unit, rest) else .error .malformed
  | _ => .error .malformed

def readCodePoint (text : List Char) : Except Fault (Char × List Char) := do
  let (unit, rest) ← readUnit text
  if isTrailing unit then .error .malformed
  else if isLeading unit then
    let (second, rest) ← readTrailing rest
    return (Char.ofNat (0x10000 + (unit - 0xD800) * 0x400 + (second - 0xDC00)), rest)
  else return (Char.ofNat unit, rest)

def readEscape : List Char → Except Fault (Char × List Char)
  | [] => .error .ended
  | 'u' :: rest => readCodePoint rest
  | c :: rest =>
    match unescaped? c with
    | some plain => .ok (plain, rest)
    | none => .error .malformed

def readPiece : List Char → Except Fault (Option Char × List Char)
  | [] => .error .ended
  | '"' :: rest => .ok (none, rest)
  | '\\' :: rest => (readEscape rest).map fun (c, rest) => (some c, rest)
  | c :: rest => if isControl c then .error .malformed else .ok (some c, rest)

def readPieces : Nat → List Char → Except Fault (List Char × List Char)
  | 0, _ => .error .ended
  | fuel + 1, text => do
    match ← readPiece text with
    | (none, rest) => return ([], rest)
    | (some c, rest) =>
      let (cs, rest) ← readPieces fuel rest
      return (c :: cs, rest)

def readQuoted (text : List Char) : Except Fault (String × List Char) := do
  let (cs, rest) ← readPieces (text.length + 1) text
  return (String.ofList cs, rest)

/-- Skips a quoted text. Surrogates need not come in pairs here. -/
def skipQuoted : Nat → List Char → Except Fault (List Char)
  | 0, _ => .error .ended
  | _, [] => .error .ended
  | _, '"' :: rest => .ok rest
  | fuel + 1, '\\' :: 'u' :: rest => do
    let (_, rest) ← readUnit rest
    skipQuoted fuel rest
  | fuel + 1, '\\' :: rest => do
    let (_, rest) ← readEscape rest
    skipQuoted fuel rest
  | fuel + 1, c :: rest => if isControl c then .error .malformed else skipQuoted fuel rest

def shortEscape? : Char → Option Char
  | '"' => some '"'
  | '\\' => some '\\'
  | '\x08' => some 'b'
  | '\x0c' => some 'f'
  | '\n' => some 'n'
  | '\r' => some 'r'
  | '\t' => some 't'
  | _ => none

def escape (c : Char) : List Char :=
  match shortEscape? c with
  | some letter => ['\\', letter]
  | none => if isControl c then '\\' :: 'u' :: Text.Hex.digits 4 c.toNat else [c]

def quote (s : String) : List Char := '"' :: s.toList.flatMap escape ++ ['"']

end AgentHost.Json
