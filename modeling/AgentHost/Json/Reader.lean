import AgentHost.Json.Number
import AgentHost.Json.Sequence

namespace AgentHost.Json

def depthLimit : Nat := 127

def readValue : Nat → List Char → Except Fault (Json × List Char)
  | depth, text =>
    match skipSpace text with
    | [] => .error .ended
    | 'n' :: rest => do return (.null, ← readWord ['u', 'l', 'l'] rest)
    | 't' :: rest => do return (.bool true, ← readWord ['r', 'u', 'e'] rest)
    | 'f' :: rest => do return (.bool false, ← readWord ['a', 'l', 's', 'e'] rest)
    | '"' :: rest => (readQuoted rest).map fun (s, rest) => (.string s, rest)
    | '[' :: rest =>
      match depth with
      | 0 => .error .malformed
      | depth + 1 => do
        let (items, rest) ← foldItems
          (fun items text => do
            let (value, rest) ← readValue depth text
            return (value :: items, rest))
          (rest.length + 1) true [] rest
        return (.array items.reverse, rest)
    | '\x7b' :: rest =>
      match depth with
      | 0 => .error .malformed
      | depth + 1 => do
        let (members, rest) ← foldMembers readQuoted
          (fun members name text => do
            let (value, rest) ← readValue depth (← readColon text)
            return (Members.insert members name value, rest))
          (rest.length + 1) true [] rest
        return (.object members, rest)
    | c :: rest =>
      if c = '-' ∨ (digitValue? c).isSome then
        (readNumber (c :: rest)).map fun (n, rest) => (.number n, rest)
      else .error .malformed

def skipValue : Nat → List Char → Except Fault (Unit × List Char)
  | depth, text =>
    match skipSpace text with
    | [] => .error .ended
    | 'n' :: rest => do return ((), ← readWord ['u', 'l', 'l'] rest)
    | 't' :: rest => do return ((), ← readWord ['r', 'u', 'e'] rest)
    | 'f' :: rest => do return ((), ← readWord ['a', 'l', 's', 'e'] rest)
    | '"' :: rest => do return ((), ← skipQuoted (rest.length + 1) rest)
    | '[' :: rest =>
      match depth with
      | 0 => .error .malformed
      | depth + 1 => foldItems (fun _ text => skipValue depth text) (rest.length + 1) true () rest
    | '\x7b' :: rest =>
      match depth with
      | 0 => .error .malformed
      | depth + 1 =>
        foldMembers (fun text => do return ((), ← skipQuoted (text.length + 1) text))
          (fun _ _ text => do skipValue depth (← readColon text))
          (rest.length + 1) true () rest
    | c :: rest =>
      if c = '-' ∨ (digitValue? c).isSome then skipNumber (c :: rest) else .error .malformed

def whole {α : Type} (read : List Char → Except Fault (α × List Char)) (text : List Char) :
    Except Fault α := do
  let (value, rest) ← read text
  if (skipSpace rest).isEmpty then return value else .error .malformed

def parse (text : String) : Except Fault Json := whole (readValue depthLimit) text.toList

def parse? (text : String) : Option Json := (parse text).toOption

end AgentHost.Json
