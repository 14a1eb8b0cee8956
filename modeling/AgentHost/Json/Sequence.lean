import AgentHost.Json.Quoted

namespace AgentHost.Json

def isSpace (c : Char) : Bool := c == ' ' || c == '\t' || c == '\n' || c == '\r'

def skipSpace (text : List Char) : List Char := text.dropWhile isSpace

def readWord : List Char → List Char → Except Fault (List Char)
  | [], text => .ok text
  | _ :: _, [] => .error .ended
  | w :: ws, c :: rest => if w = c then readWord ws rest else .error .malformed

variable {σ α : Type}

def nextItem (first : Bool) (close : Char) (text : List Char) : Except Fault (Option (List Char)) :=
  match skipSpace text with
  | [] => .error .ended
  | c :: rest =>
    if c = close then .ok none
    else if first then .ok (some (c :: rest))
    else if c = ',' then
      match skipSpace rest with
      | [] => .error .ended
      | d :: more => if d = close then .error .malformed else .ok (some (d :: more))
    else .error .malformed

def readClose (close : Char) (text : List Char) : Except Fault (List Char) :=
  match skipSpace text with
  | [] => .error .ended
  | c :: rest => if c = close then .ok rest else .error .malformed

def foldItems (item : σ → List Char → Except Fault (σ × List Char)) :
    Nat → Bool → σ → List Char → Except Fault (σ × List Char)
  | 0, _, _, _ => .error .ended
  | fuel + 1, first, state, text => do
    match ← nextItem first ']' text with
    | none => return (state, ← readClose ']' text)
    | some start =>
      let (state, rest) ← item state start
      foldItems item fuel false state rest

def readColon (text : List Char) : Except Fault (List Char) :=
  match skipSpace text with
  | [] => .error .ended
  | ':' :: rest => .ok rest
  | _ => .error .malformed

/-- The members of an object after its opening brace. `name` reads on after the opening quote of a
    name, and `member` reads on after the closing one. -/
def foldMembers (name : List Char → Except Fault (α × List Char))
    (member : σ → α → List Char → Except Fault (σ × List Char)) :
    Nat → Bool → σ → List Char → Except Fault (σ × List Char)
  | 0, _, _, _ => .error .ended
  | fuel + 1, first, state, text => do
    match ← nextItem first '\x7d' text with
    | none => return (state, ← readClose '\x7d' text)
    | some ('"' :: start) =>
      let (key, rest) ← name start
      let (state, rest) ← member state key rest
      foldMembers name member fuel false state rest
    | some _ => .error .malformed

end AgentHost.Json
