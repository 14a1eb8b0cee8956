import AgentHost.Json.Basic

namespace AgentHost.Json

/-- A record of `width` fields is an object, or an array of at most `width` items. -/
def isRecord (width : Nat) : Json → Bool
  | .object _ => true
  | .array items => items.length ≤ width
  | _ => false

def field? : Json → Nat → String → Option Json
  | .object members, _, name => Members.find? members name
  | .array items, place, _ => items[place]?
  | _, _, _ => none

def text? (record : Json) (place : Nat) (name : String) : Option String :=
  (record.field? place name).bind string?

def optional? {α : Type} (record : Json) (place : Nat) (name : String) (absent : α)
    (read : Json → Option α) : Option α :=
  match record.field? place name with
  | none => some absent
  | some value => read value

/-- The tag and the fields of a tagged record. The tag is the member `type`, or the first item of an
    array. -/
def tagged? : Json → Option (String × Json)
  | .object members => (Members.find? members "type").bind fun tag =>
      tag.string?.map fun tag => (tag, .object members)
  | .array (tag :: fields) => tag.string?.map fun tag => (tag, .array fields)
  | _ => none

def caseName? (isEmpty : Json → Bool) : Json → Option String
  | .string name => some name
  | .object [(name, content)] => if isEmpty content then some name else none
  | _ => none

def isNull : Json → Bool
  | .null => true
  | _ => false

def isVoid : Json → Bool
  | .null => true
  | .object [] => true
  | _ => false

end AgentHost.Json
