import AgentHost.Decimal.Binary64

namespace AgentHost

/-- An integer from -2^63 up to below 2^64, or a double. -/
inductive Number where
  | int (value : Int)
  | real (value : Binary64)
deriving DecidableEq

inductive Json where
  | null
  | bool (value : Bool)
  | number (value : Number)
  | string (value : String)
  | array (items : List Json)
  | object (members : List (String × Json))
deriving Inhabited

abbrev Members := List (String × Json)

namespace Members

def find? (members : Members) (name : String) : Option Json := members.lookup name

/-- A second value for a name replaces the first one, in its place. -/
def insert (members : Members) (name : String) (value : Json) : Members :=
  match members with
  | [] => [(name, value)]
  | (other, old) :: rest =>
    if other = name then (name, value) :: rest else (other, old) :: insert rest name value

end Members

namespace Json

def member? : Json → String → Option Json
  | .object members, name => Members.find? members name
  | _, _ => none

def string? : Json → Option String
  | .string s => some s
  | _ => none

def bool? : Json → Option Bool
  | .bool b => some b
  | _ => none

def array? : Json → Option (List Json)
  | .array items => some items
  | _ => none

def nat (n : Nat) : Json := .number (.int n)

/-- Why a text cannot be read: it stops inside a value, it breaks the grammar, or a value is not
    of the kind asked for. -/
inductive Fault where
  | ended
  | malformed
  | unsuitable
deriving Repr, DecidableEq

end Json

end AgentHost
