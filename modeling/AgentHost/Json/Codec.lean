import AgentHost.Json.Reader
import AgentHost.Json.Record

namespace AgentHost.Json

structure Codec (α : Type) where
  read : List Char → Except Fault (α × List Char)
  ofJson? : Json → Option α
  toJson : α → Json

def readScalar (text : List Char) : Except Fault (Json × List Char) :=
  match skipSpace text with
  | '[' :: _ | '\x7b' :: _ => .error .unsuitable
  | start => readValue 0 start

/-- The fault of a text whose value is not of the kind asked for. If the value cannot be read at
    all, it is that fault. -/
def otherKind (text : List Char) : Fault :=
  match readScalar text with
  | .ok _ => .unsuitable
  | .error fault => fault

namespace Codec

variable {α σ : Type}

def scalar (ofJson? : Json → Option α) (toJson : α → Json) : Codec α where
  read text := do
    let (value, rest) ← readScalar text
    match ofJson? value with
    | some a => return (a, rest)
    | none => .error .unsuitable
  ofJson? := ofJson?
  toJson := toJson

def string : Codec String := scalar Json.string? Json.string

def bool : Codec Bool := scalar Json.bool? Json.bool

def word? : Json → Option Nat
  | .number (.int value) => if 0 ≤ value then some value.toNat else none
  | _ => none

def word : Codec Nat := scalar word? Json.nat

def real? : Json → Option Binary64
  | .number (.real value) => some value
  | .number (.int value) => Binary64.ofInt value
  | _ => none

def real : Codec Binary64 := scalar real? fun value => .number (.real value)

def list (item : Codec α) : Codec (List α) where
  read text :=
    match skipSpace text with
    | '[' :: rest => do
      let (items, rest) ← foldItems
        (fun items text => do
          let (a, rest) ← item.read text
          return (a :: items, rest))
        (rest.length + 1) true [] rest
      return (items.reverse, rest)
    | start => .error (otherKind start)
  ofJson? value := value.array?.bind (·.mapM item.ofJson?)
  toJson items := .array (items.map item.toJson)

def option (item : Codec α) : Codec (Option α) where
  read text :=
    match skipSpace text with
    | 'n' :: rest => do return (none, ← readWord ['u', 'l', 'l'] rest)
    | start => (item.read start).map fun (a, rest) => (some a, rest)
  ofJson?
    | .null => some none
    | value => (item.ofJson? value).map some
  toJson
    | none => .null
    | some a => item.toJson a

end Codec

structure Field (σ : Type) where
  name : String
  read : List Char → Except Fault ((σ → σ) × List Char)
  ofJson? : Json → Option (σ → σ)
  toJson : σ → Json

namespace Field

variable {α σ : Type}

def of (name : String) (codec : Codec α) (get : σ → α) (set : α → σ → σ) : Field σ where
  name := name
  read text := (codec.read text).map fun (a, rest) => (set a, rest)
  ofJson? value := (codec.ofJson? value).map set
  toJson state := codec.toJson (get state)

def readPlaces : List (Field σ) → Bool → σ → List Char → Except Fault (σ × List Char)
  | [], _, state, text => do return (state, ← readClose ']' text)
  | field :: rest, first, state, text => do
    match ← nextItem first ']' text with
    | none => return (state, ← readClose ']' text)
    | some start =>
      let (change, after) ← field.read start
      readPlaces rest false (change state) after

/-- Reads a member of a record, given the names met so far. A known name may occur only once, and
    the value of an unknown name is skipped. -/
def readNamed (fields : List (Field σ)) (record : σ × List String) (name : String)
    (text : List Char) : Except Fault ((σ × List String) × List Char) :=
  match fields.find? (·.name == name) with
  | none => do
    let rest ← readColon text
    let (_, rest) ← skipValue rest.length rest
    return (record, rest)
  | some field =>
    if record.2.contains name then .error .unsuitable
    else do
      let (change, rest) ← field.read (← readColon text)
      return ((change record.1, name :: record.2), rest)

def changeAt (record : Json) (state : σ) (field : Field σ × Nat) : Option σ :=
  match record.field? field.2 field.1.name with
  | none => some state
  | some value => (field.1.ofJson? value).map (· state)

end Field

/-- A record all of whose fields are optional. A missing field has its value in `start`. -/
def Codec.record {σ : Type} (fields : List (Field σ)) (start : σ) : Codec σ where
  read text :=
    match skipSpace text with
    | '[' :: rest => Field.readPlaces fields true start rest
    | '\x7b' :: rest => do
      let ((state, _), rest) ←
        foldMembers readQuoted (Field.readNamed fields) (rest.length + 1) true (start, []) rest
      return (state, rest)
    | other => .error (otherKind other)
  ofJson? value := do
    guard (value.isRecord fields.length)
    fields.zipIdx.foldlM (Field.changeAt value) start
  toJson state := .object (fields.map fun field => (field.name, field.toJson state))

end AgentHost.Json
