import AgentHost.Decimal.Shortest
import AgentHost.Json.Basic
import AgentHost.Json.Quoted

namespace AgentHost.Json

def numberText : Number → String
  | .int value => toString value
  | .real value => Decimal.jsonText value

mutual

def text : Json → List Char
  | .null => ['n', 'u', 'l', 'l']
  | .bool true => ['t', 'r', 'u', 'e']
  | .bool false => ['f', 'a', 'l', 's', 'e']
  | .number n => (numberText n).toList
  | .string s => quote s
  | .array items => '[' :: itemsText items ++ [']']
  | .object members => '\x7b' :: membersText members ++ ['\x7d']

def itemsText : List Json → List Char
  | [] => []
  | [item] => text item
  | item :: rest => text item ++ ',' :: itemsText rest

def membersText : List (String × Json) → List Char
  | [] => []
  | [(name, value)] => quote name ++ ':' :: text value
  | (name, value) :: rest => quote name ++ ':' :: text value ++ ',' :: membersText rest

end

def render (value : Json) : String := String.ofList value.text

end AgentHost.Json
