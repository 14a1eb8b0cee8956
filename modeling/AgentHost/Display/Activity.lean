import AgentHost.Json.Basic
import AgentHost.Text.Blank

namespace AgentHost.Display

def inputText? (input : Json) (names : List String) : Option String :=
  names.findSome? fun name =>
    ((input.member? name).bind Json.string?).filter fun text => !Text.allBlank text

def commonNames : List String :=
  ["file_path", "path", "pattern", "command", "url", "query", "description", "prompt", "subject",
   "name"]

structure Phrase where
  verb : String
  names : List String
  otherwise : String
deriving Repr, DecidableEq

def phrase? : String → Option Phrase
  | "Read" => some ⟨"Reading ", ["file_path", "path"], "a file"⟩
  | "Write" => some ⟨"Writing ", ["file_path", "path"], "a file"⟩
  | "Edit" | "MultiEdit" => some ⟨"Editing ", ["file_path", "path"], "a file"⟩
  | "NotebookEdit" => some ⟨"Editing ", ["notebook_path"], "a notebook"⟩
  | "Bash" => some ⟨"Running ", ["description", "command"], "a command"⟩
  | "Glob" => some ⟨"Finding ", ["pattern"], "files"⟩
  | "Grep" => some ⟨"Searching for ", ["pattern"], "text"⟩
  | "WebSearch" => some ⟨"Searching the web for ", ["query"], "results"⟩
  | "WebFetch" => some ⟨"Fetching ", ["url"], "a page"⟩
  | "Task" => some ⟨"Delegating ", ["description", "prompt"], "a task"⟩
  | _ => none

def activityLabel (name : String) (input : Json) : String :=
  match phrase? name with
  | some phrase => phrase.verb ++ (inputText? input phrase.names).getD phrase.otherwise
  | none =>
    if name = "TodoWrite" then
      match (input.member? "todos").bind Json.array? with
      | some todos => "Updating " ++ toString todos.length ++ " todo(s)"
      | none => "Updating todos"
    else
      match inputText? input commonNames with
      | some subject => "Using " ++ name ++ ": " ++ subject
      | none => "Using " ++ name

end AgentHost.Display
