import AgentHost.Settings.Basic
import AgentHost.Text.Utf8

namespace AgentHost.Settings

inductive File where
  | missing
  | directory
  | content (bytes : List UInt8)

inductive LoadError where
  | isDirectory
  | notUtf8
  | json (fault : Json.Fault)
deriving Repr, DecidableEq

def LoadError.ioMessage? : LoadError → Option String
  | .isDirectory => some "IO error: Is a directory (os error 21)"
  | .notUtf8 => some "IO error: stream did not contain valid UTF-8"
  | .json _ => none

def load : File → Except LoadError Settings
  | .missing => .ok {}
  | .directory => .error .isDirectory
  | .content bytes =>
    match Text.Utf8.decode? bytes with
    | none => .error .notUtf8
    | some text => (parse text).mapError .json

/-- Below the configuration directory, which is used only if it is absolute, else below `.config`
    in the home directory. -/
def location (home : String) (configHome : Option String) : String :=
  let base := match configHome with
    | some dir => if Text.Path.isAbsolute dir then dir else Text.Path.join home ".config"
    | none => Text.Path.join home ".config"
  Text.Path.join (Text.Path.join base "agent-relay") "settings.json"

end AgentHost.Settings
