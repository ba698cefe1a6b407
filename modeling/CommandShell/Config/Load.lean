import CommandShell.Config.Toml
import CommandShell.Folder

/-!
# Loading configurations

A configuration is a file, named by the first argument of a program or else by a
variable of its environment.  Without a name the defaults hold.
-/

namespace CommandShell

namespace Config

/-- The variable of the environment that may name the configuration. -/
def pathVariable : String := "TINYSH_CONFIG"

/-- The path of the configuration. -/
def path? (arguments : List String) (environment : Option String) : Option String :=
  arguments.head?.or environment

/-- The configuration for what reading the file at a path has come to. -/
def ofReading (path : String) : Except ReadFailure String → Except Failure Config
  | .error failure => .error (.config (path ++ ": " ++ failure.message))
  | .ok text => ofToml text

/-- The configuration in a file. -/
def load (folder : Folder) (path : String) : Except Failure Config :=
  ofReading path (folder.readText path)

/-- The configuration at a path, or the defaults where no path is given. -/
def loadOrDefault (folder : Folder) : Option String → Except Failure Config
  | none => .ok {}
  | some path => load folder path

end Config

end CommandShell
