import CommandShell.Failure

/-!
# Session configuration

The settings of a session.  Configuration texts may leave out any of them; the
value that then takes its place is the default of its field.
-/

namespace CommandShell

/-- The settings of a session. -/
structure Config where
  /-- The directory in which the session begins. -/
  home : String := "/home"
  /-- What the prompt shows behind the name of the current directory. -/
  promptSuffix : String := " % "
  /-- How many submitted commands are remembered; zero stands for all. -/
  historyLimit : Nat := 100
  /-- Whether the session begins with the demonstration files. -/
  seedDemoFiles : Bool := true
  /-- Command lines that are run before the first prompt. -/
  startup : List String := []
  deriving DecidableEq, Repr

namespace Config

instance : Inhabited Config := ⟨{}⟩

/-- A setting that keeps its default where nothing is given for it. -/
def orDefault {α β : Type} (given : Option β) (read : β → Option α) (default : α) :
    Option α :=
  match given with
  | none => some default
  | some value => read value

/-- Refuse a configuration whose home is not an absolute path. -/
def checked (config : Config) : Except Failure Config :=
  if config.home.toList.head? = some '/' then .ok config
  else .error (.config ("home must be an absolute path: " ++ config.home))

end Config

end CommandShell
