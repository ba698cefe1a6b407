import CommandShell.Routine

/-!
# Commands and their registry

A command turns its arguments into a routine, and the routine yields a response
that the session acts upon.  A registry holds one command for each name, the one
registered last.
-/

namespace CommandShell

/-- What a command wants the session to do when it has run. -/
inductive Response where
  /-- Write a text and end the line. -/
  | text (text : String)
  | silent
  /-- Clear the output. -/
  | clear
  /-- End the session. -/
  | exit
  deriving DecidableEq, Repr

/-- A named routine that depends on arguments. -/
structure Command extends CommandInfo where
  body : List String → Routine Response

/-- The command for a routine about which nothing is known but its name. -/
def Command.plain (name : String) (body : List String → Routine Response) : Command where
  name := name
  description := "user command"
  usage := name
  body := body

/-- The registered commands under their names. -/
structure Registry where
  commands : NameMap Command

namespace Registry

def empty : Registry where
  commands := .empty

instance : Inhabited Registry := ⟨empty⟩

/-- Register a command in the stead of one with the same name. -/
def register (registry : Registry) (command : Command) : Registry where
  commands := registry.commands.insert command.name command

/-- Register commands one after the other. -/
def registerAll (registry : Registry) (commands : List Command) : Registry :=
  commands.foldl register registry

/-- The command registered under a name. -/
def find? (registry : Registry) (name : String) : Option Command :=
  registry.commands.find? name

/-- Whether a command is registered under a name. -/
def contains (registry : Registry) (name : String) : Bool :=
  registry.commands.contains name

/-- The number of names under which commands are registered. -/
def size (registry : Registry) : Nat :=
  registry.commands.size

/-- What is known about the commands, in the order of their names. -/
def infos (registry : Registry) : List CommandInfo :=
  registry.commands.values.map Command.toCommandInfo

/-- The registered names that begin with a text, in ascending order. -/
def completions (registry : Registry) (beginning : String) : List String :=
  registry.commands.names.filter fun name => beginning.toList.isPrefixOf name.toList

end Registry

end CommandShell
