import CommandShell.Registry

/-!
# Built-in commands

The commands that every session knows from the start.  Their failures are all
of the kind that a session shows to its user.
-/

namespace CommandShell

namespace Builtins

open Routine (ask)

/-- Lines as one text, without a line end behind the last. -/
def joinLines (lines : List String) : String :=
  "\n".intercalate lines

def padding (width : Nat) (text : String) : String :=
  String.ofList (List.replicate (width - text.length) ' ')

/-- The first of the arguments, which has to be a path. -/
def pathArgument : List String → Routine String
  | [] => .fail (.missingArgument "path")
  | path :: _ => .done path

/-- One row of the overview of commands, with the names in a column. -/
def overviewRow (width : Nat) (info : CommandInfo) : String :=
  info.name ++ padding width info.name ++ "  " ++ info.description

/-- The overview of commands.  Its first column has room for the longest name,
measured in bytes. -/
def overview (infos : List CommandInfo) : String :=
  let width := (infos.map fun info => info.name.utf8ByteSize).foldl max 0
  joinLines (infos.map (overviewRow width))

def help : List String → Routine Response
  | [] => do
      return .text (overview (← ask .commands))
  | name :: _ => do
      match ← Routine.command? name with
      | none => .fail (.commandNotFound name)
      | some info => return .text (info.description ++ "\nusage: " ++ info.usage)

/-- What the arguments of a directory listing ask for. -/
structure ListingOptions where
  /-- Show the kind of every entry. -/
  long : Bool := false
  /-- Show also the entries whose names begin with a dot. -/
  all : Bool := false
  target : String := "."
  deriving DecidableEq, Repr

namespace ListingOptions

/-- Take one more argument into account.  An argument that begins with a dash
sets flags, and any other replaces the target. -/
def add (options : ListingOptions) (argument : String) : ListingOptions :=
  if argument = "--list" then { options with long := true }
  else if argument = "--all" then { options with all := true }
  else
    match argument.toList with
    | '-' :: flags =>
        { options with
          long := options.long || flags.contains 'l'
          all := options.all || flags.contains 'a' }
    | _ => { options with target := argument }

/-- What a list of arguments asks for. -/
def ofArguments (arguments : List String) : ListingOptions :=
  arguments.foldl add {}

/-- Whether the listing has a row for an entry. -/
def shows (options : ListingOptions) (entry : Entry) : Bool :=
  options.all || entry.name.toList.head? != some '.'

/-- The row for an entry. -/
def row (options : ListingOptions) (entry : Entry) : String :=
  if options.long then entry.kind.tag ++ "  " ++ entry.name else entry.name

end ListingOptions

def ls (arguments : List String) : Routine Response := do
  let options := ListingOptions.ofArguments arguments
  let entries ← Routine.list options.target
  match (entries.filter options.shows).map options.row with
  | [] => return .silent
  | rows => return .text (joinLines rows)

def cd : List String → Routine Response
  | [] => return .silent
  | path :: _ => do
      let target ← Routine.resolve path
      if ← Routine.isDirectory target then
        ask (.setCurrent target)
        return .silent
      else .fail (.notADirectory target)

def pwd (_ : List String) : Routine Response := do
  return .text (← ask .current)

def cat (arguments : List String) : Routine Response := do
  let path ← pathArgument arguments
  let handle ← Routine.openFile path false
  let content ← Routine.read handle
  Routine.close handle
  return .text content

def mkdir (arguments : List String) : Routine Response := do
  let path ← pathArgument arguments
  Routine.makeDirectory path
  return .silent

def touch (arguments : List String) : Routine Response := do
  let path ← pathArgument arguments
  let handle ← Routine.openFile path true
  Routine.close handle
  return .silent

def echo (arguments : List String) : Routine Response :=
  return .text (" ".intercalate arguments)

def clear (_ : List String) : Routine Response :=
  return .clear

def exit (_ : List String) : Routine Response :=
  return .exit

/-- One row of the history, with its number right-aligned in a column. -/
def historyRow (index : Nat) (line : String) : String :=
  let number := toString (index + 1)
  padding 4 number ++ number ++ "  " ++ line

def history (_ : List String) : Routine Response := do
  match (← ask .history).mapIdx historyRow with
  | [] => return .silent
  | rows => return .text (joinLines rows)

def howdy (_ : List String) : Routine Response :=
  return .text "hi there!"

/-- The built-in commands. -/
def all : List Command :=
  [ ⟨⟨"help", "List available commands", "help [command]"⟩, help⟩,
    ⟨⟨"ls", "List directory contents", "ls [-la] [path]"⟩, ls⟩,
    ⟨⟨"cd", "Change working directory", "cd [path]"⟩, cd⟩,
    ⟨⟨"pwd", "Print working directory", "pwd"⟩, pwd⟩,
    ⟨⟨"cat", "Display file contents", "cat <file>"⟩, cat⟩,
    ⟨⟨"mkdir", "Create directory", "mkdir <path>"⟩, mkdir⟩,
    ⟨⟨"touch", "Create empty file", "touch <file>"⟩, touch⟩,
    ⟨⟨"echo", "Print text", "echo [text...]"⟩, echo⟩,
    ⟨⟨"clear", "Clear the terminal", "clear"⟩, clear⟩,
    ⟨⟨"exit", "End the session", "exit"⟩, exit⟩,
    ⟨⟨"history", "Show submitted commands", "history"⟩, history⟩,
    ⟨⟨"howdy", "Say hello", "howdy"⟩, howdy⟩ ]

end Builtins

end CommandShell
