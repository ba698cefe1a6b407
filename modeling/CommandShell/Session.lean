import CommandShell.Builtins
import CommandShell.CommandLine
import CommandShell.Config.Basic
import CommandShell.Editor
import CommandShell.Workspace

/-!
# Sessions

A session joins the workspace, the registry of commands and the line editor
behind one prompt.  Whatever happens to a submitted line is told on the output:
first the line itself, then what its command writes, and last a report if it
failed.
-/

namespace CommandShell

/-- What a session says when it ends. -/
structure Farewell where
  /-- Whether the output is cleared first. -/
  clears : Bool
  text : String
  /-- Whether the text is written as a line. -/
  endsLine : Bool := true
  deriving DecidableEq, Repr

/-- What the farewell does to the output. -/
def Farewell.write (farewell : Farewell) (output : Output) : Output :=
  let begun := if farewell.clears then output.clear else output
  if farewell.endsLine then begun.writeLine farewell.text else begun.write farewell.text

/-- A session at its prompt. -/
structure Session where
  workspace : Workspace
  registry : Registry
  editor : Editor
  config : Config
  farewell : Option Farewell
  /-- Whether the command to end the session has run. -/
  exited : Bool

namespace Session

/-- The prompt in a directory. -/
def promptFor (config : Config) (current : String) : String :=
  Path.basename current ++ config.promptSuffix

/-- A new session in its home directory, which is created with its ancestors. -/
def new (config : Config) : Except Failure Session :=
  let home := Path.resolve "/" config.home
  match FileTree.empty.makeDirectories "/" home with
  | (.error failure, _) => .error failure
  | (.ok _, tree) =>
      .ok
        { workspace := .new home tree
          registry := Registry.empty.registerAll Builtins.all
          editor := .new (promptFor config home) config.historyLimit
          config := config
          farewell := none
          exited := false }

/-- The prompt in the current directory. -/
def prompt (session : Session) : String :=
  promptFor session.config session.workspace.current

def output (session : Session) : Output :=
  session.workspace.output

/-- Append a line to the output. -/
def writeLine (session : Session) (text : String) : Session :=
  { session with workspace := session.workspace.mapOutput (·.writeLine text) }

/-- Register a command in the stead of one with the same name. -/
def register (session : Session) (command : Command) : Session :=
  { session with registry := session.registry.register command }

/-- Run a routine as a process of its own. -/
def invoke {α : Type} (session : Session) (routine : Routine α) : Outcome α × Session :=
  let (outcome, workspace) :=
    session.workspace.invoke session.editor.history session.registry.infos routine
  (outcome, { session with workspace })

/-- Do what a command wants done when it has run. -/
def respond (session : Session) : Response → Session
  | .text text => session.writeLine text
  | .silent => session
  | .clear => { session with workspace := session.workspace.mapOutput Output.clear }
  | .exit =>
      let ended := { session with exited := true }
      match session.farewell with
      | none => ended
      | some farewell => { ended with workspace := ended.workspace.mapOutput farewell.write }

/-- Run the command with a name.  A failure that is meant for the user is
written to the output, and any other ends the call. -/
def execute (session : Session) (name : String) (arguments : List String) :
    Outcome Unit × Session :=
  match session.registry.find? name with
  | none => (.done (), session.writeLine (Failure.commandNotFound name).message)
  | some command =>
      match session.invoke (command.body arguments) with
      | (.done response, after) => (.done (), after.respond response)
      | (.failed failure, after) =>
          if failure.isUserFacing then (.done (), after.writeLine failure.message)
          else (.failed failure, after)
      | (.panicked message, after) => (.panicked message, after)

/-- Run a command line.  A line without a command does nothing. -/
def runLine (session : Session) (line : String) : Outcome Unit × Session :=
  match CommandLine.tokens line with
  | .error failure => (.failed failure, session)
  | .ok [] => (.done (), session)
  | .ok (name :: arguments) =>
      if name = "" then (.done (), session) else session.execute name arguments

/-- Run a command line, and write a report if it fails. -/
def runReported (session : Session) (line : String) : Outcome Unit × Session :=
  match session.runLine line with
  | (.failed failure, after) => (.done (), after.writeLine ("error: " ++ failure.message))
  | ended => ended

/-- Run command lines one after the other until one of them panics. -/
def runLines (session : Session) : List String → Outcome Unit × Session
  | [] => (.done (), session)
  | line :: rest =>
      match session.runReported line with
      | (.done (), after) => after.runLines rest
      | ended => ended

/-- Run the configured startup lines. -/
def runStartup (session : Session) : Outcome Unit × Session :=
  session.runLines session.config.startup

/-- Begin a new input line under the prompt of the current directory. -/
def newLine (session : Session) : Session :=
  { session with editor := session.editor.reset session.prompt }

/-- Echo a submitted line, remember its command and run it. -/
def submit (session : Session) (submission : Submission) : Outcome Unit × Session :=
  let echoed := session.writeLine submission.line
  if submission.command = "" then (.done (), echoed.newLine)
  else
    let remembered := { echoed with editor := echoed.editor.pushHistory submission.command }
    match remembered.runReported submission.command with
    | (.done (), after) => (.done (), after.newLine)
    | ended => ended

/-- Apply an edit to the input line, and submit the line if the edit says so. -/
def handle (session : Session) (edit : Edit) : Outcome Unit × Session :=
  let edited := { session with editor := session.editor.apply edit }
  match session.editor.submission? edit with
  | none => (.done (), edited)
  | some submission => edited.submit submission

/-- Apply edits one after the other until one of them panics. -/
def handleAll (session : Session) : List Edit → Outcome Unit × Session
  | [] => (.done (), session)
  | edit :: rest =>
      match session.handle edit with
      | (.done (), after) => after.handleAll rest
      | ended => ended

/-- The edits that type a text and submit the line. -/
def typing (text : String) : List Edit :=
  text.toList.map Edit.insert ++ [.submit]

/-- Type a line and submit it. -/
def enter (session : Session) (line : String) : Outcome Unit × Session :=
  session.handleAll (typing line)

end Session

end CommandShell
