import CommandShell.Registry

/-!
# Scripted commands

A script is a command given by data: a list of steps that are played in order,
and an ending.  Every step notes its outcome in the journal of the session.
-/

namespace CommandShell

namespace Script

/-- What one step of a script does. -/
inductive Action where
  | openFile (path : String) (create : Bool)
  | read (handle : Handle)
  | write (handle : Handle) (text : String)
  | truncate (handle : Handle)
  | close (handle : Handle)
  | openHandles
  | print (text : String)
  | printLine (text : String)
  | list (path : String)
  | makeDirectory (path : String)
  | setCurrent (path : String)
  | find (path : String)
  | kind (path : String)
  | isDirectory (path : String)
  | resolve (path : String)
  | current
  | process
  | arguments
  | history
  | nodeCount
  | commands
  | command (name : String)
  | panic (message : String)
  deriving DecidableEq, Repr

open Routine (ask)

/-- The routine of an action, in a script that was given the arguments. -/
def Action.routine (given : List String) : Action → Routine Answer
  | openFile path create => return .number (← Routine.openFile path create)
  | read handle => return .text (← Routine.read handle)
  | write handle text => do Routine.write handle text; return .nothing
  | truncate handle => do Routine.truncate handle; return .nothing
  | close handle => do Routine.close handle; return .nothing
  | openHandles => return .numbers (← ask .openHandles)
  | print text => do ask (.print text); return .nothing
  | printLine text => do ask (.printLine text); return .nothing
  | list path => return .entries (← Routine.list path)
  | makeDirectory path => do Routine.makeDirectory path; return .nothing
  | setCurrent path => do ask (.setCurrent path); return .nothing
  | find path => return .node (← Routine.find? path)
  | kind path => return .kind (← Routine.kind? path)
  | isDirectory path => return .flag (← Routine.isDirectory path)
  | resolve path => return .text (← Routine.resolve path)
  | current => return .text (← ask .current)
  | process => return .number (← ask .process)
  | arguments => return .texts given
  | history => return .texts (← ask .history)
  | nodeCount => return .number (← ask .tree).nodeCount
  | commands => return .commands (← ask .commands)
  | command name => return .command (← Routine.command? name)
  | panic message => .panic message

/-- One step of a script. -/
structure Step where
  action : Action
  /-- Whether a failure of the step is a failure of the script. -/
  strict : Bool
  deriving DecidableEq, Repr

/-- How a script ends when all of its steps have been played. -/
inductive Ending where
  | response (response : Response)
  /-- Respond with the arguments. -/
  | arguments
  | failure (failure : Failure)
  deriving DecidableEq, Repr

/-- Play a step: note its outcome, and fail if it is strict and has failed. -/
def Step.play (given : List String) (step : Step) : Routine Unit := do
  let outcome ← (step.action.routine given).attempt
  ask (.note outcome)
  match outcome with
  | .error failure => if step.strict then .fail failure else return
  | .ok _ => return

/-- The response to which an ending leads. -/
def Ending.routine (given : List String) : Ending → Routine Response
  | .response chosen => return chosen
  | .arguments => return .text ("|".intercalate given)
  | .failure cause => .fail cause

end Script

/-- A command given by data. -/
structure Script where
  steps : List Script.Step
  ending : Script.Ending
  deriving DecidableEq, Repr

/-- Play the steps of a script in order, and end as it says. -/
def Script.routine (script : Script) (given : List String) : Routine Response := do
  script.steps.forM (Script.Step.play given)
  script.ending.routine given

end CommandShell
