import CommandShell.Output
import CommandShell.Processes
import CommandShell.Routine

/-!
# The workspace of running commands

The workspace is the part of a session that commands work on.  Every invocation
of a routine is a process of its own.  When the routine ends, in whatever way,
the process ends too, and the handles that it has left open are closed.
-/

namespace CommandShell

/-- The state that commands read and change. -/
structure Workspace where
  /-- The path of the current directory. -/
  current : String
  tree : FileTree
  handles : Handles
  processes : Processes
  output : Output
  /-- What scripts have noted down, the oldest first. -/
  journal : List (Except Failure Answer)

/-- What a running routine can see beside the workspace. -/
structure Surroundings where
  /-- The number of its process. -/
  process : ProcessId
  /-- The commands submitted so far, the oldest first. -/
  history : List String
  /-- The registered commands in the order of their names. -/
  commands : List CommandInfo

namespace Workspace

/-- The workspace of a new session. -/
def new (current : String) (tree : FileTree) : Workspace where
  current := current
  tree := tree
  handles := .empty
  processes := .empty
  output := .empty
  journal := []

/-- Open a file under a new handle of a process. -/
def openFile (workspace : Workspace) (process : ProcessId) (path : String) (create : Bool) :
    Except Failure Handle × Workspace :=
  match workspace.tree.openFile workspace.current path create with
  | (.error failure, tree) => (.error failure, { workspace with tree })
  | (.ok node, tree) =>
      let (handle, handles) := workspace.handles.bind node
      (.ok handle,
        { workspace with
          tree, handles, processes := workspace.processes.opened process handle })

/-- The content of an open file. -/
def read (workspace : Workspace) (handle : Handle) : Except Failure String :=
  match workspace.handles.node handle with
  | .error failure => .error failure
  | .ok node =>
      match workspace.tree.content? node with
      | none => .error (.invalidHandle handle)
      | some content => .ok content

/-- Append to an open file. -/
def write (workspace : Workspace) (handle : Handle) (text : String) :
    Except Failure Unit × Workspace :=
  match workspace.handles.node handle with
  | .error failure => (.error failure, workspace)
  | .ok node =>
      match workspace.tree.content? node with
      | none => (.error (.invalidHandle handle), workspace)
      | some _ =>
          (.ok (), { workspace with tree := workspace.tree.updateContent node (· ++ text) })

/-- Drop the content of an open file. -/
def truncate (workspace : Workspace) (handle : Handle) : Except Failure Unit × Workspace :=
  match workspace.handles.node handle with
  | .error failure => (.error failure, workspace)
  | .ok node =>
      (.ok (), { workspace with tree := workspace.tree.updateContent node fun _ => "" })

/-- Close a handle, and strike it from the record of the closing process. -/
def close (workspace : Workspace) (process : ProcessId) (handle : Handle) : Workspace :=
  { workspace with
    handles := (workspace.handles.close handle).2
    processes := workspace.processes.closed process handle }

/-- The open handles of a process in the order of opening. -/
def openHandles (workspace : Workspace) (process : ProcessId) : List Handle :=
  ((workspace.processes.get? process).map ProcessRecord.handles).getD []

/-- Create a directory. -/
def makeDirectory (workspace : Workspace) (path : String) : Except Failure Unit × Workspace :=
  let (outcome, tree) := workspace.tree.makeDirectory workspace.current path
  (outcome.map fun _ => (), { workspace with tree })

/-- Change the output. -/
def mapOutput (workspace : Workspace) (change : Output → Output) : Workspace :=
  { workspace with output := change workspace.output }

/-- The reply to a call, and the workspace after it. -/
def perform (workspace : Workspace) (surroundings : Surroundings) :
    (request : Call) → request.Reply × Workspace
  | .openFile path create => workspace.openFile surroundings.process path create
  | .read handle => (workspace.read handle, workspace)
  | .write handle text => workspace.write handle text
  | .truncate handle => workspace.truncate handle
  | .close handle => ((), workspace.close surroundings.process handle)
  | .openHandles => (workspace.openHandles surroundings.process, workspace)
  | .print text => ((), workspace.mapOutput (·.write text))
  | .printLine text => ((), workspace.mapOutput (·.writeLine text))
  | .list path => (workspace.tree.list workspace.current path, workspace)
  | .makeDirectory path => workspace.makeDirectory path
  | .setCurrent path => ((), { workspace with current := path })
  | .current => (workspace.current, workspace)
  | .tree => (workspace.tree, workspace)
  | .process => (surroundings.process, workspace)
  | .history => (surroundings.history, workspace)
  | .commands => (surroundings.commands, workspace)
  | .note outcome => ((), { workspace with journal := workspace.journal ++ [outcome] })

/-- Run a routine to its end. -/
def run {α : Type} (surroundings : Surroundings) :
    Routine α → Workspace → Outcome α × Workspace
  | .done value, workspace => (.done value, workspace)
  | .fail failure, workspace => (.failed failure, workspace)
  | .panic message, workspace => (.panicked message, workspace)
  | .call request next, workspace =>
      let (reply, after) := workspace.perform surroundings request
      run surroundings (next reply) after

/-- Go on from where a routine has ended, if it is done. -/
def andThen {α β : Type} (surroundings : Surroundings) (next : α → Routine β) :
    Outcome α × Workspace → Outcome β × Workspace
  | (.done value, after) => run surroundings (next value) after
  | (.failed failure, after) => (.failed failure, after)
  | (.panicked message, after) => (.panicked message, after)

@[simp]
theorem run_pure {α : Type} (surroundings : Surroundings) (value : α) (workspace : Workspace) :
    run surroundings (pure value) workspace = (.done value, workspace) := rfl

@[simp]
theorem run_ask (surroundings : Surroundings) (request : Call) (workspace : Workspace) :
    run surroundings (Routine.ask request) workspace =
      (.done (workspace.perform surroundings request).1,
        (workspace.perform surroundings request).2) := rfl

/-- A sequence of routines runs one behind the other. -/
theorem run_bind {α β : Type} (surroundings : Surroundings) (routine : Routine α)
    (next : α → Routine β) (workspace : Workspace) :
    run surroundings (routine >>= next) workspace =
      andThen surroundings next (run surroundings routine workspace) := by
  induction routine generalizing workspace with
  | done value => rfl
  | fail failure => rfl
  | panic message => rfl
  | call request resume ih => exact ih _ _

/-- A failure that is yielded has changed the workspace as far as the routine
got. -/
theorem run_attempt {α : Type} (surroundings : Surroundings) (routine : Routine α)
    (workspace : Workspace) :
    run surroundings routine.attempt workspace =
      match run surroundings routine workspace with
      | (.done value, after) => (.done (.ok value), after)
      | (.failed failure, after) => (.done (.error failure), after)
      | (.panicked message, after) => (.panicked message, after) := by
  induction routine generalizing workspace with
  | done value => rfl
  | fail failure => rfl
  | panic message => rfl
  | call request resume ih => exact ih _ _

/-- End a process, and close the handles that it has left open. -/
def reclaim (workspace : Workspace) (process : ProcessId) : Workspace :=
  match workspace.processes.finish process with
  | (none, _) => workspace
  | (some record, processes) =>
      let handles := record.handles.foldl (fun handles handle => (handles.close handle).2)
        workspace.handles
      { workspace with handles, processes }

/-- Run a routine as a process of its own. -/
def invoke {α : Type} (workspace : Workspace) (history : List String)
    (commands : List CommandInfo) (routine : Routine α) : Outcome α × Workspace :=
  let (process, processes) := workspace.processes.start
  let (outcome, ended) :=
    run { process, history, commands } routine { workspace with processes }
  (outcome, ended.reclaim process)

end Workspace

end CommandShell
