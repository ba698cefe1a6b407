import CommandShell.Proofs.Growth
import CommandShell.Workspace

/-!
# The effects of calls

A call of a running command can touch the file tree and the tables of handles and
processes in three ways only.  What every call keeps is derived from the three of
them, and not from the calls.
-/

namespace CommandShell

namespace Workspace

/-- What a call of a process does to the tree and the tables: it opens a file under
a new handle, it closes a handle, or it leaves both tables as they are. -/
inductive Effect (process : ProcessId) (workspace after : Workspace) : Prop where
  | still (tree : workspace.tree.GrowsTo after.tree)
      (handles : after.handles = workspace.handles)
      (processes : after.processes = workspace.processes)
  | opened (node : NodeId) (tree : workspace.tree.GrowsTo after.tree)
      (isFile : after.tree.kind? node = some .file)
      (handles : after.handles = (workspace.handles.bind node).2)
      (processes : after.processes =
        workspace.processes.opened process (workspace.handles.bind node).1)
  | closed (handle : Handle) (tree : after.tree = workspace.tree)
      (handles : after.handles = (workspace.handles.close handle).2)
      (processes : after.processes = workspace.processes.closed process handle)

theorem Effect.growsTo {process : ProcessId} {workspace after : Workspace}
    (effect : Effect process workspace after) : workspace.tree.GrowsTo after.tree := by
  cases effect with
  | still tree => exact tree
  | opened node tree => exact tree
  | closed handle tree =>
      rw [tree]
      exact .refl

theorem effect_openFile (workspace : Workspace) (process : ProcessId) (path : String)
    (create : Bool) :
    Effect process workspace (workspace.openFile process path create).2 := by
  have grown := workspace.tree.growsTo_openFile workspace.current path create
  unfold openFile
  split
  next failure tree result =>
    rw [result] at grown
    exact .still grown rfl rfl
  next node tree result =>
    rw [result] at grown
    have isFile : tree.kind? node = some .file := FileTree.kind?_of_openFile result
    exact .opened node grown isFile rfl rfl

theorem effect_write (workspace : Workspace) (process : ProcessId) (handle : Handle)
    (text : String) : Effect process workspace (workspace.write handle text).2 := by
  unfold write
  split
  next => exact .still .refl rfl rfl
  next node _ =>
    split
    · exact .still .refl rfl rfl
    · exact .still (.update .refl node _) rfl rfl

theorem effect_truncate (workspace : Workspace) (process : ProcessId) (handle : Handle) :
    Effect process workspace (workspace.truncate handle).2 := by
  unfold truncate
  split
  next => exact .still .refl rfl rfl
  next node _ => exact .still (.update .refl node _) rfl rfl

theorem makeDirectory_eq (workspace : Workspace) (path : String) :
    workspace.makeDirectory path =
      ((workspace.tree.makeDirectory workspace.current path).1.map fun _ => (),
        { workspace with
          tree := (workspace.tree.makeDirectory workspace.current path).2 }) := rfl

theorem effect_makeDirectory (workspace : Workspace) (process : ProcessId) (path : String) :
    Effect process workspace (workspace.makeDirectory path).2 := by
  have grown := workspace.tree.growsTo_makeDirectory workspace.current path
  unfold makeDirectory
  cases result : workspace.tree.makeDirectory workspace.current path with
  | mk outcome tree =>
      rw [result] at grown
      exact .still grown rfl rfl

theorem effect_perform (workspace : Workspace) (surroundings : Surroundings)
    (request : Call) :
    Effect surroundings.process workspace (workspace.perform surroundings request).2 := by
  cases request with
  | openFile path create => exact workspace.effect_openFile _ path create
  | write handle text => exact workspace.effect_write _ handle text
  | truncate handle => exact workspace.effect_truncate _ handle
  | close handle => exact .closed handle rfl rfl rfl
  | makeDirectory path => exact workspace.effect_makeDirectory _ path
  | read | openHandles | print | printLine | list | setCurrent | current | tree | process
  | history | commands | note => exact .still .refl rfl rfl

end Workspace

end CommandShell
