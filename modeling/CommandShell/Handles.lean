import CommandShell.Failure
import CommandShell.FileTree.Basic
import CommandShell.Slots

/-!
# Open handles

A handle is a small number that stands for an open file node.  Handles are
handed out lowest first, so their numbers stay compact.
-/

namespace CommandShell

/-- The number of an open file. -/
abbrev Handle := Nat

/-- The nodes behind the open handles. -/
structure Handles where
  slots : Slots NodeId
  deriving DecidableEq, Repr

namespace Handles

def empty : Handles where
  slots := .empty

instance : Inhabited Handles := ⟨empty⟩

/-- Bind the lowest free handle to a node. -/
def bind (handles : Handles) (node : NodeId) : Handle × Handles :=
  (handles.slots.lowestFree, { slots := handles.slots.occupy node })

/-- The node behind a handle. -/
def node (handles : Handles) (handle : Handle) : Except Failure NodeId :=
  match handles.slots.get? handle with
  | some node => .ok node
  | none => .error (.invalidHandle handle)

/-- Whether a handle is bound. -/
def isOpen (handles : Handles) (handle : Handle) : Bool :=
  (handles.slots.get? handle).isSome

/-- Unbind a handle, and tell whether it was bound. -/
def close (handles : Handles) (handle : Handle) : Bool × Handles :=
  (handles.isOpen handle, { slots := handles.slots.release handle })

/-- The number of bound handles. -/
def count (handles : Handles) : Nat :=
  handles.slots.count

end Handles

end CommandShell
