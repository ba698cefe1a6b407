import CommandShell.Handles
import CommandShell.Slots

/-!
# Processes

Every run of a command is a process of its own.  A process records which
handles it has opened and not yet closed, in the order in which it opened them,
so that they can be closed when it ends.
-/

namespace CommandShell

/-- The number of a process. -/
abbrev ProcessId := Nat

/-- The record of one run of a command. -/
structure ProcessRecord where
  id : ProcessId
  /-- The open handles in the order in which they were opened. -/
  handles : List Handle
  deriving DecidableEq, Repr

namespace ProcessRecord

/-- Record an opened handle. -/
def opened (process : ProcessRecord) (handle : Handle) : ProcessRecord :=
  if handle ∈ process.handles then process
  else { process with handles := process.handles ++ [handle] }

/-- Forget a closed handle. -/
def closed (process : ProcessRecord) (handle : Handle) : ProcessRecord :=
  { process with handles := process.handles.filter (· ≠ handle) }

end ProcessRecord

/-- The records of the processes that have not ended. -/
structure Processes where
  slots : Slots ProcessRecord
  deriving DecidableEq, Repr

namespace Processes

def empty : Processes where
  slots := .empty

instance : Inhabited Processes := ⟨empty⟩

/-- Start a process without open handles under the lowest free number. -/
def start (processes : Processes) : ProcessId × Processes :=
  let id := processes.slots.lowestFree
  (id, { slots := processes.slots.occupy { id, handles := [] } })

/-- The record of a live process. -/
def get? (processes : Processes) (id : ProcessId) : Option ProcessRecord :=
  processes.slots.get? id

/-- Record that a process opened a handle. -/
def opened (processes : Processes) (id : ProcessId) (handle : Handle) : Processes where
  slots := processes.slots.modify id fun process => process.opened handle

/-- Record that a process closed a handle. -/
def closed (processes : Processes) (id : ProcessId) (handle : Handle) : Processes where
  slots := processes.slots.modify id fun process => process.closed handle

/-- Strike out a process that has ended, and yield its last record. -/
def finish (processes : Processes) (id : ProcessId) : Option ProcessRecord × Processes :=
  (processes.get? id, { slots := processes.slots.release id })

/-- The number of live processes. -/
def count (processes : Processes) : Nat :=
  processes.slots.count

end Processes

end CommandShell
