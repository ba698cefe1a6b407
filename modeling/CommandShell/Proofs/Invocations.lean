import CommandShell.Proofs.Reclamation

/-!
# Invocations as sequences of calls

Whatever a routine does, it does by calls, so every moment of an invocation is reached by
some list of calls from the workspace in which the process was started.  Lists of calls
are kept with the latest call first: what holds after a call is then said by recursion on
the calls before it.
-/

namespace CommandShell

/-- A process at its start: what it can see, and the workspace that it begins in. -/
structure Invocation where
  surroundings : Surroundings
  begun : Workspace

namespace Invocation

/-- The workspace after calls, the latest of them first. -/
def after (invocation : Invocation) : List Call → Workspace
  | [] => invocation.begun
  | request :: earlier => ((invocation.after earlier).perform invocation.surroundings request).2

def openHandles (invocation : Invocation) (calls : List Call) : List Handle :=
  (invocation.after calls).openHandles invocation.surroundings.process

/-- The reply to a call that is made after others. -/
def reply (invocation : Invocation) (calls : List Call) (request : Call) : request.Reply :=
  ((invocation.after calls).perform invocation.surroundings request).1

theorem exists_calls_of_mem_moments {α : Type} (invocation : Invocation) (calls : List Call)
    (routine : Routine α) :
    ∀ moment ∈ Workspace.moments invocation.surroundings routine (invocation.after calls),
      ∃ more, moment = ⟨invocation.surroundings.process, invocation.after more⟩ := by
  induction routine generalizing calls with
  | done value => exact fun moment member => ⟨calls, List.mem_singleton.mp member⟩
  | fail failure => exact fun moment member => ⟨calls, List.mem_singleton.mp member⟩
  | panic message => exact fun moment member => ⟨calls, List.mem_singleton.mp member⟩
  | call request next ih =>
      intro moment member
      rcases List.mem_cons.mp member with here | later
      · exact ⟨calls, here⟩
      · exact ih _ (request :: calls) moment later

end Invocation

/-- The process that the session starts next. -/
def Session.invocation (session : Session) : Invocation where
  surroundings :=
    { process := session.workspace.processes.start.1
      history := session.editor.history
      commands := session.registry.infos }
  begun := { session.workspace with processes := session.workspace.processes.start.2 }

namespace Session

variable {session : Session}

/-- Every moment of an invoked routine lies behind some calls. -/
theorem exists_calls_of_mem_invokeMoments {α : Type} (routine : Routine α) {moment : Moment}
    (member : moment ∈ session.invokeMoments routine) :
    ∃ calls, moment =
      ⟨session.invocation.surroundings.process, session.invocation.after calls⟩ :=
  session.invocation.exists_calls_of_mem_moments [] routine moment member

/-- In a session at rest the accounts of a process are in order after any calls. -/
theorem exists_ledger_after (idle : session.workspace.Idle) (calls : List Call) :
    ∃ record, Workspace.Ledger session.invocation.surroundings.process record
      (session.invocation.after calls) := by
  induction calls with
  | nil =>
      obtain ⟨first, ledger⟩ := idle.start
      exact ⟨_, first.symm ▸ ledger⟩
  | cons request earlier ih =>
      obtain ⟨record, ledger⟩ := ih
      exact ledger.after_effect (Workspace.effect_perform _ _ request)

end Session

namespace Workspace

variable {process : ProcessId} {record : ProcessRecord} {workspace : Workspace}

theorem Ledger.mem_openHandles_iff (ledger : Ledger process record workspace)
    {handle : Handle} :
    handle ∈ workspace.openHandles process ↔ ∃ node, workspace.handles.node handle = .ok node := by
  rw [ledger.openHandles_eq, ledger.listed, Handles.isOpen_iff]

/-- The handle of a new opening is the lowest number that is not open. -/
theorem Ledger.lowest_of_openFile (ledger : Ledger process record workspace) {path : String}
    {create : Bool} {handle : Handle}
    (opened : (workspace.openFile process path create).1 = .ok handle) :
    handle ∉ workspace.openHandles process ∧
      ∀ lower < handle, lower ∈ workspace.openHandles process := by
  have fresh : handle = workspace.handles.slots.lowestFree := by
    unfold openFile at opened
    split at opened
    next => cases opened
    next => exact (Except.ok.inj opened).symm
  rw [fresh]
  constructor
  · rw [ledger.openHandles_eq, ledger.listed, Handles.isOpen, Slots.get?_lowestFree]
    exact Bool.false_ne_true
  · intro lower below
    rw [ledger.openHandles_eq, ledger.listed]
    exact Slots.get?_isSome_of_lt_lowestFree below

end Workspace

end CommandShell
