import CommandShell.Proofs.CallEffects
import CommandShell.Proofs.SessionRuns
import CommandShell.Proofs.Tables

/-!
# No invocation leaks

The table of handles and the record of the running process are kept apart, and each is
changed by its own functions.  `Workspace.Ledger` links the two and the file tree: the
record lists each open handle once, and nothing is open that it does not list.  Every
call keeps the link, so that closing what the record lists at the end closes everything,
no matter how the command ends.
-/

namespace CommandShell

namespace Workspace

/-- The accounts of a workspace in which one process runs. -/
structure Ledger (process : ProcessId) (record : ProcessRecord) (workspace : Workspace) :
    Prop where
  own : record.id = process
  alone : ∀ other, workspace.processes.get? other = if other = process then some record else none
  nodup : record.handles.Nodup
  listed : ∀ handle, handle ∈ record.handles ↔ workspace.handles.isOpen handle
  areFiles : ∀ handle node, workspace.handles.node handle = .ok node →
    workspace.tree.kind? node = some .file

/-- Whether no handle is open and no process lives. -/
structure Idle (workspace : Workspace) : Prop where
  handles : workspace.handles.count = 0
  processes : workspace.processes.count = 0

namespace Ledger

variable {process : ProcessId} {record : ProcessRecord} {workspace after : Workspace}

theorem still (ledger : Ledger process record workspace)
    (grown : workspace.tree.GrowsTo after.tree) (handles : after.handles = workspace.handles)
    (processes : after.processes = workspace.processes) : Ledger process record after where
  own := ledger.own
  alone := processes ▸ ledger.alone
  nodup := ledger.nodup
  listed := handles ▸ ledger.listed
  areFiles handle node bound :=
    grown.kind?_eq_some (ledger.areFiles handle node (handles ▸ bound))

theorem opened (ledger : Ledger process record workspace) {node : NodeId}
    (grown : workspace.tree.GrowsTo after.tree) (isFile : after.tree.kind? node = some .file)
    (handles : after.handles = (workspace.handles.bind node).2)
    (processes : after.processes =
      workspace.processes.opened process (workspace.handles.bind node).1) :
    Ledger process (record.opened (workspace.handles.bind node).1) after := by
  -- The new handle was free, so the record does not list it yet.
  have fresh : (workspace.handles.bind node).1 ∉ record.handles := by
    rw [ledger.listed, Handles.isOpen_bind_fresh]
    exact Bool.false_ne_true
  rw [ProcessRecord.opened, if_neg fresh]
  constructor
  · exact ledger.own
  · intro other
    rw [processes, Processes.get?_opened, ledger.alone]
    by_cases own : other = process
    · simp [own, ProcessRecord.opened, fresh]
    · simp [own, Ne.symm own]
  · rw [List.nodup_append]
    refine ⟨ledger.nodup, by simp, ?_⟩
    intro listed member added isAdded same
    rw [List.mem_singleton.mp isAdded] at same
    exact fresh (same ▸ member)
  · intro handle
    rw [handles, Handles.isOpen_bind, ← ledger.listed, List.mem_append, List.mem_singleton]
  · intro handle bound isBound
    rw [handles, Handles.node_eq_ok_iff, Handles.get?_bind] at isBound
    split at isBound
    next => exact Option.some.inj isBound ▸ isFile
    next => exact grown.kind?_eq_some (ledger.areFiles _ _ (Handles.node_eq_ok_iff.mpr isBound))

theorem closed (ledger : Ledger process record workspace) (handle : Handle)
    (tree : after.tree = workspace.tree)
    (handles : after.handles = (workspace.handles.close handle).2)
    (processes : after.processes = workspace.processes.closed process handle) :
    Ledger process (record.closed handle) after := by
  constructor
  · exact ledger.own
  · intro other
    rw [processes, Processes.get?_closed, ledger.alone]
    by_cases own : other = process
    · simp [own]
    · simp [own, Ne.symm own]
  · exact ledger.nodup.filter _
  · intro other
    rw [handles, Handles.isOpen_close, ← ledger.listed]
    simp [ProcessRecord.closed]
  · intro other node bound
    rw [handles, Handles.node_eq_ok_iff, Handles.get?_close] at bound
    split at bound
    next => cases bound
    next =>
      rw [tree]
      exact ledger.areFiles _ _ (Handles.node_eq_ok_iff.mpr bound)

theorem after_effect (ledger : Ledger process record workspace)
    (effect : Effect process workspace after) : ∃ record, Ledger process record after := by
  cases effect with
  | still grown handles processes => exact ⟨_, ledger.still grown handles processes⟩
  | opened node grown isFile handles processes =>
      exact ⟨_, ledger.opened grown isFile handles processes⟩
  | closed handle tree handles processes =>
      exact ⟨_, ledger.closed handle tree handles processes⟩

theorem openHandles_eq (ledger : Ledger process record workspace) :
    workspace.openHandles process = record.handles := by
  simp [Workspace.openHandles, ledger.alone]

theorem reclaim (ledger : Ledger process record workspace) :
    (workspace.reclaim process).Idle := by
  have found : workspace.processes.get? process = some record := by
    rw [ledger.alone, if_pos rfl]
  simp only [Workspace.reclaim, Processes.finish, found]
  constructor
  · apply Slots.count_eq_zero_iff.mpr
    intro handle
    dsimp only
    rw [Handles.get?_foldl_close]
    split
    next => rfl
    next notListed =>
      rw [ledger.listed, Handles.isOpen, Option.isSome_iff_ne_none, ne_eq,
        Decidable.not_not] at notListed
      exact notListed
  · apply Processes.count_eq_zero_iff.mpr
    intro other
    have finished := @Processes.get?_finish workspace.processes process other
    rw [Processes.finish] at finished
    rw [finished, ledger.alone]
    split
    next => rfl
    next different => exact if_neg (Ne.symm different)

end Ledger

section Invocations

variable {α : Type} {workspace : Workspace}

/-- In an idle workspace a new process gets the number zero and a clean ledger. -/
theorem Idle.start (idle : workspace.Idle) :
    workspace.processes.start.1 = 0 ∧
      Ledger 0 { id := 0, handles := [] }
        { workspace with processes := workspace.processes.start.2 } := by
  have noProcess := Processes.count_eq_zero_iff.mp idle.processes
  have noHandle : ∀ handle, workspace.handles.slots.get? handle = none :=
    Slots.count_eq_zero_iff.mp idle.handles
  have first : workspace.processes.start.1 = 0 := by
    apply Nat.eq_zero_of_not_pos
    intro positive
    have taken := Slots.get?_isSome_of_lt_lowestFree positive
    have free : workspace.processes.slots.get? 0 = none := noProcess 0
    simp [free] at taken
  refine ⟨first, rfl, ?_, List.nodup_nil, ?_, ?_⟩
  · intro other
    dsimp only
    rw [Processes.get?_start, first, noProcess]
  · intro handle
    simp [Handles.isOpen, noHandle]
  · intro handle node bound
    rw [Handles.node_eq_ok_iff, noHandle] at bound
    cases bound

theorem Idle.mapOutput (idle : workspace.Idle) (change : Output → Output) :
    (workspace.mapOutput change).Idle :=
  ⟨idle.handles, idle.processes⟩

/-- At every moment of an invocation the accounts are in order. -/
theorem Idle.ledger_moments (idle : workspace.Idle) (routine : Routine α)
    (history : List String) (commands : List CommandInfo) :
    ∀ moment ∈ workspace.invokeMoments history commands routine,
      moment.process = 0 ∧ ∃ record, Ledger moment.process record moment.workspace := by
  obtain ⟨first, ledger⟩ := idle.start
  unfold invokeMoments
  dsimp only
  apply forall_moments
  · rintro between request ⟨_, record, inOrder⟩
    have effect := between.effect_perform
      { process := workspace.processes.start.1, history, commands } request
    exact ⟨first, inOrder.after_effect effect⟩
  · exact ⟨first, _, first.symm ▸ ledger⟩

/-- An invocation leaves nothing open behind. -/
theorem Idle.invoke (idle : workspace.Idle) (routine : Routine α) (history : List String)
    (commands : List CommandInfo) : (workspace.invoke history commands routine).2.Idle := by
  have last := idle.ledger_moments routine history commands _ (run_mem_moments _ _ _)
  obtain ⟨_, record, ledger⟩ := last
  exact ledger.reclaim

end Invocations

end Workspace

/-- What a running command finds whenever it looks: its open handles are listed once
each, they are the handles that are open at all, every one of them stands for a file,
and its process is the first one and the only one. -/
structure Moment.InOrder (moment : Moment) : Prop where
  nodup : moment.openHandles.Nodup
  mem_iff_isOpen : ∀ handle,
    handle ∈ moment.openHandles ↔ moment.workspace.handles.isOpen handle
  areFiles : ∀ handle ∈ moment.openHandles, ∃ node,
    moment.workspace.handles.node handle = .ok node ∧
      moment.workspace.tree.kind? node = some .file
  process : moment.process = 0
  alone : ∀ other, moment.workspace.processes.get? other ≠ none ↔ other = moment.process
  count : moment.workspace.processes.count = 1
  own : ∀ record, moment.workspace.processes.get? moment.process = some record →
    record.id = moment.process

theorem Workspace.Ledger.inOrder {moment : Moment} {record : ProcessRecord}
    (first : moment.process = 0) (ledger : Ledger moment.process record moment.workspace) :
    moment.InOrder where
  nodup := by
    rw [Moment.openHandles, ledger.openHandles_eq]
    exact ledger.nodup
  mem_iff_isOpen handle := by
    rw [Moment.openHandles, ledger.openHandles_eq, ledger.listed]
  areFiles handle member := by
    rw [Moment.openHandles, ledger.openHandles_eq, ledger.listed, Handles.isOpen_iff] at member
    obtain ⟨node, bound⟩ := member
    exact ⟨node, bound, ledger.areFiles handle node bound⟩
  process := first
  alone other := by simp [ledger.alone]
  count := Slots.count_eq_one ledger.alone
  own other found := by
    rw [ledger.alone, if_pos rfl] at found
    exact Option.some.inj found ▸ ledger.own

namespace Session

variable {config : Config} {session : Session}

theorem idle_new (created : Session.new config = .ok session) : session.workspace.Idle := by
  obtain ⟨tree, rfl⟩ := exists_eq_of_new created
  exact ⟨rfl, rfl⟩

theorem Upholds.of_idle (idle : session.workspace.Idle) : session.Upholds Workspace.Idle :=
  ⟨idle, fun _ _ _ history commands begun => begun.invoke _ history commands⟩

theorem Operation.upholds_idle (operation : Operation) : operation.Upholds Workspace.Idle := by
  cases operation with
  | register command => exact fun _ _ history commands begun => begun.invoke _ _ _
  | init routine => exact fun _ history commands begun => begun.invoke _ _ _
  | setFarewell | runStartup | execute | runLine | handle => trivial

theorem idle_performAll (created : Session.new config = .ok session)
    (operations : List Operation) : (session.performAll operations).workspace.Idle :=
  ((Upholds.of_idle (idle_new created)).performAll
    (fun _ change idle => idle.mapOutput change)
    fun operation _ => operation.upholds_idle).now

/-- No invocation leaks.  After any operations on a new session, whatever the routines
in them do and however they end, no handle is open and no process lives; and whatever
the next operation invokes, the accounts are in order at every moment of it. -/
theorem no_leak (created : Session.new config = .ok session) (operations : List Operation) :
    (session.performAll operations).workspace.handles.count = 0 ∧
      (session.performAll operations).workspace.processes.count = 0 ∧
      ∀ operation, ∀ moment ∈ (session.performAll operations).moments operation,
        moment.InOrder := by
  have idle := idle_performAll created operations
  refine ⟨idle.handles, idle.processes, fun operation => ?_⟩
  have begun {α : Type} (routine : Routine α) workspace history commands
      (idle : Workspace.Idle workspace) :
      ∀ moment ∈ workspace.invokeMoments history commands routine, moment.InOrder := by
    intro moment member
    obtain ⟨first, record, ledger⟩ :=
      idle.ledger_moments routine history commands moment member
    exact ledger.inOrder first
  exact forall_moments (fun _ change idle => idle.mapOutput change) begun
    (Upholds.of_idle idle) operation

/-- A routine that closes handles twice and too many, opens one again and panics. -/
def careless : Routine Unit := do
  let first ← Routine.openFile "notes" true
  let _ ← Routine.openFile "drafts" true
  Routine.close first
  Routine.close first
  Routine.close 7
  let _ ← Routine.openFile "notes" false
  .panic "stopped"

theorem no_leak_careless : ∃ session, Session.new {} = .ok session ∧
    ((session.performAll [.init careless]).moments (.init careless)).map Moment.openHandles =
      [[], [0], [0, 1], [1], [1], [1], [1, 0]] ∧
    (session.performAll [.init careless]).workspace.handles.count = 0 ∧
    (session.performAll [.init careless]).workspace.processes.count = 0 ∧
    ∀ moment ∈ (session.performAll [.init careless]).moments (.init careless),
      moment.InOrder := by
  have created : Session.new {} = .ok _ := rfl
  obtain ⟨noHandle, noProcess, inOrder⟩ := no_leak created [.init careless]
  exact ⟨_, created, by decide +kernel, noHandle, noProcess, inOrder (.init careless)⟩

end Session

end CommandShell
