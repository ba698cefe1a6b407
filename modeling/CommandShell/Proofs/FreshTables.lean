import CommandShell.Proofs.Invocations

/-!
# Earlier invocations leave no trace

A table keeps the free slots that earlier processes have left behind, so sessions with
different pasts have tables of different lengths, and the next number comes from a slot in
the one and from the end in the other.  Nobody can see the difference: two workspaces whose
tables answer every lookup alike give the same reply to every call and stay alike.
-/

namespace CommandShell

namespace Workspace

variable {left right : Workspace} {journals : Prop}

theorem invoke_eq {α : Type} (workspace : Workspace) (history : List String)
    (commands : List CommandInfo) (routine : Routine α) :
    workspace.invoke history commands routine =
      let process := workspace.processes.start.1
      let ended := run { process, history, commands } routine
        { workspace with processes := workspace.processes.start.2 }
      (ended.1, ended.2.reclaim process) := rfl

theorem openFile_of_error {process : ProcessId} {path : String} {create : Bool}
    {failure : Failure} {tree : FileTree}
    (failed : left.tree.openFile left.current path create = (.error failure, tree)) :
    left.openFile process path create = (.error failure, { left with tree }) := by
  rw [openFile, failed]

theorem openFile_of_ok {process : ProcessId} {path : String} {create : Bool} {node : NodeId}
    {tree : FileTree} (opened : left.tree.openFile left.current path create = (.ok node, tree)) :
    left.openFile process path create =
      (.ok (left.handles.bind node).1,
        { left with
          tree
          handles := (left.handles.bind node).2
          processes := left.processes.opened process (left.handles.bind node).1 }) := by
  rw [openFile, opened]

/-- Whether two workspaces are the same up to what lookups in their tables do not show.  The
journals are compared only if that is asked for. -/
structure Twins (journals : Prop) (left right : Workspace) : Prop where
  current : left.current = right.current
  tree : left.tree = right.tree
  output : left.output = right.output
  journal : journals → left.journal = right.journal
  handles : ∀ handle, left.handles.slots.get? handle = right.handles.slots.get? handle
  processes : ∀ id, left.processes.get? id = right.processes.get? id

namespace Twins

theorem node_eq (twins : Twins journals left right) (handle : Handle) :
    left.handles.node handle = right.handles.node handle := by
  rw [Handles.node, twins.handles, Handles.node]

theorem bind_eq (twins : Twins journals left right) (node : NodeId) :
    (left.handles.bind node).1 = (right.handles.bind node).1 :=
  Slots.lowestFree_congr fun handle => by rw [twins.handles]

theorem openHandles_eq (twins : Twins journals left right) (process : ProcessId) :
    left.openHandles process = right.openHandles process := by
  rw [openHandles, twins.processes, openHandles]

theorem withTree (twins : Twins journals left right) (tree : FileTree) :
    Twins journals { left with tree } { right with tree } :=
  { twins with tree := rfl }

theorem openFile (twins : Twins journals left right) (process : ProcessId) (path : String)
    (create : Bool) :
    (left.openFile process path create).1 = (right.openFile process path create).1 ∧
      Twins journals (left.openFile process path create).2
        (right.openFile process path create).2 := by
  rcases result : right.tree.openFile right.current path create with ⟨failure | node, tree⟩
  · have leftResult : left.tree.openFile left.current path create = (.error failure, tree) := by
      rw [twins.tree, twins.current, result]
    rw [openFile_of_error leftResult, openFile_of_error result]
    exact ⟨rfl, twins.withTree tree⟩
  · have leftResult : left.tree.openFile left.current path create = (.ok node, tree) := by
      rw [twins.tree, twins.current, result]
    have sameHandle := twins.bind_eq node
    rw [openFile_of_ok leftResult, openFile_of_ok result]
    refine ⟨congrArg Except.ok sameHandle,
      { twins.withTree tree with handles := fun handle => ?_, processes := fun id => ?_ }⟩
    · dsimp only
      rw [Handles.get?_bind, Handles.get?_bind, sameHandle, twins.handles]
    · dsimp only
      rw [Processes.get?_opened, Processes.get?_opened, sameHandle, twins.processes]

theorem read_eq (twins : Twins journals left right) (handle : Handle) :
    left.read handle = right.read handle := by
  rw [Workspace.read, twins.node_eq, twins.tree, Workspace.read]

theorem write (twins : Twins journals left right) (handle : Handle) (text : String) :
    (left.write handle text).1 = (right.write handle text).1 ∧
      Twins journals (left.write handle text).2 (right.write handle text).2 := by
  unfold Workspace.write
  rw [twins.node_eq, twins.tree]
  split
  next => exact ⟨rfl, twins⟩
  next node bound =>
    split
    next => exact ⟨rfl, twins⟩
    next => exact ⟨rfl, twins.withTree _⟩

theorem truncate (twins : Twins journals left right) (handle : Handle) :
    (left.truncate handle).1 = (right.truncate handle).1 ∧
      Twins journals (left.truncate handle).2 (right.truncate handle).2 := by
  unfold Workspace.truncate
  rw [twins.node_eq, twins.tree]
  split
  next => exact ⟨rfl, twins⟩
  next => exact ⟨rfl, twins.withTree _⟩

theorem close (twins : Twins journals left right) (process : ProcessId) (handle : Handle) :
    Twins journals (left.close process handle) (right.close process handle) := by
  refine { twins with handles := fun other => ?_, processes := fun id => ?_ }
  · dsimp only [Workspace.close]
    rw [Handles.get?_close, Handles.get?_close, twins.handles]
  · dsimp only [Workspace.close]
    rw [Processes.get?_closed, Processes.get?_closed, twins.processes]

theorem makeDirectory (twins : Twins journals left right) (path : String) :
    (left.makeDirectory path).1 = (right.makeDirectory path).1 ∧
      Twins journals (left.makeDirectory path).2 (right.makeDirectory path).2 := by
  have sameResult : left.tree.makeDirectory left.current path =
      right.tree.makeDirectory right.current path := by
    rw [twins.tree, twins.current]
  rw [makeDirectory_eq, makeDirectory_eq, sameResult]
  exact ⟨rfl, twins.withTree _⟩

theorem mapOutput (twins : Twins journals left right) (change : Output → Output) :
    Twins journals (left.mapOutput change) (right.mapOutput change) :=
  { twins with output := congrArg change twins.output }

/-- The step: every call has the same reply in both workspaces, and they stay twins. -/
theorem perform (twins : Twins journals left right) (surroundings : Surroundings)
    (request : Call) :
    (left.perform surroundings request).1 = (right.perform surroundings request).1 ∧
      Twins journals (left.perform surroundings request).2
        (right.perform surroundings request).2 := by
  cases request with
  | openFile path create => exact twins.openFile _ path create
  | read handle => exact ⟨twins.read_eq handle, twins⟩
  | write handle text => exact twins.write handle text
  | truncate handle => exact twins.truncate handle
  | close handle => exact ⟨rfl, twins.close _ handle⟩
  | openHandles => exact ⟨twins.openHandles_eq _, twins⟩
  | print text => exact ⟨rfl, twins.mapOutput (·.write text)⟩
  | printLine text => exact ⟨rfl, twins.mapOutput (·.writeLine text)⟩
  | list path =>
      refine ⟨?_, twins⟩
      dsimp only [Workspace.perform]
      rw [twins.tree, twins.current]
  | makeDirectory path => exact twins.makeDirectory path
  | setCurrent path => exact ⟨rfl, { twins with current := rfl }⟩
  | current => exact ⟨twins.current, twins⟩
  | tree => exact ⟨twins.tree, twins⟩
  | process => exact ⟨rfl, twins⟩
  | history => exact ⟨rfl, twins⟩
  | commands => exact ⟨rfl, twins⟩
  | note outcome =>
      refine ⟨rfl, { twins with journal := fun asked => ?_ }⟩
      exact congrArg (· ++ [outcome]) (twins.journal asked)

end Twins

/-- The workspace with unused tables in place of its own. -/
def withEmptyTables (workspace : Workspace) : Workspace :=
  { workspace with handles := .empty, processes := .empty }

/-- The calls of a run, each with its reply. -/
def exchanges {α : Type} (surroundings : Surroundings) :
    Routine α → Workspace → List (Σ request : Call, request.Reply)
  | .call request next, workspace =>
      let (reply, after) := workspace.perform surroundings request
      ⟨request, reply⟩ :: exchanges surroundings (next reply) after
  | .done _, _ => []
  | .fail _, _ => []
  | .panic _, _ => []

namespace Twins

/-- The run: twins see the same replies, end in the same way and stay twins. -/
theorem run {α : Type} (twins : Twins journals left right) (surroundings : Surroundings)
    (routine : Routine α) :
    exchanges surroundings routine left = exchanges surroundings routine right ∧
      (Workspace.run surroundings routine left).1 =
        (Workspace.run surroundings routine right).1 ∧
      Twins journals (Workspace.run surroundings routine left).2
        (Workspace.run surroundings routine right).2 := by
  induction routine generalizing left right with
  | done value => exact ⟨rfl, rfl, twins⟩
  | fail failure => exact ⟨rfl, rfl, twins⟩
  | panic message => exact ⟨rfl, rfl, twins⟩
  | call request next ih =>
      obtain ⟨sameReply, after⟩ := twins.perform surroundings request
      obtain ⟨sameExchanges, sameOutcome, ends⟩ :=
        ih (right.perform surroundings request).1 after
      simp only [exchanges, Workspace.run, sameReply]
      exact ⟨congrArg _ sameExchanges, sameOutcome, ends⟩

theorem start_eq (twins : Twins journals left right) :
    left.processes.start.1 = right.processes.start.1 :=
  Slots.lowestFree_congr fun id => congrArg Option.isSome (twins.processes id)

theorem start (twins : Twins journals left right) :
    Twins journals { left with processes := left.processes.start.2 }
      { right with processes := right.processes.start.2 } := by
  refine { twins with processes := fun id => ?_ }
  dsimp only
  rw [Processes.get?_start, Processes.get?_start, twins.start_eq, twins.processes]

theorem reclaim (twins : Twins journals left right) (process : ProcessId) :
    Twins journals (left.reclaim process) (right.reclaim process) := by
  unfold Workspace.reclaim Processes.finish
  rw [twins.processes]
  cases right.processes.get? process with
  | none => exact twins
  | some record =>
      refine { twins with handles := fun handle => ?_, processes := fun id => ?_ }
      · dsimp only
        rw [Handles.get?_foldl_close, Handles.get?_foldl_close, twins.handles]
      · have leftFinished := @Processes.get?_finish left.processes process id
        have rightFinished := @Processes.get?_finish right.processes process id
        rw [twins.processes, ← rightFinished] at leftFinished
        exact leftFinished

theorem invoke {α : Type} (twins : Twins journals left right) (history : List String)
    (commands : List CommandInfo) (routine : Routine α) :
    (left.invoke history commands routine).1 = (right.invoke history commands routine).1 ∧
      Twins journals (left.invoke history commands routine).2
        (right.invoke history commands routine).2 := by
  obtain ⟨-, sameOutcome, ends⟩ :=
    twins.start.run { process := right.processes.start.1, history, commands } routine
  rw [invoke_eq, invoke_eq, twins.start_eq]
  exact ⟨sameOutcome, ends.reclaim _⟩

theorem withEmptyTables_eq (twins : Twins journals left right) (asked : journals) :
    left.withEmptyTables = right.withEmptyTables := by
  simp only [withEmptyTables, twins.current, twins.tree, twins.output, twins.journal asked]

end Twins

/-- Two workspaces at rest are twins if they agree on everything but the tables. -/
theorem Idle.twins (leftIdle : left.Idle) (rightIdle : right.Idle)
    (current : left.current = right.current) (tree : left.tree = right.tree)
    (output : left.output = right.output) :
    Twins (left.journal = right.journal) left right := by
  refine ⟨current, tree, output, id, fun handle => ?_, fun other => ?_⟩
  · have leftFree := Slots.count_eq_zero_iff.mp leftIdle.handles handle
    have rightFree := Slots.count_eq_zero_iff.mp rightIdle.handles handle
    exact leftFree.trans rightFree.symm
  · have leftFree := Processes.count_eq_zero_iff.mp leftIdle.processes other
    have rightFree := Processes.count_eq_zero_iff.mp rightIdle.processes other
    exact leftFree.trans rightFree.symm

end Workspace

namespace Session

variable {left right : Session}

/-- Whether two sessions agree on what their commands find and on the settings. -/
structure Alike (left right : Session) : Prop where
  current : left.workspace.current = right.workspace.current
  tree : left.workspace.tree = right.workspace.tree
  output : left.workspace.output = right.workspace.output
  registry : left.registry = right.registry
  history : left.editor.history = right.editor.history
  config : left.config = right.config

/-- The session with unused tables in place of its own. -/
def withEmptyTables (session : Session) : Session :=
  { session with workspace := session.workspace.withEmptyTables }

/-- The calls of an invoked routine, each with its reply. -/
def exchanges {α : Type} (session : Session) (routine : Routine α) :
    List (Σ request : Call, request.Reply) :=
  Workspace.exchanges session.invocation.surroundings routine session.invocation.begun

/-- Whether an action has one outcome in two sessions and leaves them alike, and leaves them
the same up to their tables if they were so before. -/
structure AgreeAfter {α : Type} (left right : Session) (action : Session → Outcome α × Session) :
    Prop where
  outcome : (action left).1 = (action right).1
  alike : (action left).2.Alike (action right).2
  same : left.withEmptyTables = right.withEmptyTables →
    (action left).2.withEmptyTables = (action right).2.withEmptyTables

theorem withEmptyTables_congr {leftEnd rightEnd : Workspace}
    (same : left.withEmptyTables = right.withEmptyTables)
    (sameEnd : leftEnd.withEmptyTables = rightEnd.withEmptyTables) :
    { left with workspace := leftEnd }.withEmptyTables =
      { right with workspace := rightEnd }.withEmptyTables := by
  show { left.withEmptyTables with workspace := leftEnd.withEmptyTables } =
    { right.withEmptyTables with workspace := rightEnd.withEmptyTables }
  rw [same, sameEnd]

theorem withEmptyTables_respond (session : Session) (response : Response) :
    (session.respond response).withEmptyTables = session.withEmptyTables.respond response := by
  rw [respond_eq, respond_eq]
  rfl

namespace Alike

theorem respond (alike : left.Alike right) (farewell : left.farewell = right.farewell)
    (response : Response) : (left.respond response).Alike (right.respond response) := by
  rw [respond_eq, respond_eq, farewell]
  exact { alike with output := congrArg (response.change right.farewell) alike.output }

theorem writeLine (alike : left.Alike right) (text : String) :
    AgreeAfter left right fun session => (Outcome.done (), session.writeLine text) where
  outcome := rfl
  alike := { alike with output := congrArg (·.writeLine text) alike.output }
  same := congrArg fun session : Session => session.writeLine text

theorem settle (alike : left.Alike right) (farewell : left.farewell = right.farewell)
    (outcome : Outcome Response) : AgreeAfter left right (·.settle outcome) := by
  rcases settle_cases outcome with ⟨response, settled⟩ | ⟨ended, -, settled⟩
  · simp only [settled]
    refine ⟨rfl, alike.respond farewell response, fun same => ?_⟩
    simp only [withEmptyTables_respond, same]
  · simp only [settled]
    exact ⟨rfl, alike, id⟩

section Invoking

variable (alike : left.Alike right) (leftIdle : left.workspace.Idle)
  (rightIdle : right.workspace.Idle)

include alike leftIdle rightIdle

theorem twins :
    Workspace.Twins (left.workspace.journal = right.workspace.journal) left.workspace
      right.workspace :=
  leftIdle.twins rightIdle alike.current alike.tree alike.output

/-- The next process finds the same, and gets the same number. -/
theorem surroundings_eq :
    left.invocation.surroundings = right.invocation.surroundings := by
  have sameNumber := (alike.twins leftIdle rightIdle).start_eq
  simp only [invocation, sameNumber, alike.history, alike.registry]

theorem exchanges_eq {α : Type} (routine : Routine α) :
    left.exchanges routine = right.exchanges routine := by
  unfold exchanges
  rw [alike.surroundings_eq leftIdle rightIdle]
  exact ((alike.twins leftIdle rightIdle).start.run _ routine).1

theorem invoke {α : Type} (routine : Routine α) : AgreeAfter left right (·.invoke routine) := by
  have sees : left.workspace.invoke left.editor.history left.registry.infos routine =
      left.workspace.invoke right.editor.history right.registry.infos routine := by
    rw [alike.history, alike.registry]
  obtain ⟨outcome, ends⟩ := (alike.twins leftIdle rightIdle).invoke right.editor.history
    right.registry.infos routine
  rw [← sees] at outcome ends
  refine ⟨outcome, ?_, fun same => ?_⟩
  · exact { alike with current := ends.current, tree := ends.tree, output := ends.output }
  · have journal : left.workspace.journal = right.workspace.journal :=
      congrArg (·.workspace.journal) same
    exact withEmptyTables_congr same (ends.withEmptyTables_eq journal)

theorem execute (farewell : left.farewell = right.farewell) (name : String)
    (arguments : List String) : AgreeAfter left right (·.execute name arguments) := by
  cases found : right.registry.find? name with
  | none =>
      have unknown := alike.registry ▸ found
      have told := alike.writeLine (Failure.commandNotFound name).message
      refine ⟨?_, ?_, fun same => ?_⟩ <;>
        rw [execute_of_not_found unknown, execute_of_not_found found]
      · exact told.alike
      · exact told.same same
  | some command =>
      have known := alike.registry ▸ found
      have invoked := alike.invoke leftIdle rightIdle (command.body arguments)
      have settled := invoked.alike.settle farewell (right.invoke (command.body arguments)).1
      refine ⟨?_, ?_, fun same => ?_⟩ <;>
        rw [execute_of_found known, execute_of_found found, invoked.outcome]
      · exact settled.outcome
      · exact settled.alike
      · exact settled.same (invoked.same same)

end Invoking

end Alike

/-- Earlier invocations leave no trace.  Two sessions that agree on everything but what is in
their tables, whatever was run in them before, give the same reply to every call of whatever
is run next, and agree afterwards.  Inside an invocation an opening gets the lowest number
that is not open. -/
theorem no_trace {leftConfig rightConfig : Config} {leftCreated rightCreated : Session}
    (leftBegun : Session.new leftConfig = .ok leftCreated)
    (rightBegun : Session.new rightConfig = .ok rightCreated)
    (leftOperations rightOperations : List Operation) :
    let left := leftCreated.performAll leftOperations
    let right := rightCreated.performAll rightOperations
    (left.Alike right →
      left.invocation.surroundings = right.invocation.surroundings ∧
        (∀ {α : Type} (routine : Routine α), left.exchanges routine = right.exchanges routine ∧
          AgreeAfter left right (·.invoke routine)) ∧
        (left.farewell = right.farewell →
          ∀ name arguments, AgreeAfter left right (·.execute name arguments))) ∧
      ∀ calls path create handle,
        left.invocation.reply calls (.openFile path create) = .ok handle →
          handle ∉ left.invocation.openHandles calls ∧
            ∀ lower < handle, lower ∈ left.invocation.openHandles calls := by
  have leftIdle := idle_performAll leftBegun leftOperations
  have rightIdle := idle_performAll rightBegun rightOperations
  refine ⟨fun alike => ⟨?_, fun routine => ⟨?_, ?_⟩, ?_⟩, ?_⟩
  · exact alike.surroundings_eq leftIdle rightIdle
  · exact alike.exchanges_eq leftIdle rightIdle routine
  · exact alike.invoke leftIdle rightIdle routine
  · exact alike.execute leftIdle rightIdle
  · intro calls path create handle opened
    obtain ⟨record, ledger⟩ := exists_ledger_after leftIdle calls
    exact ledger.lowest_of_openFile opened

/-- A past that takes one handle, and one that takes three of them for the same file and
panics. -/
def tidy : Routine Unit := do
  Routine.close (← Routine.openFile "notes" true)

def untidy : Routine Unit := do
  let first ← Routine.openFile "notes" true
  let _ ← Routine.openFile "./notes" false
  let _ ← Routine.openFile "notes" true
  Routine.close first
  .panic "stopped"

def reopening : List Call :=
  [.close 1, .openFile "plans" true, .openFile "drafts" true, .openFile "notes" true]

theorem no_trace_untidy : ∃ created, Session.new {} = .ok created ∧
    let left := created.performAll [.init tidy]
    let right := created.performAll [.init untidy]
    left.workspace.handles ≠ right.workspace.handles ∧
      left.invocation.surroundings = right.invocation.surroundings ∧
      left.exchanges careless = right.exchanges careless ∧
      AgreeAfter left right (·.invoke careless) ∧
      (∀ name arguments, AgreeAfter left right (·.execute name arguments)) ∧
      left.invocation.openHandles reopening = [0, 2] ∧
      left.invocation.reply reopening (.openFile "notes" false) = .ok 1 ∧
      1 ∉ left.invocation.openHandles reopening ∧
      ∀ lower < 1, lower ∈ left.invocation.openHandles reopening := by
  have created : Session.new {} = .ok _ := rfl
  obtain ⟨agrees, lowest⟩ := no_trace created created [.init tidy] [.init untidy]
  obtain ⟨surroundings, invoked, executed⟩ := agrees
    { current := by decide +kernel
      tree := by decide +kernel
      output := by decide +kernel
      registry := rfl
      history := rfl
      config := rfl }
  obtain ⟨sameExchanges, sameEnds⟩ := invoked careless
  have fresh opened := And.intro opened (lowest reopening "notes" false 1 opened)
  exact ⟨_, created, by decide +kernel, surroundings, sameExchanges, sameEnds, executed rfl,
    by decide +kernel, fresh rfl⟩

end Session

end CommandShell
