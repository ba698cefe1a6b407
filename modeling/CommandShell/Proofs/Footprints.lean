import CommandShell.Proofs.Refusals

/-!
# Built-in commands destroy nothing

Two of the built-in commands create a node, one changes the current directory, and all others
only look.  So whatever lines are run, everything in the file tree stays where it is and as it
is, and what comes to it is empty.
-/

namespace CommandShell

namespace FileTree

/-- Whether everything in a tree is in another one too, and the files that the other one has
beside it are empty. -/
structure KeptIn (tree after : FileTree) : Prop where
  lookup : ∀ path id, tree.lookup path = some id → after.lookup path = some id
  count : tree.nodeCount ≤ after.nodeCount
  kind : ∀ id < tree.nodeCount, after.kind? id = tree.kind? id
  content : ∀ id < tree.nodeCount, after.content? id = tree.content? id
  blank : ∀ id content, tree.nodeCount ≤ id → after.content? id = some content → content = ""

namespace KeptIn

variable {tree between after : FileTree}

theorem refl (tree : FileTree) : tree.KeptIn tree where
  lookup := fun _ _ found => found
  count := Nat.le_refl _
  kind := fun _ _ => rfl
  content := fun _ _ => rfl
  blank := fun id content outside found => by
    have isFile : tree.kind? id = some .file := kind?_eq_file_iff.mpr ⟨content, found⟩
    exact absurd (lt_nodeCount_of_kind? isFile) (Nat.not_lt.mpr outside)

theorem trans (first : tree.KeptIn between) (second : between.KeptIn after) :
    tree.KeptIn after where
  lookup := fun path id found => second.lookup path id (first.lookup path id found)
  count := Nat.le_trans first.count second.count
  kind := fun id old =>
    (second.kind id (Nat.lt_of_lt_of_le old first.count)).trans (first.kind id old)
  content := fun id old =>
    (second.content id (Nat.lt_of_lt_of_le old first.count)).trans (first.content id old)
  blank := fun id content new found => by
    rcases Nat.lt_or_ge id between.nodeCount with old | newer
    · exact first.blank id content new ((second.content id old).symm.trans found)
    · exact second.blank id content newer found

theorem attach {parent : NodeId} {name : String} {node : Node}
    (vacant : tree.Vacant parent name) (bare : node.IsBare) :
    tree.KeptIn (tree.attach parent name node).2 where
  lookup := fun _ _ found => (GrowsTo.of_vacant vacant bare).lookup_eq_some found
  count := (GrowsTo.of_vacant vacant bare).nodeCount_le
  kind := fun _ old => kind?_attach_of_lt vacant.lt_nodeCount old name node
  content := fun id old => by
    rw [content?_attach vacant.lt_nodeCount, if_neg (Nat.ne_of_lt old)]
  blank := fun id content new found => by
    rw [content?_attach vacant.lt_nodeCount] at found
    split at found
    next =>
      rcases bare with rfl | rfl
      · cases found
      · exact (Option.some.inj found).symm
    next => exact (refl tree).blank id content new found

end KeptIn

/-- Whether a tree has got one new node, at the end of a path, and has kept all others. -/
structure Gains (tree : FileTree) (path : String) (node : Node) (after : FileTree) : Prop where
  kept : tree.KeptIn after
  count : after.nodeCount = tree.nodeCount + 1
  found : after.lookup path = some tree.nodeCount
  node : after.node? tree.nodeCount = some node

theorem FreeEnd.gains {tree : FileTree} {path : String} {parent : NodeId}
    (free : tree.FreeEnd path parent) {node : Node} (bare : node.IsBare) :
    tree.Gains path node (tree.attach parent (Path.splitParent path).2 node).2 where
  kept := .attach free.vacant bare
  count := nodeCount_attach tree parent _ node
  found := free.lookup_attach bare
  node := node?_attach_new free.vacant

end FileTree

/-- Where a session stands: in a directory of a file tree. -/
structure Place where
  current : String
  tree : FileTree

def Workspace.place (workspace : Workspace) : Place where
  current := workspace.current
  tree := workspace.tree

/-- The built-in commands that create a node, and the node that each of them creates. -/
def creators : List (String × Node) :=
  [("mkdir", .emptyDirectory), ("touch", .emptyFile)]

/-- What a built-in command makes of a place, by its name, its arguments and its outcome.  Only
a command that succeeds moves or creates anything, and where its first argument says. -/
inductive Place.Becomes (place : Place) (name : String) (arguments : List String) :
    Outcome Response → Place → Prop where
  | still (outcome : Outcome Response) : Becomes place name arguments outcome place
  | moved {path : String} {rest : List String} (isCd : name = "cd")
      (given : arguments = path :: rest) :
      Becomes place name arguments (.done .silent)
        { place with current := Path.resolve place.current path }
  | grown {path : String} {rest : List String} {node : Node} {tree : FileTree}
      (creates : (name, node) ∈ creators) (given : arguments = path :: rest)
      (gains : place.tree.Gains (Path.resolve place.current path) node tree) :
      Becomes place name arguments (.done .silent) { place with tree }

theorem Place.Becomes.keptIn {place after : Place} {name : String} {arguments : List String}
    {outcome : Outcome Response} (becomes : place.Becomes name arguments outcome after) :
    place.tree.KeptIn after.tree := by
  cases becomes with
  | still => exact .refl _
  | moved isCd given => exact .refl _
  | grown creates given gains => exact gains.kept

namespace Workspace

variable (surroundings : Surroundings) (workspace : Workspace)

theorem place_perform {request : Call} (onlyLooks : request.OnlyLooks) :
    (workspace.perform surroundings request).2.place = workspace.place := by
  cases request with
  | write | truncate | makeDirectory | setCurrent => exact onlyLooks.elim
  | openFile path create =>
      obtain rfl : create = false := onlyLooks
      cases workspace.tree.opening workspace.current path false with
      | refused failure told result => rw [perform, openFile_of_error result]
      | found node isFile leads result =>
          rw [perform, openFile_of_ok result]
          rfl
      | created asked parent free result => cases asked
  | _ => rfl

theorem place_run {α : Type} {routine : Routine α} (onlyLooks : routine.AsksOnly Call.OnlyLooks) :
    (run surroundings routine workspace).2.place = workspace.place := by
  have kept (reached : Workspace) (request : Call) (isAllowed : request.OnlyLooks)
      (same : reached.place = workspace.place) :
      (reached.perform surroundings request).2.place = workspace.place :=
    (reached.place_perform surroundings isAllowed).trans same
  exact run_of_asksOnly kept onlyLooks rfl

theorem place_reclaim (process : ProcessId) :
    (workspace.reclaim process).place = workspace.place := by
  obtain ⟨handles, processes, reclaimed⟩ := workspace.exists_reclaim_eq process
  rw [reclaimed]
  rfl

section Builtins

open Builtins

variable (arguments : List String)

theorem becomes_cd :
    workspace.place.Becomes "cd" arguments (run surroundings (cd arguments) workspace).1
      (run surroundings (cd arguments) workspace).2.place := by
  cases arguments with
  | nil => exact .still _
  | cons path rest =>
      rw [run_cd]
      dsimp only
      split
      · exact .moved rfl rfl
      · exact .still _

theorem becomes_mkdir :
    workspace.place.Becomes "mkdir" arguments (run surroundings (mkdir arguments) workspace).1
      (run surroundings (mkdir arguments) workspace).2.place := by
  cases arguments with
  | nil => exact .still _
  | cons path rest =>
      have ran : run surroundings (mkdir (path :: rest)) workspace =
          andThen surroundings (fun _ => pure .silent)
            (run surroundings (Routine.makeDirectory path) workspace) :=
        run_bind surroundings (Routine.makeDirectory path) _ workspace
      rw [ran, run_makeDirectory, makeDirectory_eq]
      cases workspace.tree.creation workspace.current path with
      | refused failure told result =>
          rw [result]
          exact .still _
      | created parent free result =>
          rw [result]
          exact .grown (by simp [creators]) rfl (free.gains (.inl rfl))

theorem becomes_touch :
    workspace.place.Becomes "touch" arguments (run surroundings (touch arguments) workspace).1
      (run surroundings (touch arguments) workspace).2.place := by
  cases arguments with
  | nil => exact .still _
  | cons path rest =>
      have ran : run surroundings (touch (path :: rest)) workspace =
          andThen surroundings (fun handle => Routine.close handle >>= fun _ => pure .silent)
            (run surroundings (Routine.openFile path true) workspace) :=
        run_bind surroundings (Routine.openFile path true) _ workspace
      rw [ran, run_openFile]
      cases workspace.tree.opening workspace.current path true with
      | refused failure told result =>
          rw [openFile_of_error result]
          exact .still _
      | found node isFile leads result =>
          rw [openFile_of_ok result]
          exact .still _
      | created asked parent free result =>
          rw [openFile_of_ok result]
          exact .grown (by simp [creators]) rfl (free.gains (.inr rfl))

/-- The one case analysis over the built-in commands. -/
theorem becomes_of_mem_builtins {command : Command} (member : command ∈ Builtins.all) :
    workspace.place.Becomes command.name arguments
      (run surroundings (command.body arguments) workspace).1
      (run surroundings (command.body arguments) workspace).2.place := by
  rcases cases_of_mem_builtins member with
    ⟨named, body⟩ | ⟨named, body⟩ | ⟨named, body⟩ | onlyLooks
  · rw [named, body]
    exact becomes_cd surroundings workspace arguments
  · rw [named, body]
    exact becomes_mkdir surroundings workspace arguments
  · rw [named, body]
    exact becomes_touch surroundings workspace arguments
  · rw [place_run surroundings workspace (onlyLooks arguments)]
    exact .still _

end Builtins

end Workspace

def Session.place (session : Session) : Place :=
  session.workspace.place

theorem CommandRun.becomes_settled {run : CommandRun} (builtin : run.command ∈ Builtins.all) :
    run.session.place.Becomes run.command.name run.arguments run.outcome run.settled.2.place := by
  have ended : run.settled.2.place =
      (Workspace.run run.session.invocation.surroundings (run.command.body run.arguments)
        run.session.invocation.begun).2.place := by
    rw [settled_eq]
    exact Workspace.place_reclaim _ _
  rw [ended]
  exact Workspace.becomes_of_mem_builtins run.session.invocation.surroundings
    run.session.invocation.begun run.arguments builtin

/-- A command line, and the session in which it is run. -/
structure LineRun where
  session : Session
  line : String

def LineRun.after (run : LineRun) : Session :=
  (run.session.runLine run.line).2

/-- Whether lines that are run lead from one place to another, each from where the one before
it has led. -/
def Leads (start : Place) : List LineRun → Place → Prop
  | [], goal => goal = start
  | run :: rest, goal => run.session.place = start ∧ Leads run.after.place rest goal

theorem Leads.append {start between goal : Place} {front back : List LineRun}
    (first : Leads start front between) (second : Leads between back goal) :
    Leads start (front ++ back) goal := by
  induction front generalizing start with
  | nil =>
      obtain rfl : between = start := first
      exact second
  | cons run rest ih => exact ⟨first.1, ih first.2⟩

namespace Session

section Lines

def linesRun (session : Session) : List String → List LineRun
  | [] => []
  | line :: rest =>
      { session, line } ::
        match session.runReported line with
        | (.done (), after) => after.linesRun rest
        | _ => []

def submittedRuns (session : Session) (edit : Edit) : List LineRun :=
  match session.editor.submission? edit with
  | none => []
  | some submission => [{ session := session.echoing submission, line := submission.command }]

/-- The command lines that an operation runs, the first one first. -/
def lineRuns (session : Session) : Operation → List LineRun
  | .runStartup => session.linesRun session.config.startup
  | .runLine line => [{ session, line }]
  | .handle edit => session.submittedRuns edit
  | _ => []

/-- The command lines that operations run one after the other. -/
def lineRunsAll (session : Session) : List Operation → List LineRun
  | [] => []
  | operation :: rest =>
      session.lineRuns operation ++ (session.perform operation).2.lineRunsAll rest

/-- Whether all that an operation does is to run command lines. -/
def Operation.RunsLines : Operation → Prop
  | runStartup | runLine _ | handle _ => True
  | _ => False

theorem Operation.RunsLines.isOrdinary {operation : Operation}
    (runsLines : operation.RunsLines) : operation.IsOrdinary := by
  cases operation with
  | register | init => exact runsLines.elim
  | _ => trivial

variable {session : Session} {line : String} {run : LineRun}

theorem place_runReported (session : Session) (line : String) :
    (session.runReported line).2.place = (session.runLine line).2.place := by
  unfold runReported
  split
  next failure after result =>
    rw [result]
    rfl
  next => rfl

theorem leads_linesRun (session : Session) (lines : List String) :
    Leads session.place (session.linesRun lines) (session.runLines lines).2.place := by
  induction lines generalizing session with
  | nil => rfl
  | cons line rest ih =>
      refine ⟨rfl, ?_⟩
      rw [LineRun.after, ← place_runReported, runLines]
      rcases session.runReported line with ⟨value | failure | message, after⟩
      · exact ih after
      · rfl
      · rfl

theorem leads_handle (session : Session) (edit : Edit) :
    Leads session.place (session.submittedRuns edit) (session.handle edit).2.place := by
  unfold handle submittedRuns
  cases submits : session.editor.submission? edit with
  | none => rfl
  | some submission =>
      refine ⟨rfl, ?_⟩
      have still : session.editor.apply edit = session.editor :=
        session.editor.apply_of_submission? submits
      simp only [still]
      rw [LineRun.after, ← place_runReported, submit_eq, ← echoing]
      rcases (session.echoing submission).runReported submission.command with
        ⟨value | failure | message, after⟩
      · rfl
      · rfl
      · rfl

/-- The step: an operation goes from place to place by the lines that it runs. -/
theorem leads_lineRuns (session : Session) {operation : Operation}
    (runsLines : operation.RunsLines) :
    Leads session.place (session.lineRuns operation) (session.perform operation).2.place := by
  cases operation with
  | register | setFarewell | init | execute => exact runsLines.elim
  | runStartup => exact session.leads_linesRun session.config.startup
  | runLine line => exact ⟨rfl, rfl⟩
  | handle edit => exact session.leads_handle edit

/-- The run: so do operations one after the other. -/
theorem leads_lineRunsAll (session : Session) {operations : List Operation}
    (runsLines : ∀ operation ∈ operations, operation.RunsLines) :
    Leads session.place (session.lineRunsAll operations)
      (session.performAll operations).place := by
  induction operations generalizing session with
  | nil => rfl
  | cons operation rest ih =>
      obtain ⟨first, later⟩ := List.forall_mem_cons.mp runsLines
      exact (session.leads_lineRuns first).append (ih _ later)

theorem knowsBuiltins_of_mem_linesRun (knows : session.KnowsBuiltins) {lines : List String}
    (member : run ∈ session.linesRun lines) : run.session.KnowsBuiltins := by
  induction lines generalizing session with
  | nil => cases member
  | cons line rest ih =>
      rcases List.mem_cons.mp member with rfl | later
      · exact knows
      · have same := (session.proceeds_runReported line).registry_eq
        split at later
        next after result =>
          rw [result] at same
          exact ih (same.trans knows) later
        next => cases later

theorem knowsBuiltins_of_mem_lineRuns (knows : session.KnowsBuiltins) {operation : Operation}
    (member : run ∈ session.lineRuns operation) : run.session.KnowsBuiltins := by
  cases operation with
  | register | setFarewell | init | execute => cases member
  | runStartup => exact knowsBuiltins_of_mem_linesRun knows member
  | runLine line =>
      obtain rfl := List.mem_singleton.mp member
      exact knows
  | handle edit =>
      rw [lineRuns, submittedRuns] at member
      cases submits : session.editor.submission? edit with
      | none =>
          rw [submits] at member
          cases member
      | some submission =>
          rw [submits] at member
          obtain rfl := List.mem_singleton.mp member
          exact knows

theorem knowsBuiltins_of_mem_lineRunsAll (knows : session.KnowsBuiltins)
    {operations : List Operation} (runsLines : ∀ operation ∈ operations, operation.RunsLines)
    (member : run ∈ session.lineRunsAll operations) : run.session.KnowsBuiltins := by
  induction operations generalizing session with
  | nil => cases member
  | cons operation rest ih =>
      obtain ⟨first, later⟩ := List.forall_mem_cons.mp runsLines
      rcases List.mem_append.mp member with here | there
      · exact knowsBuiltins_of_mem_lineRuns knows here
      · exact ih (knows.perform first.isOrdinary) later there

/-- A built-in command is known under its own name. -/
theorem KnowsBuiltins.name_eq (knows : session.KnowsBuiltins) {name : String}
    {command : Command} (found : session.registry.find? name = some command) :
    command.name = name := by
  rw [knows] at found
  rcases Registry.empty.find?_registerAll_cases Builtins.all name with
    ⟨last, ⟨-, -, -, named, -⟩, isLast⟩ | ⟨-, unknown⟩
  · rw [isLast] at found
    exact Option.some.inj found ▸ named
  · rw [unknown] at found
    cases found

end Lines

end Session

/-- Whether a line has left its place as it was, or has run a built-in command, once, which
has made of it what such a command makes of a place. -/
inductive LineRun.Settles (run : LineRun) : Prop where
  | still (same : run.after.place = run.session.place)
  | ran (command : CommandRun) (once : run.session.runs (.runLine run.line) = [command])
      (words : CommandLine.tokens run.line = .ok (command.command.name :: command.arguments))
      (becomes : run.session.place.Becomes command.command.name command.arguments
        command.outcome run.after.place)

theorem LineRun.settles (run : LineRun) (knows : run.session.KnowsBuiltins) : run.Settles := by
  have answers := run.session.answers_dispatch run.line
  cases dispatched : run.session.registry.dispatch run.line with
  | blank | malformed | unknown =>
      rw [dispatched] at answers
      exact .still (congrArg (fun ended => ended.2.place) answers.2)
  | run command arguments =>
      rw [dispatched] at answers
      have member : { session := run.session, command, arguments } ∈
          run.session.runs (.runLine run.line) := by
        rw [answers.1]
        exact List.mem_singleton_self _
      obtain ⟨-, settled, name, cut, found⟩ := Session.runLine_of_mem_runs member
      refine .ran _ answers.1 ?_ ?_
      · rw [cut, knows.name_eq found]
      · rw [LineRun.after, settled]
        exact CommandRun.becomes_settled (knows.mem found)

theorem Leads.keptIn {start goal : Place} {runs : List LineRun} (leads : Leads start runs goal)
    (settle : ∀ run ∈ runs, run.Settles) : start.tree.KeptIn goal.tree := by
  induction runs generalizing start with
  | nil =>
      obtain rfl : goal = start := leads
      exact .refl _
  | cons run rest ih =>
      obtain ⟨rfl, later⟩ := leads
      obtain ⟨first, others⟩ := List.forall_mem_cons.mp settle
      refine .trans ?_ (ih later others)
      cases first with
      | still same =>
          rw [same]
          exact .refl _
      | ran command once words becomes => exact becomes.keptIn

namespace Session

/-- The built-in commands destroy nothing.  In every session that knows no other commands,
whatever lines are run at startup, by call or from the keyboard: all paths lead where they led,
all nodes are of the kind that they were, all files have the content that they had, and new
files are empty.  From the place where the session stood to the place where it stands then
lead the lines that were run and nothing else.  Each line has left its place as it was, or has
run one command; and such a command moves only if it is the change of directory and succeeds,
and creates only if it is one of the two that create, one node each, and succeeds. -/
theorem builtins_destroy_nothing {session : Session} (knows : session.KnowsBuiltins)
    {operations : List Operation} (runsLines : ∀ operation ∈ operations, operation.RunsLines) :
    session.workspace.tree.KeptIn (session.performAll operations).workspace.tree ∧
      Leads session.place (session.lineRunsAll operations)
        (session.performAll operations).place ∧
      ∀ run ∈ session.lineRunsAll operations, run.Settles := by
  have leads := session.leads_lineRunsAll runsLines
  have settle : ∀ run ∈ session.lineRunsAll operations, run.Settles :=
    fun run member => run.settles (knowsBuiltins_of_mem_lineRunsAll knows runsLines member)
  exact ⟨leads.keptIn settle, leads, settle⟩

/-- Lines that create and move, and lines that fail or find that there is nothing to do. -/
def errands : List Operation :=
  [.runStartup, .runLine "mkdir notes", .runLine "cd notes", .runLine "mkdir /home/about"] ++
    (typing "touch a").map .handle

theorem builtins_destroy_nothing_errands :
    ∃ created, new { startup := ["touch friends/Rachael", "cd \""] } = .ok created ∧
      let session := (created.perform (.init Demo.seed)).2
      let after := session.performAll errands
      session.KnowsBuiltins ∧ (∀ operation ∈ errands, operation.RunsLines) ∧
        ((session.lineRunsAll errands).length = 6 ∧ after.workspace.current = "/home/notes" ∧
          after.workspace.tree.nodeCount = session.workspace.tree.nodeCount + 2 ∧
          after.workspace.tree.lookup "/home/notes/a" = some session.workspace.tree.nodeCount.succ ∧
          after.workspace.tree.content? 4 = some "this is about Rachael") ∧
        session.workspace.tree.KeptIn after.workspace.tree ∧
        Leads session.place (session.lineRunsAll errands) after.place ∧
        ∀ run ∈ session.lineRunsAll errands, run.Settles := by
  have runsLines : ∀ operation ∈ errands, operation.RunsLines := by
    simp [errands, typing, Operation.RunsLines]
  obtain ⟨created, begun, -⟩ := exists_new { startup := ["touch friends/Rachael", "cd \""] }
  have knows : created.KnowsBuiltins := registry_new begun
  have isSeeding : (Operation.init Demo.seed).IsOrdinary := rfl
  have seeded := knows.perform isSeeding
  refine ⟨created, begun, seeded, runsLines, ?_, builtins_destroy_nothing seeded runsLines⟩
  have evaluated : new { startup := ["touch friends/Rachael", "cd \""] } = .ok _ := rfl
  obtain rfl := Except.ok.inj (evaluated.symm.trans begun)
  decide +kernel

end Session

end CommandShell
