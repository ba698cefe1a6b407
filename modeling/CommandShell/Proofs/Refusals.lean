import CommandShell.Proofs.Dispatch
import CommandShell.Proofs.FailedOperations

/-!
# How built-in commands fail

A built-in command that fails does so before it has changed anything, and with a failure that
is meant for the user.  The one call that could fail in another way, reading a file that was
just opened, cannot fail: the new handle stands for a file.  So a session that knows the
built-in commands only hands out no failure but that of a line with an open quote.
-/

namespace CommandShell

namespace Workspace

variable {α β : Type} {surroundings : Surroundings} {start workspace after : Workspace}

/-- Whether a run is done, or has failed with a failure that is meant for the user and has
left the workspace as it was at the start. -/
inductive DoneOrRefused (start : Workspace) : Outcome α × Workspace → Prop where
  | done (value : α) (after : Workspace) : DoneOrRefused start (.done value, after)
  | refused {failure : Failure} (expected : failure.isUserFacing) :
      DoneOrRefused start (.failed failure, start)

theorem exists_reclaim_eq (workspace : Workspace) (process : ProcessId) :
    ∃ handles processes, workspace.reclaim process = { workspace with handles, processes } := by
  unfold reclaim
  split <;> exact ⟨_, _, rfl⟩

theorem DoneOrRefused.bind {routine : Routine α} {next : α → Routine β}
    (first : DoneOrRefused start (run surroundings routine workspace))
    (later : ∀ value after, run surroundings routine workspace = (.done value, after) →
      DoneOrRefused start (run surroundings (next value) after)) :
    DoneOrRefused start (run surroundings (routine >>= next) workspace) := by
  rw [run_bind]
  rcases ran : run surroundings routine workspace with ⟨outcome, ended⟩
  rw [ran] at first
  cases first with
  | done value => exact later value ended ran
  | refused expected => exact .refused expected

theorem DoneOrRefused.ofExcept {outcome : Except Failure α}
    (expected : ∀ failure, outcome = .error failure → failure.isUserFacing) :
    DoneOrRefused workspace (run surroundings (.ofExcept outcome) workspace) := by
  cases outcome with
  | ok value => exact .done value workspace
  | error failure => exact .refused (expected failure rfl)

/-- A file that was just opened can be read. -/
theorem exists_read_of_openFile {process : ProcessId} {path : String} {create : Bool}
    {handle : Handle} (opened : workspace.openFile process path create = (.ok handle, after)) :
    ∃ content, after.read handle = .ok content := by
  rcases found : workspace.tree.openFile workspace.current path create with
    ⟨failure | node, tree⟩
  · rw [openFile_of_error found] at opened
    cases opened
  · rw [openFile_of_ok found] at opened
    cases opened
    obtain ⟨content, isContent⟩ :=
      FileTree.kind?_eq_file_iff.mp (FileTree.kind?_of_openFile found)
    exact ⟨content, by simp only [read, Handles.node_bind_self, isContent]⟩

theorem run_ask_bind (surroundings : Surroundings) (request : Call)
    (next : request.Reply → Routine α) (workspace : Workspace) :
    run surroundings (Routine.ask request >>= next) workspace =
      run surroundings (next (workspace.perform surroundings request).1)
        (workspace.perform surroundings request).2 := by
  rw [run_bind, run_ask, andThen]

theorem run_openFile (surroundings : Surroundings) (workspace : Workspace) (path : String)
    (create : Bool) :
    run surroundings (Routine.openFile path create) workspace =
      run surroundings (.ofExcept (workspace.openFile surroundings.process path create).1)
        (workspace.openFile surroundings.process path create).2 :=
  run_ask_bind surroundings (.openFile path create) .ofExcept workspace

theorem run_makeDirectory (surroundings : Surroundings) (workspace : Workspace) (path : String) :
    run surroundings (Routine.makeDirectory path) workspace =
      run surroundings (.ofExcept (workspace.makeDirectory path).1)
        (workspace.makeDirectory path).2 :=
  run_ask_bind surroundings (.makeDirectory path) .ofExcept workspace

theorem openFile_of_run {path : String} {create : Bool} {handle : Handle}
    (ran : run surroundings (Routine.openFile path create) workspace = (.done handle, after)) :
    workspace.openFile surroundings.process path create = (.ok handle, after) := by
  rw [run_openFile] at ran
  rcases opened : workspace.openFile surroundings.process path create with
    ⟨failure | found, ended⟩
  · rw [opened] at ran
    cases ran
  · rw [opened] at ran
    cases ran
    rfl

section Builtins

open Builtins

variable (surroundings workspace) (arguments : List String)

theorem DoneOrRefused.withPath {next : String → Routine α}
    (later : ∀ path, DoneOrRefused workspace (run surroundings (next path) workspace)) :
    DoneOrRefused workspace (run surroundings (pathArgument arguments >>= next) workspace) := by
  cases arguments with
  | nil => exact .refused rfl
  | cons path rest => exact later path

theorem doneOrRefused_openFile (path : String) (create : Bool) :
    DoneOrRefused workspace (run surroundings (Routine.openFile path create) workspace) := by
  rw [run_openFile]
  rcases opened : workspace.tree.openFile workspace.current path create with
    ⟨failure | node, tree⟩
  · rw [openFile_of_error opened, FileTree.eq_of_openFile_error opened]
    exact .refused (FileTree.isUserFacing_of_openFile opened)
  · rw [openFile_of_ok opened]
    exact .done _ _

theorem doneOrRefused_read {process : ProcessId} {path : String} {create : Bool}
    {handle : Handle} (opened : workspace.openFile process path create = (.ok handle, after)) :
    DoneOrRefused start (run surroundings (Routine.read handle) after) := by
  obtain ⟨content, isContent⟩ := exists_read_of_openFile opened
  have ran : run surroundings (Routine.read handle) after =
      run surroundings (.ofExcept (after.read handle)) after :=
    run_ask_bind surroundings (.read handle) .ofExcept after
  rw [ran, isContent]
  exact .done content after

theorem doneOrRefused_makeDirectory (path : String) :
    DoneOrRefused workspace (run surroundings (Routine.makeDirectory path) workspace) := by
  rw [run_makeDirectory, makeDirectory_eq]
  rcases made : workspace.tree.makeDirectory workspace.current path with
    ⟨failure | node, tree⟩
  · obtain ⟨expected, rfl⟩ := FileTree.refused_of_makeDirectory made
    exact .refused expected
  · exact .done _ _

theorem doneOrRefused_help :
    DoneOrRefused workspace (run surroundings (help arguments) workspace) := by
  cases arguments with
  | nil => exact .done _ _
  | cons name rest =>
      refine .bind (.done _ _) fun info after ran => ?_
      cases ran
      split
      · exact .refused rfl
      · exact .done _ _

theorem doneOrRefused_ls :
    DoneOrRefused workspace (run surroundings (ls arguments) workspace) := by
  refine .bind (.bind (.done _ _) fun reply after ran => ?_) fun entries after _ => ?_
  · cases ran
    exact .ofExcept fun failure failed => FileTree.isUserFacing_of_list failed
  · split <;> exact .done _ _

theorem doneOrRefused_cd :
    DoneOrRefused workspace (run surroundings (cd arguments) workspace) := by
  cases arguments with
  | nil => exact .done _ _
  | cons path rest =>
      rw [run_cd]
      dsimp only
      split
      · exact .done _ _
      · exact .refused rfl

theorem doneOrRefused_cat :
    DoneOrRefused workspace (run surroundings (cat arguments) workspace) := by
  refine .withPath surroundings workspace arguments fun path => ?_
  refine .bind (doneOrRefused_openFile surroundings workspace path false)
    fun handle opened ran => ?_
  -- After the file is opened nothing may fail any more: the handle is bound to a file.
  exact .bind (doneOrRefused_read surroundings _ (openFile_of_run ran))
    fun content after _ => .done _ _

theorem doneOrRefused_mkdir :
    DoneOrRefused workspace (run surroundings (mkdir arguments) workspace) := by
  refine .withPath surroundings workspace arguments fun path => ?_
  exact .bind (doneOrRefused_makeDirectory surroundings workspace path)
    fun _ after _ => .done _ _

theorem doneOrRefused_touch :
    DoneOrRefused workspace (run surroundings (touch arguments) workspace) := by
  refine .withPath surroundings workspace arguments fun path => ?_
  exact .bind (doneOrRefused_openFile surroundings workspace path true)
    fun handle after _ => .done _ _

theorem doneOrRefused_history :
    DoneOrRefused workspace (run surroundings (history arguments) workspace) := by
  refine .bind (.done _ _) fun lines after ran => ?_
  split <;> exact .done _ _

theorem doneOrRefused_of_mem_builtins {command : Command} (member : command ∈ Builtins.all) :
    DoneOrRefused workspace (run surroundings (command.body arguments) workspace) := by
  simp only [Builtins.all, List.mem_cons, List.not_mem_nil, or_false] at member
  rcases member with rfl | rfl | rfl | rfl | rfl | rfl | rfl | rfl | rfl | rfl | rfl | rfl
  · exact doneOrRefused_help surroundings workspace arguments
  · exact doneOrRefused_ls surroundings workspace arguments
  · exact doneOrRefused_cd surroundings workspace arguments
  · exact .done _ _
  · exact doneOrRefused_cat surroundings workspace arguments
  · exact doneOrRefused_mkdir surroundings workspace arguments
  · exact doneOrRefused_touch surroundings workspace arguments
  · exact .done _ _
  · exact .done _ _
  · exact .done _ _
  · exact doneOrRefused_history surroundings workspace arguments
  · exact .done _ _

end Builtins

end Workspace

/-- An invocation leaves behind what its run has left, with other tables. -/
theorem Session.exists_invoke_eq {α : Type} (session : Session) (routine : Routine α) :
    ∃ surroundings begun handles processes, ∀ outcome ended,
      Workspace.run surroundings routine { session.workspace with processes := begun } =
          (outcome, ended) →
        session.invoke routine =
          (outcome, { session with workspace := { ended with handles, processes } }) := by
  rcases started : session.workspace.processes.start with ⟨process, begun⟩
  let surroundings : Surroundings :=
    { process, history := session.editor.history, commands := session.registry.infos }
  rcases ran : Workspace.run surroundings routine
      { session.workspace with processes := begun } with ⟨outcome, ended⟩
  obtain ⟨handles, processes, reclaimed⟩ := ended.exists_reclaim_eq process
  refine ⟨surroundings, begun, handles, processes, fun other later same => ?_⟩
  obtain ⟨rfl, rfl⟩ := Prod.mk.inj (ran.symm.trans same)
  dsimp only [surroundings] at ran
  simp only [invoke, Workspace.invoke, started, ran, reclaimed]

theorem CommandLine.exists_mark_of_tokens {line : String} {failure : Failure}
    (failed : tokens line = .error failure) : ∃ mark, failure = .unterminatedQuote mark := by
  by_cases empty : line = ""
  · rw [tokens, if_pos empty] at failed
    cases failed
  · obtain ⟨mark, -, same⟩ := (tokens_eq_error_iff empty).mp failed
    exact ⟨mark, same⟩

namespace CommandRun

variable {run : CommandRun}

/-- A built-in command comes to an end that is told, and if it fails nothing else happens. -/
theorem settled_of_builtin (builtin : run.command ∈ Builtins.all) :
    run.settled.1 = .done () ∧
      ∀ failure, run.outcome = .failed failure → ∃ handles processes,
        run.settled.2 =
          { run.session with
            workspace :=
              { run.session.workspace with
                handles, processes
                output := run.session.output.writeLine failure.message } } := by
  have tame := Workspace.doneOrRefused_of_mem_builtins run.session.invocation.surroundings
    run.session.invocation.begun run.arguments builtin
  rcases ran : Workspace.run run.session.invocation.surroundings
    (run.command.body run.arguments) run.session.invocation.begun with ⟨outcome, ended⟩
  rw [ran] at tame
  have outcomeEq : run.outcome = outcome := congrArg Prod.fst ran
  rw [settled, outcomeEq]
  cases tame with
  | done response => exact ⟨rfl, nofun⟩
  | @refused failure expected =>
      have kept : run.ended.workspace = run.session.invocation.begun.reclaim
          run.session.invocation.surroundings.process :=
        congrArg (fun reached : Outcome Response × Workspace => reached.2.reclaim _) ran
      obtain ⟨handles, processes, reclaimed⟩ := Workspace.exists_reclaim_eq
        run.session.invocation.begun run.session.invocation.surroundings.process
      rw [Session.settle, if_pos expected]
      refine ⟨rfl, fun other same => ⟨handles, processes, ?_⟩⟩
      obtain rfl := Outcome.failed.inj same
      rw [Session.writeLine, kept, reclaimed]
      rfl

end CommandRun

namespace Session

/-- Whether a session knows the built-in commands and no others. -/
def KnowsBuiltins (session : Session) : Prop :=
  session.registry = Registry.empty.registerAll Builtins.all

section

variable {session : Session} {line : String}

theorem KnowsBuiltins.mem (knows : session.KnowsBuiltins) {name : String} {command : Command}
    (found : session.registry.find? name = some command) : command ∈ Builtins.all := by
  rw [knows] at found
  rcases Registry.mem_of_find?_registerAll found with builtin | before
  · exact builtin
  · cases before

theorem Operation.IsOrdinary.registered?_eq {operation : Operation}
    (ordinary : operation.IsOrdinary) : operation.registered? = none := by
  cases operation with
  | register command => exact ordinary.elim
  | _ => rfl

theorem KnowsBuiltins.perform (knows : session.KnowsBuiltins) {operation : Operation}
    (ordinary : operation.IsOrdinary) : (session.perform operation).2.KnowsBuiltins := by
  rw [KnowsBuiltins, registry_perform, ordinary.registered?_eq]
  exact knows

theorem KnowsBuiltins.performAll (knows : session.KnowsBuiltins) {operations : List Operation}
    (ordinary : ∀ operation ∈ operations, operation.IsOrdinary) :
    (session.performAll operations).KnowsBuiltins := by
  induction operations generalizing session with
  | nil => exact knows
  | cons operation rest ih =>
      have performed := knows.perform (ordinary operation List.mem_cons_self)
      exact ih performed fun other member => ordinary other (List.mem_cons_of_mem _ member)

/-- A line that can be cut into words always comes to an end that is told. -/
theorem KnowsBuiltins.done_of_tokens (knows : session.KnowsBuiltins) {words : List String}
    (cut : CommandLine.tokens line = .ok words) : (session.runLine line).1 = .done () := by
  rcases none : session.runLineRuns line with _ | ⟨run, rest⟩
  · exact done_of_runs_eq_nil cut none
  · have member : run ∈ session.runLineRuns line := none ▸ List.mem_cons_self
    obtain ⟨-, settled, name, -, found⟩ := runLine_of_mem_runs member
    rw [settled]
    exact (CommandRun.settled_of_builtin (knows.mem found)).1

theorem KnowsBuiltins.failed_iff (knows : session.KnowsBuiltins) {failure : Failure} :
    (session.runLine line).1 = .failed failure ↔ CommandLine.tokens line = .error failure := by
  cases cut : CommandLine.tokens line with
  | ok words =>
      rw [knows.done_of_tokens cut]
      exact iff_of_false nofun nofun
  | error found =>
      rw [runLine_of_malformed cut]
      simp

end

/-- With the built-in commands only, no failure but that of an open quote gets out of a
session.  After any operations that register no commands, running a line fails exactly if the
line cannot be cut into words, with the failure of that and nothing else done.  Every other
line comes to its end, and a built-in command that fails adds the one line of its failure to
the output and changes nothing else that can be seen. -/
theorem only_open_quotes_fail (config : Config) :
    ∃ created, new config = .ok created ∧
      ∀ operations : List Operation, (∀ operation ∈ operations, operation.IsOrdinary) →
        let session := created.performAll operations
        ∀ line,
          (∀ failure, (session.runLine line).1 = .failed failure ↔
            CommandLine.tokens line = .error failure) ∧
          (∀ failure, CommandLine.tokens line = .error failure →
            (∃ mark, failure = .unterminatedQuote mark) ∧
              session.runLine line = (.failed failure, session)) ∧
          (∀ words, CommandLine.tokens line = .ok words → (session.runLine line).1 = .done ()) ∧
          ∀ run ∈ session.runs (.runLine line), run.command ∈ Builtins.all ∧
            ∀ failure, run.outcome = .failed failure → ∃ handles processes,
              session.runLine line =
                (.done (),
                  { session with
                    workspace :=
                      { session.workspace with
                        handles, processes
                        output := session.output.writeLine failure.message } }) := by
  obtain ⟨created, begun, -⟩ := exists_new config
  refine ⟨created, begun, fun operations ordinary => ?_⟩
  intro session line
  have knows : session.KnowsBuiltins := KnowsBuiltins.performAll (registry_new begun) ordinary
  refine ⟨fun failure => knows.failed_iff, fun failure failed => ?_,
    fun words => knows.done_of_tokens, fun run member => ?_⟩
  · exact ⟨CommandLine.exists_mark_of_tokens failed, runLine_of_malformed failed⟩
  · obtain ⟨here, settled, name, -, found⟩ := runLine_of_mem_runs member
    have builtin := knows.mem found
    obtain ⟨done, refused⟩ := CommandRun.settled_of_builtin builtin
    refine ⟨builtin, fun failure failed => ?_⟩
    obtain ⟨handles, processes, rest⟩ := refused failure failed
    rw [here] at rest
    exact ⟨handles, processes, settled.trans (Prod.ext done rest)⟩

/-- A visit to a directory of the demonstration files. -/
def visiting : List Operation :=
  [.init Demo.seed, .runLine "cd friends", .handle (.insert 'l'), .runStartup]

theorem only_open_quotes_fail_visiting :
    ∃ created, new {} = .ok created ∧ (∀ operation ∈ visiting, operation.IsOrdinary) ∧
      let session := created.performAll visiting
      session.workspace.current = "/home/friends" ∧
        (session.runLine "cat \"Rachael").1 = .failed (.unterminatedQuote '"') ∧
        session.runLine "cat \"Rachael" = (.failed (.unterminatedQuote '"'), session) ∧
        (session.runLine "cat nobody").1 = .done () ∧
        (session.runLine "cat nobody").2.output.text = "not a file: /home/friends/nobody\n" := by
  obtain ⟨created, begun, always⟩ := only_open_quotes_fail {}
  have evaluated : new {} = .ok _ := rfl
  obtain rfl := Except.ok.inj (evaluated.symm.trans begun)
  have ordinary : ∀ operation ∈ visiting, operation.IsOrdinary := by
    simp [visiting, Operation.IsOrdinary]
  have unclosed : CommandLine.tokens "cat \"Rachael" = .error (.unterminatedQuote '"') := rfl
  have cut : CommandLine.tokens "cat nobody" = .ok ["cat", "nobody"] := rfl
  obtain ⟨fails, unchanged, -, -⟩ := always visiting ordinary "cat \"Rachael"
  obtain ⟨-, -, ends, -⟩ := always visiting ordinary "cat nobody"
  exact ⟨_, begun, ordinary, by decide +kernel, (fails _).mpr unclosed, (unchanged _ unclosed).2,
    ends _ cut, by decide +kernel⟩

end Session

end CommandShell
